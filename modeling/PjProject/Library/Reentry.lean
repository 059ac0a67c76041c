import Mathlib.Tactic

set_option autoImplicit false

/-! # Code that calls out and is called back

A component whose functions call code outside of it (callbacks of the application, functions of a
lower layer) can be called again before they return. A `Program` is the component cut at these
places: `call` runs an entry point up to its first call out, `resume` goes on with a piece of code
behind one, and `event` is an entry point that is taken only when nothing is under way. What is left
to do is a stack of `Frame`s, pieces of code and the marker `outside` of a call that has not
returned. The code outside may take every entry point it likes and returns a value `ρ` when it
likes, so the runs of `step` are all interleavings of one thread of control.

The rule of this file is `run_invariant`: what every allowed step keeps holds in each configuration
of a run whose steps are all allowed.
-/

namespace Reentry

universe u v w x y

/-- What is left to do: a piece of code, or the return of a call out. -/
inductive Frame (τ : Type v) where
  | code (t : τ)
  | outside
  deriving DecidableEq

/-- The state and what is left to do in it, the innermost call first. -/
structure Conf (σ : Type u) (τ : Type v) where
  state : σ
  stack : List (Frame τ)

/-- A component: entry points `α`, events `β`, pieces of code `τ`, returned values `ρ`. Each leaves
a state and the frames that it puts on the stack. -/
structure Program (σ : Type u) (τ : Type v) (α : Type w) (β : Type x) (ρ : Type y) where
  call : α → σ → σ × List (Frame τ)
  event : β → σ → σ × List (Frame τ)
  resume : τ → ρ → σ → σ × List (Frame τ)

/-- A step: the code outside calls, an event occurs, or the code goes on, with what the call out
returned if there was one. -/
inductive Step (α : Type w) (β : Type x) (ρ : Type y) where
  | call (a : α)
  | event (b : β)
  | resume (r : ρ)
  deriving DecidableEq

variable {σ : Type u} {τ : Type v} {α : Type w} {β : Type x} {ρ : Type y}

/-- Put the frames on the stack. -/
def Conf.push (o : σ × List (Frame τ)) (rest : List (Frame τ)) : Conf σ τ := ⟨o.1, o.2 ++ rest⟩

/-- The piece of code that goes on, on top of the stack or below the call out that returns, and what
is left to do behind it. -/
def next : List (Frame τ) → Option (τ × List (Frame τ))
  | .code t :: rest => some (t, rest)
  | .outside :: .code t :: rest => some (t, rest)
  | _ => none

/-- One step. A step that is not possible in the configuration changes nothing. -/
def step (P : Program σ τ α β ρ) (c : Conf σ τ) : Step α β ρ → Conf σ τ
  | .call a =>
      match c.stack with
      | [] => Conf.push (P.call a c.state) []
      | .outside :: rest => Conf.push (P.call a c.state) (.outside :: rest)
      | .code _ :: _ => c
  | .event b =>
      match c.stack with
      | [] => Conf.push (P.event b c.state) []
      | _ :: _ => c
  | .resume r =>
      match next c.stack with
      | some (t, rest) => Conf.push (P.resume t r c.state) rest
      | none => c

/-- Take the steps one after the other. -/
def run (P : Program σ τ α β ρ) (c : Conf σ τ) (l : List (Step α β ρ)) : Conf σ τ := l.foldl (step P) c

/-- Every step of the run is taken in a configuration where `ok` allows it. -/
def Meets (P : Program σ τ α β ρ) (ok : Conf σ τ → Step α β ρ → Prop) :
    Conf σ τ → List (Step α β ρ) → Prop
  | _, [] => True
  | c, e :: l => ok c e ∧ Meets P ok (step P c e) l

variable {P : Program σ τ α β ρ} {ok : Conf σ τ → Step α β ρ → Prop} {I : Conf σ τ → Prop}

theorem run_append (c : Conf σ τ) (l l' : List (Step α β ρ)) :
    run P c (l ++ l') = run P (run P c l) l' :=
  List.foldl_append

theorem Meets.append : ∀ {l l' : List (Step α β ρ)} {c : Conf σ τ},
    Meets P ok c (l ++ l') → Meets P ok c l ∧ Meets P ok (run P c l) l'
  | [], _, _, h => ⟨trivial, h⟩
  | _ :: _, _, _, h => by
      have hrest := Meets.append h.2
      exact ⟨⟨h.1, hrest.1⟩, hrest.2⟩

/-- **The invariant rule.** What every allowed step keeps holds after a run whose steps are all
allowed. -/
theorem run_invariant (hstep : ∀ c e, I c → ok c e → I (step P c e)) :
    ∀ (l : List (Step α β ρ)) (c : Conf σ τ), I c → Meets P ok c l → I (run P c l)
  | [], _, hc, _ => hc
  | e :: l, c, hc, hm => run_invariant hstep l (step P c e) (hstep c e hc hm.1) hm.2

/-- Whether all steps of a run are allowed can be computed. -/
instance decidableMeets [∀ c e, Decidable (ok c e)] :
    (c : Conf σ τ) → (l : List (Step α β ρ)) → Decidable (Meets P ok c l)
  | _, [] => isTrue trivial
  | c, e :: l =>
      have : Decidable (Meets P ok (step P c e) l) := decidableMeets (step P c e) l
      inferInstanceAs (Decidable (ok c e ∧ Meets P ok (step P c e) l))

/-- Nothing is under way, or the code outside has control. -/
inductive Free : List (Frame τ) → Prop where
  | idle : Free []
  | outside (rest : List (Frame τ)) : Free (.outside :: rest)

/-- **What a step can do.** To show a property of the configuration after it, show it for the
configuration itself, for a call where the code outside has control, for an event where nothing is
under way and for each piece of code that goes on. -/
theorem step_cases {Q : Conf σ τ → Prop} {c : Conf σ τ} {e : Step α β ρ} (hsame : Q c)
    (hcall : ∀ a, e = .call a → Free c.stack → Q (Conf.push (P.call a c.state) c.stack))
    (hevent : ∀ b, e = .event b → c.stack = [] → Q (Conf.push (P.event b c.state) []))
    (hresume : ∀ r t rest, e = .resume r → next c.stack = some (t, rest) →
      Q (Conf.push (P.resume t r c.state) rest)) : Q (step P c e) := by
  rcases c with ⟨s, stack⟩
  cases e with
  | call a =>
      rcases stack with _ | ⟨_ | _, rest⟩
      · exact hcall a rfl .idle
      · exact hsame
      · exact hcall a rfl (.outside rest)
  | event b =>
      rcases stack with _ | ⟨f, rest⟩
      · exact hevent b rfl rfl
      · exact hsame
  | resume r =>
      show Q (match next stack with
        | some (t, rest) => Conf.push (P.resume t r s) rest
        | none => ⟨s, stack⟩)
      cases hnext : next stack with
      | none => exact hsame
      | some p => exact hresume r p.1 p.2 rfl hnext

/-- The call out below which a piece of code goes on says nothing of it. -/
theorem next_cases {stack : List (Frame τ)} {t : τ} {rest : List (Frame τ)}
    (h : next stack = some (t, rest)) :
    stack = .code t :: rest ∨ stack = .outside :: .code t :: rest := by
  rcases stack with _ | ⟨t' | _, stack⟩
  · cases h
  · cases h
    exact Or.inl rfl
  · rcases stack with _ | ⟨t' | _, stack⟩
    · cases h
    · cases h
      exact Or.inr rfl
    · cases h

end Reentry
