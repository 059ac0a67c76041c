import Mathlib.Tactic

set_option autoImplicit false

/-! # Programs that consume their input

A program with a state and exceptions, `EStateM ε σ α`, reads an input that its state holds. `Input`
says which states are sound, how much of the input is left in a state, and which exceptions may be
thrown. A `Safe` program keeps the state sound and gives no input back; a program that `Eats` takes
some of the input, if it returns. Both are put together along the text of a program, by one rule for
each construct.

`loop` repeats a body until it returns `Sum.inr`. The rule of this file is `Safe.loop`: a loop whose
body eats in every turn after which it goes on (`Turn`) ends. Where this holds only of some turns, the
loop ends unless it comes to one of the others (`loop_hangs_iff`).
-/

namespace Consume

variable {ε σ α β γ : Type}

/-- What a state holds of the input. -/
structure Input (ε σ : Type) where
  sound : σ → Prop
  left : σ → Nat
  fails : ε → Prop

/-! ## Loops -/

/-- Repeat the body, from `b` on, until it returns `Sum.inr`; `stuck` stands for a loop that has not
ended after the given number of turns. -/
def iterate (stuck : ε) (body : β → EStateM ε σ (β ⊕ γ)) : Nat → β → EStateM ε σ γ
  | 0, _ => throw stuck
  | n + 1, b => do
      match ← body b with
      | .inl b => iterate stuck body n b
      | .inr c => pure c

/-- The loop, with a number of turns that depends on the state. -/
def loop (turns : σ → Nat) (stuck : ε) (body : β → EStateM ε σ (β ⊕ γ)) (b : β) : EStateM ε σ γ :=
  fun s => iterate stuck body (turns s) b s

variable {stuck : ε} {body : β → EStateM ε σ (β ⊕ γ)} {b b' : β} {s s' : σ}

theorem iterate_again {n : Nat} (h : body b s = .ok (.inl b') s') :
    iterate stuck body (n + 1) b s = iterate stuck body n b' s' := by
  simp only [iterate, bind, EStateM.bind, h]

theorem iterate_done {n : Nat} {c : γ} (h : body b s = .ok (.inr c) s') :
    iterate stuck body (n + 1) b s = .ok c s' := by
  simp only [iterate, bind, EStateM.bind, h]
  rfl

theorem iterate_error {n : Nat} {e : ε} (h : body b s = .error e s') :
    iterate stuck body (n + 1) b s = .error e s' := by
  simp only [iterate, bind, EStateM.bind, h]

/-- The loop comes from one turn to another. -/
inductive Comes (body : β → EStateM ε σ (β ⊕ γ)) : β → σ → β → σ → Prop
  | here (b : β) (s : σ) : Comes body b s b s
  | again {b b' b'' : β} {s s' s'' : σ} (h : body b s = .ok (.inl b') s')
      (hrest : Comes body b' s' b'' s'') : Comes body b s b'' s''

/-- The loop does not end from here on, however many turns it has. -/
def Stuck (stuck : ε) (body : β → EStateM ε σ (β ⊕ γ)) (b : β) (s : σ) : Prop :=
  ∀ n, ∃ s', iterate stuck body n b s = .error stuck s'

/-- A body that goes on from a state to that state is repeated for ever. -/
theorem Stuck.of_same (h : body b s = .ok (.inl b) s) : Stuck stuck body b s := by
  intro n
  refine ⟨s, ?_⟩
  induction n with
  | zero => rfl
  | succ n ih => rw [iterate_again h, ih]

/-- A turn that does not end keeps the loop from ending. -/
theorem Stuck.of_error (h : body b s = .error stuck s') : Stuck stuck body b s := by
  intro n
  cases n with
  | zero => exact ⟨s, rfl⟩
  | succ n => exact ⟨s', iterate_error h⟩

theorem Stuck.of_comes {b'' : β} {s'' : σ} (hstuck : Stuck stuck body b'' s'')
    (h : Comes body b s b'' s'') : Stuck stuck body b s := by
  induction h with
  | here b s => exact hstuck
  | again h hrest ih =>
      intro n
      cases n with
      | zero => exact ⟨_, rfl⟩
      | succ n =>
          obtain ⟨s1, h1⟩ := ih hstuck n
          exact ⟨s1, by rw [iterate_again h, h1]⟩

/-! ## What a program does to the input -/

variable (I : Input ε σ)

/-- The state is sound, and there is no more input than before. -/
def Leaves (s s' : σ) : Prop := I.sound s' ∧ I.left s' ≤ I.left s

/-- The result of a program that gives no input back. -/
def Kept (s : σ) : EStateM.Result ε σ α → Prop
  | .ok _ s' => Leaves I s s'
  | .error e s' => I.fails e ∧ Leaves I s s'

/-- The result of a program that takes some of the input. -/
def Taken (s : σ) : EStateM.Result ε σ α → Prop
  | .ok _ s' => I.sound s' ∧ I.left s' < I.left s
  | .error e s' => I.fails e ∧ Leaves I s s'

/-- The result of a turn of a loop that takes some of the input, if the loop is to go on. -/
def Turned (s : σ) : EStateM.Result ε σ (β ⊕ γ) → Prop
  | .ok (.inl _) s' => I.sound s' ∧ I.left s' < I.left s
  | .ok (.inr _) s' => Leaves I s s'
  | .error e s' => I.fails e ∧ Leaves I s s'

/-- The program does not end in this state. -/
def Hangs (stuck : ε) (x : EStateM ε σ α) (s : σ) : Prop := ∃ s', x s = .error stuck s'

/-- The program keeps the state sound and gives no input back. -/
def Safe (x : EStateM ε σ α) : Prop := ∀ s, I.sound s → Kept I s (x s)

/-- The program takes some of the input, if it returns. -/
def Eats (x : EStateM ε σ α) : Prop := ∀ s, I.sound s → Taken I s (x s)

/-- One turn of a loop: it takes some of the input, if the loop is to go on. -/
def Turn (x : EStateM ε σ (β ⊕ γ)) : Prop := ∀ s, I.sound s → Turned I s (x s)

variable {I} {x : EStateM ε σ α} {f : α → EStateM ε σ β}

theorem Leaves.refl (h : I.sound s) : Leaves I s s := ⟨h, le_rfl⟩

theorem Leaves.trans {s'' : σ} (h : Leaves I s s') (h' : Leaves I s' s'') : Leaves I s s'' :=
  ⟨h'.1, h'.2.trans h.2⟩

theorem Kept.trans (h : Leaves I s s') {r : EStateM.Result ε σ α} (hr : Kept I s' r) :
    Kept I s r := by
  cases r with
  | ok a s'' => exact h.trans hr
  | error e s'' => exact ⟨hr.1, h.trans hr.2⟩

/-- What a program leaves of less input. -/
theorem Kept.taken (h : I.left s' < I.left s) {r : EStateM.Result ε σ α} (hr : Kept I s' r) :
    Taken I s r := by
  cases r with
  | ok a s'' => exact ⟨hr.1, hr.2.trans_lt h⟩
  | error e s'' => exact ⟨hr.1, hr.2.1, hr.2.2.trans h.le⟩

theorem Taken.kept {r : EStateM.Result ε σ α} (h : Taken I s r) : Kept I s r := by
  cases r with
  | ok a s' => exact ⟨h.1, h.2.le⟩
  | error e s' => exact h

theorem Kept.not_hangs (hfails : ¬ I.fails stuck) (h : Kept I s (x s)) : ¬ Hangs stuck x s := by
  rintro ⟨s', hr⟩
  rw [hr] at h
  exact hfails h.1

theorem Eats.safe (h : Eats I x) : Safe I x := fun s hs => (h s hs).kept

theorem Safe.pure (a : α) : Safe I (Pure.pure a) := fun _ hs => Leaves.refl hs

theorem Safe.throw {e : ε} (he : I.fails e) : Safe I (throw e : EStateM ε σ α) :=
  fun _ hs => ⟨he, Leaves.refl hs⟩

/-- The rule of a sequence, in one state. -/
theorem Kept.bind (hx : Kept I s (x s)) (hf : ∀ a s', x s = .ok a s' → Kept I s' (f a s')) :
    Kept I s ((x >>= f) s) := by
  simp only [Bind.bind, EStateM.bind]
  cases hr : x s with
  | error e s' =>
      rw [hr] at hx
      exact hx
  | ok a s' =>
      rw [hr] at hx
      exact (hf a s' hr).trans hx

/-- The rule of a sequence. -/
theorem Safe.bind (hx : Safe I x) (hf : ∀ a, Safe I (f a)) : Safe I (x >>= f) := by
  intro s hs
  have h1 := hx s hs
  refine h1.bind fun a s' hr => ?_
  rw [hr] at h1
  exact hf a s' h1.1

theorem Kept.sound_of_ok {a : α} (hx : Kept I s (x s)) (h : x s = .ok a s') : I.sound s' := by
  rw [h] at hx
  exact hx.1

/-- The same, where the rest is safe. -/
theorem Kept.bind_safe (hx : Kept I s (x s)) (hf : ∀ a, Safe I (f a)) : Kept I s ((x >>= f) s) :=
  hx.bind fun a s' h => hf a s' (hx.sound_of_ok h)

/-- A sequence eats if its first part does. -/
theorem Taken.bind (hx : Taken I s (x s)) (hf : ∀ a s', x s = .ok a s' → Kept I s' (f a s')) :
    Taken I s ((x >>= f) s) := by
  simp only [Bind.bind, EStateM.bind]
  cases hr : x s with
  | error e s' =>
      rw [hr] at hx
      exact hx
  | ok a s' =>
      rw [hr] at hx
      exact (hf a s' hr).taken hx.2

theorem Eats.bind (hx : Eats I x) (hf : ∀ a, Safe I (f a)) : Eats I (x >>= f) := by
  intro s hs
  have h1 := hx s hs
  refine h1.bind fun a s' hr => ?_
  rw [hr] at h1
  exact hf a s' h1.1

/-- A sequence eats if the rest of it does. -/
theorem Eats.after (hx : Safe I x) (hf : ∀ a, Eats I (f a)) : Eats I (x >>= f) := by
  intro s hs
  have h1 := hx s hs
  simp only [Bind.bind, EStateM.bind]
  cases hr : x s with
  | error e s' =>
      rw [hr] at h1
      exact h1
  | ok a s' =>
      rw [hr] at h1
      have h2 := hf a s' h1.1
      dsimp only
      cases hr' : f a s' with
      | error e s'' =>
          rw [hr'] at h2
          exact ⟨h2.1, Leaves.trans h1 h2.2⟩
      | ok b s'' =>
          rw [hr'] at h2
          exact ⟨h2.1, h2.2.trans_le h1.2⟩

/-- A sequence hangs if its first part does. -/
theorem Hangs.bind (h : Hangs stuck x s) : Hangs stuck (x >>= f) s := by
  obtain ⟨s', hr⟩ := h
  refine ⟨s', ?_⟩
  simp only [Bind.bind, EStateM.bind, hr]

/-- A sequence hangs if its rest does, where its first part ends. -/
theorem Hangs.after {a : α} (hx : x s = .ok a s') (h : Hangs stuck (f a) s') :
    Hangs stuck (x >>= f) s := by
  obtain ⟨s'', hr⟩ := h
  refine ⟨s'', ?_⟩
  simp only [Bind.bind, EStateM.bind, hx, hr]

/-- A sequence that returns: both parts return. -/
theorem ok_of_bind {c : β} (h : (x >>= f) s = .ok c s') :
    ∃ a s1, x s = .ok a s1 ∧ f a s1 = .ok c s' := by
  simp only [Bind.bind, EStateM.bind] at h
  cases hr : x s with
  | error e s1 =>
      rw [hr] at h
      cases h
  | ok a s1 =>
      rw [hr] at h
      exact ⟨a, s1, rfl, h⟩

theorem Safe.ite {c : Prop} [Decidable c] {x y : EStateM ε σ α} (hx : Safe I x) (hy : Safe I y) :
    Safe I (if c then x else y) := by
  split
  · exact hx
  · exact hy

/-! ## Turns -/

theorem Taken.turned {r : EStateM.Result ε σ (β ⊕ γ)} (h : Taken I s r) : Turned I s r := by
  cases r with
  | error e s' => exact h
  | ok a s' =>
      cases a with
      | inl b => exact h
      | inr c => exact ⟨h.1, h.2.le⟩

theorem Eats.turn {x : EStateM ε σ (β ⊕ γ)} (h : Eats I x) : Turn I x := fun s hs => (h s hs).turned

/-- The loop ends. -/
theorem Turn.stop (c : γ) : Turn I (Pure.pure (.inr c) : EStateM ε σ (β ⊕ γ)) :=
  fun _ hs => Leaves.refl hs

theorem Turned.trans (h : Leaves I s s') {r : EStateM.Result ε σ (β ⊕ γ)} (hr : Turned I s' r) :
    Turned I s r := by
  cases r with
  | error e s'' => exact ⟨hr.1, h.trans hr.2⟩
  | ok a s'' =>
      cases a with
      | inl b => exact ⟨hr.1, hr.2.trans_le h.2⟩
      | inr c => exact h.trans hr

theorem Kept.turn_bind {f : α → EStateM ε σ (β ⊕ γ)} (hx : Kept I s (x s))
    (hf : ∀ a, Turn I (f a)) : Turned I s ((x >>= f) s) := by
  simp only [Bind.bind, EStateM.bind]
  cases hr : x s with
  | error e s' =>
      rw [hr] at hx
      exact hx
  | ok a s' =>
      rw [hr] at hx
      exact (hf a s' hx.1).trans hx

theorem Safe.turn_bind {f : α → EStateM ε σ (β ⊕ γ)} (hx : Safe I x) (hf : ∀ a, Turn I (f a)) :
    Turn I (x >>= f) := fun s hs => (hx s hs).turn_bind hf

theorem Turn.ite {c : Prop} [Decidable c] {x y : EStateM ε σ (β ⊕ γ)} (hx : Turn I x)
    (hy : Turn I y) : Turn I (if c then x else y) := by
  split
  · exact hx
  · exact hy

/-- **The rule of a loop**: with more turns than input it ends, unless it comes to a bad turn. -/
theorem iterate_kept_or_bad {bad : β → σ → Prop}
    (hbody : ∀ b s, I.sound s → ¬ bad b s → Turned I s (body b s)) (n : Nat) :
    ∀ (b : β) (s : σ), I.sound s → I.left s < n →
      Kept I s (iterate stuck body n b s) ∨ ∃ b' s', Comes body b s b' s' ∧ bad b' s' := by
  induction n with
  | zero =>
      intro b s _ hn
      omega
  | succ n ih =>
      intro b s hs hn
      by_cases hbad : bad b s
      · exact Or.inr ⟨b, s, .here b s, hbad⟩
      have hturn := hbody b s hs hbad
      cases hr : body b s with
      | error e s' =>
          rw [hr] at hturn
          rw [iterate_error hr]
          exact Or.inl hturn
      | ok a s' =>
          rw [hr] at hturn
          cases a with
          | inr c =>
              rw [iterate_done hr]
              exact Or.inl hturn
          | inl b' =>
              have hle : Leaves I s s' := ⟨hturn.1, hturn.2.le⟩
              rw [iterate_again hr]
              rcases ih b' s' hturn.1 (by have := hturn.2; omega) with hkept | ⟨b2, s2, hc, h2⟩
              · exact Or.inl (hkept.trans hle)
              · exact Or.inr ⟨b2, s2, .again hr hc, h2⟩

/-- A loop all of whose turns eat ends. -/
theorem Safe.loop {turns : σ → Nat} (hturns : ∀ s, I.sound s → I.left s < turns s)
    (hbody : ∀ b, Turn I (body b)) (b : β) : Safe I (loop turns stuck body b) := by
  intro s hs
  have h : Kept I s (iterate stuck body (turns s) b s) ∨ ∃ b' s', Comes body b s b' s' ∧ False :=
    iterate_kept_or_bad (fun b s hs _ => hbody b s hs) (turns s) b s hs (hturns s hs)
  rcases h with h | ⟨_, _, _, h⟩
  · exact h
  · exact h.elim

/-- A loop whose turns eat under an invariant `P` of what it carries ends. -/
theorem Safe.loop_inv {turns : σ → Nat} {P : β → Prop}
    (hturns : ∀ s, I.sound s → I.left s < turns s) (hbody : ∀ b, P b → Turn I (body b))
    (hnext : ∀ b s b' s', P b → body b s = .ok (.inl b') s' → P b') (hb : P b) :
    Safe I (Consume.loop turns stuck body b) := by
  intro s hs
  have h : Kept I s (iterate stuck body (turns s) b s) ∨
      ∃ b' s', Comes body b s b' s' ∧ ¬ P b' :=
    iterate_kept_or_bad (fun b s hs hP => hbody b (not_not.mp hP) s hs) (turns s) b s hs
      (hturns s hs)
  rcases h with h | ⟨b', s', hcomes, h⟩
  · exact h
  · -- the invariant holds wherever the loop comes to
    exfalso
    clear hs
    induction hcomes with
    | here b s => exact h hb
    | again hr hrest ih => exact ih (hnext _ _ _ _ hb hr) h

/-- A loop that comes to a bad turn stays there, if every bad turn is one it stays in. -/
theorem stuck_of_comes_bad {bad : β → σ → Prop}
    (hbody : ∀ b s, I.sound s → ¬ bad b s → Turned I s (body b s))
    (hbad : ∀ b s, I.sound s → bad b s → Stuck stuck body b s) (h : Comes body b s b' s')
    (hs : I.sound s) (hlast : bad b' s') : Stuck stuck body b s := by
  induction h with
  | here b s => exact hbad b s hs hlast
  | @again b b1 b2 s s1 s2 hr hrest ih =>
      by_cases hb : bad b s
      · exact hbad b s hs hb
      · have hturn := hbody b s hs hb
        rw [hr] at hturn
        exact (ih hturn.1 hlast).of_comes (.again hr (.here b1 s1))

/-- Where each bad turn is one the loop stays in, it hangs if and only if it comes to one. -/
theorem loop_hangs_iff {turns : σ → Nat} {bad : β → σ → Prop} (hfails : ¬ I.fails stuck)
    (hbody : ∀ b s, I.sound s → ¬ bad b s → Turned I s (body b s))
    (hbad : ∀ b s, I.sound s → bad b s → Stuck stuck body b s) (hs : I.sound s)
    (hturns : I.left s < turns s) :
    Hangs stuck (loop turns stuck body b) s ↔ ∃ b' s', Comes body b s b' s' ∧ bad b' s' := by
  constructor
  · intro h
    rcases iterate_kept_or_bad hbody (turns s) b s hs hturns with hkept | hcomes
    · exact absurd h (Kept.not_hangs (x := loop turns stuck body b) hfails hkept)
    · exact hcomes
  · rintro ⟨b', s', hcomes, h⟩
    exact stuck_of_comes_bad hbody hbad hcomes hs h (turns s)

theorem sound_of_comes
    (hbody : ∀ b s b' s', I.sound s → body b s = .ok (.inl b') s' →
      I.sound s' ∧ I.left s' < I.left s)
    (hs : I.sound s) (h : Comes body b s b' s') : I.sound s' := by
  induction h with
  | here b s => exact hs
  | again hr hrest ih => exact ih (hbody _ _ _ _ hs hr).1

/-- A loop that comes to a turn that throws throws. -/
theorem loop_error_of_comes {turns : σ → Nat} {e : ε} {s'' : σ}
    (hbody : ∀ b s b' s', I.sound s → body b s = .ok (.inl b') s' →
      I.sound s' ∧ I.left s' < I.left s)
    (hs : I.sound s) (hturns : I.left s < turns s) (h : Comes body b s b' s')
    (he : body b' s' = .error e s'') : loop turns stuck body b s = .error e s'' := by
  suffices hrun : ∀ n, I.left s < n → iterate stuck body n b s = .error e s'' from
    hrun (turns s) hturns
  clear hturns
  induction h with
  | here b s =>
      intro n hn
      obtain ⟨m, rfl⟩ := Nat.exists_eq_succ_of_ne_zero (Nat.ne_of_gt (Nat.zero_lt_of_lt hn))
      exact iterate_error he
  | again hr hrest ih =>
      intro n hn
      obtain ⟨m, rfl⟩ := Nat.exists_eq_succ_of_ne_zero (Nat.ne_of_gt (Nat.zero_lt_of_lt hn))
      obtain ⟨hs', hlt⟩ := hbody _ _ _ _ hs hr
      rw [iterate_again hr]
      exact ih hs' he m (by omega)

/-- It keeps the state sound if it comes to none. -/
theorem loop_kept {turns : σ → Nat} {bad : β → σ → Prop}
    (hbody : ∀ b s, I.sound s → ¬ bad b s → Turned I s (body b s)) (hs : I.sound s)
    (hturns : I.left s < turns s) (h : ¬ ∃ b' s', Comes body b s b' s' ∧ bad b' s') :
    Kept I s (loop turns stuck body b s) :=
  (iterate_kept_or_bad hbody (turns s) b s hs hturns).resolve_right h

end Consume
