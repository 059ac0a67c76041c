import PjProject.Library.Outcome

set_option autoImplicit false

/-! # Runs of a fallible machine

A component is a step function `step : σ → α → Except ε σ`: an operation `a : α` taken in the
state `s : σ` either ends in a new state or in a fault `e : ε` (a failed assertion, a loop that
does not end, the use of an absent object). `run` takes a list of operations one after the
other. `Meets ok` says that every operation of a run is taken in a state where `ok` allows it.

The rule of this file is `run_invariant`: what one allowed step keeps, and does not turn into a
fault, holds after every run whose steps are all allowed. `run_holds` is this rule for a machine
whose steps may also end in some of the faults.
-/

namespace Machine

universe u v w

variable {σ : Type u} {α : Type v} {ε : Type w}

/-- Take the operations of the list one after the other. -/
def run (step : σ → α → Except ε σ) : σ → List α → Except ε σ
  | s, [] => .ok s
  | s, a :: l =>
      match step s a with
      | .error e => .error e
      | .ok s' => run step s' l

/-- Every operation of the run from `s` is taken in a state where `ok` allows it. -/
def Meets (step : σ → α → Except ε σ) (ok : σ → α → Prop) : σ → List α → Prop
  | _, [] => True
  | s, a :: l => ok s a ∧ ∀ s', step s a = .ok s' → Meets step ok s' l

variable {step : σ → α → Except ε σ} {ok : σ → α → Prop} {Inv : σ → Prop}

theorem meets_cons_ok {s s' : σ} {a : α} {l : List α} (h : step s a = .ok s') :
    Meets step ok s (a :: l) ↔ ok s a ∧ Meets step ok s' l := by
  simp [Meets, h]

theorem meets_cons_error {s : σ} {a : α} {l : List α} {e : ε} (h : step s a = .error e) :
    Meets step ok s (a :: l) ↔ ok s a := by
  simp [Meets, h]

instance Meets.decidable [∀ s a, Decidable (ok s a)] :
    ∀ (s : σ) (l : List α), Decidable (Meets step ok s l)
  | _, [] => isTrue trivial
  | s, a :: l =>
      match h : step s a with
      | .error _ => decidable_of_iff _ (meets_cons_error h).symm
      | .ok s' =>
          have := Meets.decidable s' l
          decidable_of_iff _ (meets_cons_ok h).symm

theorem run_cons_ok {s s' : σ} {a : α} {l : List α} (h : step s a = .ok s') :
    run step s (a :: l) = run step s' l := by
  simp [run, h]

/-- **The invariant rule.** If every allowed step from a state of `Inv` ends, without a fault, in
a state of `Inv`, then so does every run whose steps are all allowed. -/
theorem run_invariant
    (hstep : ∀ s a, Inv s → ok s a → ∃ s', step s a = .ok s' ∧ Inv s') :
    ∀ (l : List α) (s : σ), Inv s → Meets step ok s l →
      ∃ s', run step s l = .ok s' ∧ Inv s'
  | [], s, hs, _ => ⟨s, rfl, hs⟩
  | a :: l, s, hs, hm => by
      obtain ⟨s', hs', hinv⟩ := hstep s a hs hm.1
      rw [run_cons_ok hs']
      exact run_invariant hstep l s' hinv (hm.2 s' hs')

/-- The invariant rule for a machine that may take every step. -/
theorem run_invariant_all (hstep : ∀ s a, Inv s → ∃ s', step s a = .ok s' ∧ Inv s') :
    ∀ (l : List α) (s : σ), Inv s → ∃ s', run step s l = .ok s' ∧ Inv s'
  | [], s, hs => ⟨s, rfl, hs⟩
  | a :: l, s, hs => by
      obtain ⟨s', hs', hinv⟩ := hstep s a hs
      rw [run_cons_ok hs']
      exact run_invariant_all hstep l s' hinv

/-- The invariant rule for a machine whose steps may end in the faults of `E`: so may its runs, and
a run that does not ends in a state of `Inv`. -/
theorem run_holds {E : ε → Prop}
    (hstep : ∀ s a, Inv s → ok s a → Outcome.Holds Inv E (step s a)) :
    ∀ (l : List α) (s : σ), Inv s → Meets step ok s l → Outcome.Holds Inv E (run step s l)
  | [], _, hs, _ => Outcome.Holds.ok hs
  | a :: l, s, hs, hm => by
      have h := hstep s a hs hm.1
      cases hs' : step s a with
      | error e =>
          rw [hs'] at h
          simp only [run, hs']
          exact h
      | ok s' =>
          rw [hs'] at h
          rw [run_cons_ok hs']
          exact run_holds hstep l s' h (hm.2 s' hs')

/-- The same rule for a machine that may take every step. -/
theorem run_holds_all {E : ε → Prop} (hstep : ∀ s a, Inv s → Outcome.Holds Inv E (step s a))
    (l : List α) (s : σ) (hs : Inv s) : Outcome.Holds Inv E (run step s l) := by
  have hall : ∀ (l : List α) (s : σ), Meets step (fun _ _ => True) s l := by
    intro l
    induction l with
    | nil => exact fun _ => trivial
    | cons a l ih => exact fun s => ⟨trivial, fun s' _ => ih s'⟩
  exact run_holds (fun s a h _ => hstep s a h) l s hs (hall l s)

/-! ## What holds in every state of a run -/

/-- `P` holds in every state that the run from `s` reaches. -/
def Always (step : σ → α → Except ε σ) (P : σ → Prop) : σ → List α → Prop
  | s, [] => P s
  | s, a :: l => P s ∧ ∀ s', step s a = .ok s' → Always step P s' l

theorem Always.head {P : σ → Prop} {s : σ} {l : List α} (h : Always step P s l) : P s := by
  cases l with
  | nil => exact h
  | cons a l => exact h.1

theorem Always.last {P : σ → Prop} {s s' : σ} {l : List α} (h : Always step P s l)
    (hrun : run step s l = .ok s') : P s' := by
  induction l generalizing s with
  | nil =>
      cases hrun
      exact h
  | cons a l ih =>
      cases hs : step s a with
      | error e =>
          simp only [run, hs] at hrun
          cases hrun
      | ok s₁ =>
          rw [run_cons_ok hs] at hrun
          exact ih (h.2 s₁ hs) hrun

/-- If the allowed steps keep `Inv`, which implies `P`, then `P` holds all along a run whose steps are
all allowed. -/
theorem always_of_meets {P : σ → Prop} (hinv : ∀ s, Inv s → P s)
    (hkeep : ∀ s a s', Inv s → ok s a → step s a = .ok s' → Inv s') (l : List α) (s : σ) (hs : Inv s)
    (h : Meets step ok s l) : Always step P s l := by
  induction l generalizing s with
  | nil => exact hinv s hs
  | cons a l ih =>
      exact ⟨hinv s hs, fun s' hs' => ih s' (hkeep s a s' hs h.1 hs') (h.2 s' hs')⟩

/-- **The exact condition of a property.** If, moreover, every other step leads to a state without
`P`, then `P` holds all along a run if and only if all of its steps are allowed. -/
theorem always_iff_meets {P : σ → Prop} (hinv : ∀ s, Inv s → P s)
    (hkeep : ∀ s a s', Inv s → ok s a → step s a = .ok s' → Inv s')
    (hbreak : ∀ s a, Inv s → ¬ ok s a → ∃ s', step s a = .ok s' ∧ ¬ P s') (l : List α) (s : σ)
    (hs : Inv s) : Always step P s l ↔ Meets step ok s l := by
  refine ⟨fun h => ?_, always_of_meets hinv hkeep l s hs⟩
  induction l generalizing s with
  | nil => trivial
  | cons a l ih =>
      by_cases hok : ok s a
      · exact ⟨hok, fun s' hs' => ih s' (hkeep s a s' hs hok hs') (h.2 s' hs')⟩
      · rcases hbreak s a hs hok with ⟨s', hs', hnot⟩
        exact absurd (h.2 s' hs').head hnot

/-! ## Evaluating a concrete run -/

/-- All steps of the run are allowed, none ends in a fault, and the last state satisfies `p`. -/
def checkRun (step : σ → α → Except ε σ) (ok : σ → α → Bool) (p : σ → Bool) : σ → List α → Bool
  | s, [] => p s
  | s, a :: l => ok s a &&
      match step s a with
      | .error _ => false
      | .ok s' => checkRun step ok p s' l

theorem checkRun_sound (step : σ → α → Except ε σ) (okB : σ → α → Bool) (p : σ → Bool) :
    ∀ (l : List α) (s : σ), checkRun step okB p s l = true →
      Meets step (fun s a => okB s a = true) s l ∧ ∃ s', run step s l = .ok s' ∧ p s' = true
  | [], s, h => ⟨trivial, s, rfl, h⟩
  | a :: l, s, h => by
      simp only [checkRun, Bool.and_eq_true] at h
      obtain ⟨hok, h⟩ := h
      cases hs : step s a with
      | error e => rw [hs] at h; cases h
      | ok s' =>
          rw [hs] at h
          obtain ⟨hm, hr⟩ := checkRun_sound step okB p l s' h
          refine ⟨⟨hok, fun s'' hs'' => ?_⟩, ?_⟩
          · rw [hs] at hs''
            cases hs''
            exact hm
          · rw [run_cons_ok hs]
            exact hr

theorem Meets.mono {ok' : σ → α → Prop} (hok : ∀ s a, ok s a → ok' s a) :
    ∀ (l : List α) (s : σ), Meets step ok s l → Meets step ok' s l
  | [], _, _ => trivial
  | a :: l, s, h => ⟨hok s a h.1, fun s' hs' => Meets.mono hok l s' (h.2 s' hs')⟩

/-- If the allowed steps keep `Inv`, and `ok'` allows every allowed step from a state of `Inv`, then a run
that meets the one condition meets the other. -/
theorem Meets.of_invariant {ok' : σ → α → Prop} (hok : ∀ s a, Inv s → ok s a → ok' s a)
    (hkeep : ∀ s a s', Inv s → ok s a → step s a = .ok s' → Inv s') :
    ∀ (l : List α) (s : σ), Inv s → Meets step ok s l → Meets step ok' s l
  | [], _, _, _ => trivial
  | a :: l, s, hs, h =>
      ⟨hok s a hs h.1, fun s' hs' =>
        Meets.of_invariant hok hkeep l s' (hkeep s a s' hs h.1 hs') (h.2 s' hs')⟩

/-- Two conditions that a run meets, it meets together. -/
theorem Meets.and {ok' : σ → α → Prop} :
    ∀ {l : List α} {s : σ}, Meets step ok s l → Meets step ok' s l →
      Meets step (fun s a => ok s a ∧ ok' s a) s l
  | [], _, _, _ => trivial
  | _ :: _, _, h, h' => ⟨⟨h.1, h'.1⟩, fun s' hs' => (h.2 s' hs').and (h'.2 s' hs')⟩

end Machine
