import Mathlib.Data.List.Basic

set_option autoImplicit false

/-! # Detecting the end by a counter

Of `n` tasks each settles once. A counter is increased when a task settles, and whoever finds it at `n`
reports. It may have been started at more than zero; a task may be counted without a look at the counter
(`silent`), and one may report whatever the counter is, without being counted (`forced`).

`reportsLast_iff` says exactly when there is one report and it is made by the last task to settle.
-/

namespace Countdown

/-- How a task settles. -/
inductive Mark where
  /-- It is counted, and nobody looks. -/
  | silent
  /-- It is counted, and reports if the counter is at its target. -/
  | counted
  /-- It reports. -/
  | forced
  deriving DecidableEq

/-- The counter behind a mark. -/
def Mark.bump (h : Nat) : Mark → Nat
  | .forced => h
  | _ => h + 1

/-- Does the mark report, with the target `n` and the counter at `h`? -/
def fires (n h : Nat) : Mark → Bool
  | .silent => false
  | .counted => decide (h + 1 = n)
  | .forced => true

@[simp] theorem bump_silent (h : Nat) : Mark.bump h .silent = h + 1 := rfl

@[simp] theorem bump_counted (h : Nat) : Mark.bump h .counted = h + 1 := rfl

@[simp] theorem bump_forced (h : Nat) : Mark.bump h .forced = h := rfl

@[simp] theorem fires_silent (n h : Nat) : fires n h .silent = false := rfl

@[simp] theorem fires_counted (n h : Nat) : fires n h .counted = decide (h + 1 = n) := rfl

@[simp] theorem fires_forced (n h : Nat) : fires n h .forced = true := rfl

/-- There is one report, at the last mark. -/
def ReportsLast (n : Nat) : Nat → List Mark → Prop
  | _, [] => False
  | h, [m] => fires n h m = true
  | h, m :: m' :: ms => fires n h m = false ∧ ReportsLast n (m.bump h) (m' :: ms)

variable {n h : Nat} {m : Mark} {ms init : List Mark}

theorem reportsLast_cons (hne : ms ≠ []) :
    ReportsLast n h (m :: ms) ↔ fires n h m = false ∧ ReportsLast n (m.bump h) ms := by
  cases ms with
  | nil => exact absurd rfl hne
  | cons m' ms => exact Iff.rfl

/-- No mark before the last one reports: none of them is forced, and the one that brings the counter to
the target is silent. -/
theorem reportsLast_append : ReportsLast n h (init ++ [m]) ↔
    (∀ x ∈ init, x ≠ .forced) ∧ (∀ k, h + k + 1 = n → init[k]? ≠ some .counted) ∧
      fires n (h + init.length) m = true := by
  induction init generalizing h with
  | nil => simp [ReportsLast]
  | cons x init ih =>
      rw [List.cons_append, reportsLast_cons (by simp), ih]
      have hshift : ∀ y : Mark, (∀ k, h + k + 1 = n → (y :: init)[k]? ≠ some .counted) ↔
          (h + 1 = n → y ≠ .counted) ∧ ∀ k, h + 1 + k + 1 = n → init[k]? ≠ some .counted := by
        intro y
        constructor
        · intro hall
          constructor
          · intro hn hy
            exact hall 0 (by omega) (by simp [hy])
          · intro k hk
            have hk' := hall (k + 1) (by omega)
            simpa using hk'
        · rintro ⟨h0, hrest⟩ k hk
          cases k with
          | zero => simpa using h0 (by omega)
          | succ k => simpa using hrest k (by omega)
      rw [hshift]
      have hlen : h + 1 + init.length = h + (x :: init).length := by
        simp only [List.length_cons]
        omega
      cases x with
      | forced => simp
      | silent =>
          rw [bump_silent, hlen]
          simp
      | counted =>
          rw [bump_counted, hlen]
          simp only [fires_counted, decide_eq_false_iff_not, List.mem_cons, forall_eq_or_imp, ne_eq,
            reduceCtorEq, not_false_eq_true, true_and, not_true_eq_false, imp_false]
          constructor
          · rintro ⟨h1, h2, h3, h4⟩
            exact ⟨h2, ⟨h1, h3⟩, h4⟩
          · rintro ⟨h2, ⟨h1, h3⟩, h4⟩
            exact ⟨h1, h2, h3, h4⟩

/-- The marks after which one report has been made, at the right time: only the last one may be forced and
it is not silent; if the counter was started at more than zero, then the last one is forced and the mark
with which the counter reaches its target is silent. -/
def Orderly (n h : Nat) (ms : List Mark) : Prop :=
  ∃ init m, ms = init ++ [m] ∧ (∀ x ∈ init, x ≠ .forced) ∧ m ≠ .silent ∧
    (h = 0 ∨ (m = .forced ∧ init[n - h - 1]? = some .silent))

/-- **When the counter tells the end.** -/
theorem reportsLast_iff (hlen : ms.length = n) (hlt : h < n) :
    ReportsLast n h ms ↔ Orderly n h ms := by
  rcases List.eq_nil_or_concat ms with rfl | ⟨init, m, rfl⟩
  · simp at hlen
    omega
  have hinit : init.length + 1 = n := by simpa using hlen
  have hunique : Orderly n h (init ++ [m]) ↔ (∀ x ∈ init, x ≠ .forced) ∧ m ≠ .silent ∧
      (h = 0 ∨ (m = .forced ∧ init[n - h - 1]? = some .silent)) := by
    constructor
    · rintro ⟨init', m', heq, hrest⟩
      rcases List.append_inj' heq rfl with ⟨rfl, hm⟩
      cases hm
      exact hrest
    · intro hrest
      exact ⟨init, m, rfl, hrest⟩
  rw [List.concat_eq_append, hunique, reportsLast_append]
  constructor
  · rintro ⟨hforced, hcount, hlast⟩
    refine ⟨hforced, ?_, ?_⟩
    · rintro rfl
      simp at hlast
    · rcases Nat.eq_zero_or_pos h with h0 | hpos
      · exact .inl h0
      · right
        constructor
        · cases m with
          | forced => rfl
          | silent => simp at hlast
          | counted =>
              simp only [fires_counted, decide_eq_true_eq] at hlast
              omega
        · have hk : n - h - 1 < init.length := by omega
          have hne := hcount (n - h - 1) (by omega)
          have hnf := hforced init[n - h - 1] (List.getElem_mem hk)
          rw [List.getElem?_eq_getElem hk] at hne ⊢
          cases hx : init[n - h - 1] with
          | forced => exact absurd hx hnf
          | silent => rfl
          | counted => exact absurd (congrArg some hx) hne
  · rintro ⟨hforced, hlast, hcase⟩
    refine ⟨hforced, ?_, ?_⟩
    · intro k hk
      rcases hcase with rfl | ⟨-, hsilent⟩
      · rw [List.getElem?_eq_none (by omega)]
        simp
      · rw [show k = n - h - 1 by omega, hsilent]
        simp
    · cases m with
      | forced => rfl
      | silent => exact absurd rfl hlast
      | counted =>
          rcases hcase with rfl | ⟨hm, -⟩
          · simp only [fires_counted, decide_eq_true_eq]
            omega
          · cases hm

end Countdown
