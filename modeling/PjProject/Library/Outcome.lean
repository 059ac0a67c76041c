import Mathlib.Tactic

set_option autoImplicit false

/-! # Postconditions of a fallible computation

A computation `x : Except ε α` returns a value or stops with an outcome of `ε`. `Holds Q E x` says
that the value satisfies `Q` and that the other outcomes satisfy `E`. The rules follow the
constructs a function body is written with: a call (`Holds.bind`), a branch (`Holds.ite`) and a
return (`Holds.pure`).
-/

namespace Outcome

universe u v w

variable {ε : Type u} {α : Type v} {β : Type v} {Q Q' : α → Prop} {E : ε → Prop}

/-- The value of `x` satisfies `Q`; another outcome satisfies `E`. -/
def Holds (Q : α → Prop) (E : ε → Prop) : Except ε α → Prop
  | .ok a => Q a
  | .error e => E e

theorem Holds.pure {a : α} (h : Q a) : Holds Q E (Pure.pure a : Except ε α) := h

theorem Holds.ok {a : α} (h : Q a) : Holds Q E (.ok a : Except ε α) := h

theorem Holds.error {e : ε} (h : E e) : Holds Q E (.error e : Except ε α) := h

/-- A call that returns is followed by the rest of the body. -/
theorem ok_bind (a : α) (f : α → Except ε β) : ((.ok a : Except ε α) >>= f) = f a := rfl

/-- A call that returns is made of calls that return. -/
theorem bind_eq_ok {x : Except ε α} {f : α → Except ε β} {b : β} (h : x >>= f = .ok b) :
    ∃ a, x = .ok a ∧ f a = .ok b := by
  cases x with
  | error e => cases h
  | ok a => exact ⟨a, rfl, h⟩

/-- The outcome is that of the first call, or of the second. -/
theorem bind_eq_error_iff {x : Except ε α} {f : α → Except ε β} {e : ε} :
    x >>= f = .error e ↔ x = .error e ∨ ∃ a, x = .ok a ∧ f a = .error e := by
  cases x <;> simp [bind, Except.bind]

/-- The rule of a call: what it leaves is what the rest of the body starts from. -/
theorem Holds.bind {x : Except ε α} {f : α → Except ε β} {R : β → Prop}
    (hx : Holds Q E x) (hf : ∀ a, Q a → Holds R E (f a)) : Holds R E (x >>= f) := by
  cases x with
  | ok a => exact hf a hx
  | error e => exact hx

theorem Holds.ite {c : Prop} [Decidable c] {x y : Except ε α} (hx : c → Holds Q E x)
    (hy : ¬ c → Holds Q E y) : Holds Q E (if c then x else y) := by
  by_cases hc : c
  · rw [if_pos hc]
    exact hx hc
  · rw [if_neg hc]
    exact hy hc

theorem Holds.mono {x : Except ε α} (h : Holds Q E x) (hQ : ∀ a, Q a → Q' a) :
    Holds Q' E x := by
  cases x with
  | ok a => exact hQ a h
  | error e => exact h

theorem Holds.imp_error {x : Except ε α} {E' : ε → Prop} (h : Holds Q E x)
    (hE : ∀ e, E e → E' e) : Holds Q E' x := by
  cases x with
  | ok a => exact h
  | error e => exact hE e h

theorem Holds.and {x : Except ε α} {E' : ε → Prop} (h : Holds Q E x) (h' : Holds Q' E' x) :
    Holds (fun a => Q a ∧ Q' a) E x := by
  cases x with
  | ok a => exact ⟨h, h'⟩
  | error e => exact h

/-- A computation that returns satisfies what its value does. -/
theorem Holds.of_eq {x : Except ε α} {a : α} (hx : x = .ok a) (h : Q a) : Holds Q E x := by
  rw [hx]
  exact h

end Outcome
