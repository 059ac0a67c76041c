import Mathlib.Order.Lattice
import Mathlib.Tactic

set_option autoImplicit false

/-! # Heap order with one node out of place

An array heap is a map `h : Nat → α` of which the first `n` cells count; `key` gives the value the
heap is ordered by. The two repair loops of a binary heap carry one node that is out of place in
the cell `slot`: `UpOrder` says that it may be too small there, `DownOrder` that it may be too
large. Exchanging it with its parent, or with its smaller child, moves the fault one level
(`UpOrder.move`, `DownOrder.move`), and where the loop stops the whole heap is in order
(`UpOrder.finish`, `DownOrder.finish`).

The array of the source has a hole at `slot` while a loop runs. The map here is the array with
the carried node written into the hole, so a step of the loop is an exchange of two cells.
-/

namespace HeapOrder

universe u v

variable {α : Type u} {β : Type v} [LinearOrder β] {key : α → β} {h : Nat → α} {n slot : Nat}

/-- The cell above `i`; the root is its own parent. -/
def parent (i : Nat) : Nat := if i = 0 then 0 else (i - 1) / 2

theorem parent_lt {i : Nat} (hi : 0 < i) : parent i < i := by
  unfold parent
  rw [if_neg (by omega)]
  omega

@[simp] theorem parent_zero : parent 0 = 0 := rfl

/-- The children of a cell are the two cells from `2 i + 1` on. -/
theorem parent_eq_iff {i p : Nat} (hi : 0 < i) : parent i = p ↔ i = 2 * p + 1 ∨ i = 2 * p + 2 := by
  unfold parent
  rw [if_neg (by omega)]
  omega

/-- Exchange two cells. -/
def exchange (h : Nat → α) (i j : Nat) : Nat → α :=
  Function.update (Function.update h i (h j)) j (h i)

theorem exchange_left {i j : Nat} (hij : i ≠ j) : exchange h i j i = h j := by
  simp [exchange, hij]

@[simp] theorem exchange_right {i j : Nat} : exchange h i j j = h i := by
  simp [exchange]

theorem exchange_other {i j k : Nat} (hi : k ≠ i) (hj : k ≠ j) : exchange h i j k = h k := by
  simp [exchange, hi, hj]

/-- The first `n` cells hold the same nodes before and after an exchange of two of them. -/
theorem exchange_mem {i j : Nat} (hi : i < n) (hj : j < n) (x : α) :
    (∃ k, k < n ∧ exchange h i j k = x) ↔ ∃ k, k < n ∧ h k = x := by
  by_cases hij : i = j
  · subst hij
    have : exchange h i i = h := by funext k; by_cases hk : k = i <;> simp [exchange, hk]
    rw [this]
  · constructor
    · rintro ⟨k, hk, hx⟩
      by_cases hkj : k = j
      · exact ⟨i, hi, by rw [← hx, hkj, exchange_right]⟩
      · by_cases hki : k = i
        · exact ⟨j, hj, by rw [← hx, hki, exchange_left hij]⟩
        · exact ⟨k, hk, by rw [← hx, exchange_other hki hkj]⟩
    · rintro ⟨k, hk, hx⟩
      by_cases hkj : k = j
      · exact ⟨i, hi, by rw [exchange_left hij, ← hkj, hx]⟩
      · by_cases hki : k = i
        · exact ⟨j, hj, by rw [exchange_right, ← hki, hx]⟩
        · exact ⟨k, hk, by rw [exchange_other hki hkj, hx]⟩

/-! ## The orders -/

/-- No node is smaller than the one above it. -/
def Ordered (key : α → β) (h : Nat → α) (n : Nat) : Prop :=
  ∀ i, 0 < i → i < n → key (h (parent i)) ≤ key (h i)

/-- All is in order but that the node in `slot` may be smaller than the one above it. -/
structure UpOrder (key : α → β) (h : Nat → α) (n slot : Nat) : Prop where
  except : ∀ i, 0 < i → i < n → i ≠ slot → key (h (parent i)) ≤ key (h i)
  grand : 0 < slot → ∀ i, 0 < i → i < n → parent i = slot → key (h (parent slot)) ≤ key (h i)

/-- All is in order but that the node in `slot` may be larger than those below it. -/
structure DownOrder (key : α → β) (h : Nat → α) (n slot : Nat) : Prop where
  except : ∀ i, 0 < i → i < n → parent i ≠ slot → key (h (parent i)) ≤ key (h i)
  grand : 0 < slot → ∀ i, 0 < i → i < n → parent i = slot → key (h (parent slot)) ≤ key (h i)

/-- The root holds a smallest node. -/
theorem Ordered.root_le (ho : Ordered key h n) : ∀ i, i < n → key (h 0) ≤ key (h i) := by
  intro i
  induction i using Nat.strongRecOn with
  | ind i ih =>
      intro hi
      by_cases hi0 : i = 0
      · rw [hi0]
      · have hp := parent_lt (i := i) (by omega)
        exact (ih (parent i) hp (by omega)).trans (ho i (by omega) hi)

theorem Ordered.mono {m : Nat} (ho : Ordered key h n) (hm : m ≤ n) : Ordered key h m :=
  fun i hi0 hi => ho i hi0 (by omega)

/-- Only the keys of the first `n` cells matter. -/
theorem Ordered.congr {key' : α → β} {h' : Nat → α} (ho : Ordered key h n)
    (hk : ∀ i, i < n → key' (h' i) = key (h i)) : Ordered key' h' n := by
  intro i hi0 hi
  rw [hk i hi, hk (parent i) (by have := parent_lt hi0; omega)]
  exact ho i hi0 hi

/-! ## Upwards -/

theorem UpOrder.move (ho : UpOrder key h n slot) (h0 : 0 < slot) (hs : slot < n)
    (hlt : key (h slot) < key (h (parent slot))) :
    UpOrder key (exchange h slot (parent slot)) n (parent slot) := by
  have hp := parent_lt h0
  constructor
  · intro i hi0 hi hip
    by_cases his : i = slot
    · rw [his, exchange_right, exchange_left (by omega)]
      exact hlt.le
    · rw [exchange_other his hip]
      by_cases hps : parent i = slot
      · rw [hps, exchange_left (by omega)]
        exact ho.grand h0 i hi0 hi hps
      · by_cases hpp : parent i = parent slot
        · rw [hpp, exchange_right]
          exact hlt.le.trans (hpp ▸ ho.except i hi0 hi his)
        · rw [exchange_other hps hpp]
          exact ho.except i hi0 hi his
  · intro hp0 i hi0 hi hip
    have hpp := parent_lt hp0
    have hup := ho.except (parent slot) hp0 (by omega) (by omega)
    rw [exchange_other (show parent (parent slot) ≠ slot by omega) (by omega)]
    by_cases his : i = slot
    · rw [his, exchange_left (by omega)]
      exact hup
    · rw [exchange_other his (by have := parent_lt hi0; omega)]
      exact hup.trans (hip ▸ ho.except i hi0 hi his)

theorem UpOrder.finish (ho : UpOrder key h n slot)
    (hstop : 0 < slot → key (h (parent slot)) ≤ key (h slot)) : Ordered key h n := by
  intro i hi0 hi
  by_cases his : i = slot
  · rw [his]
    exact hstop (by omega)
  · exact ho.except i hi0 hi his

/-- A node written behind the last one is out of place only towards its parent. -/
theorem Ordered.push (ho : Ordered key h n) (x : α) :
    UpOrder key (Function.update h n x) (n + 1) n := by
  constructor
  · intro i hi0 hi hin
    have hp := parent_lt hi0
    rw [Function.update_of_ne hin, Function.update_of_ne (by omega)]
    exact ho i hi0 (by omega)
  · intro h0 i hi0 hi hip
    have hp := parent_lt hi0
    omega

/-! ## Downwards -/

theorem DownOrder.move {c : Nat} (ho : DownOrder key h n slot) (hc0 : 0 < c) (hc : c < n)
    (hcs : parent c = slot) (hlt : key (h c) < key (h slot))
    (hmin : ∀ i, 0 < i → i < n → parent i = slot → key (h c) ≤ key (h i)) :
    DownOrder key (exchange h slot c) n c := by
  have hsc : slot < c := hcs ▸ parent_lt hc0
  constructor
  · intro i hi0 hi hip
    by_cases hic : i = c
    · rw [hic, hcs, exchange_right, exchange_left (by omega)]
      exact hlt.le
    · by_cases his : i = slot
      · have hps := parent_lt (i := slot) (by omega)
        rw [his, exchange_left (by omega), exchange_other (by omega) (by omega)]
        exact ho.grand (by omega) c hc0 hc hcs
      · rw [exchange_other his hic]
        by_cases hps : parent i = slot
        · rw [hps, exchange_left (by omega)]
          exact hmin i hi0 hi hps
        · rw [exchange_other hps hip]
          exact ho.except i hi0 hi hps
  · intro _ i hi0 hi hip
    have hci := parent_lt hi0
    rw [hcs, exchange_left (by omega), exchange_other (by omega) (by omega)]
    exact hip ▸ ho.except i hi0 hi (by omega)

theorem DownOrder.finish (ho : DownOrder key h n slot)
    (hstop : ∀ i, 0 < i → i < n → parent i = slot → key (h slot) ≤ key (h i)) :
    Ordered key h n := by
  intro i hi0 hi
  by_cases hps : parent i = slot
  · rw [hps]
    exact hstop i hi0 hi hps
  · exact ho.except i hi0 hi hps

/-! ## Replacing a node -/

/-- A node put in place of another is out of place downwards when it is not smaller than the node
above it. -/
theorem Ordered.replace_down (ho : Ordered key h n) (x : α)
    (hx : 0 < slot → key (h (parent slot)) ≤ key x) (hs : slot < n) :
    DownOrder key (Function.update h slot x) n slot := by
  constructor
  · intro i hi0 hi hps
    rw [Function.update_of_ne hps]
    by_cases his : i = slot
    · rw [his, Function.update_self]
      exact hx (by omega)
    · rw [Function.update_of_ne his]
      exact ho i hi0 hi
  · intro h0 i hi0 hi hip
    have hpi := parent_lt hi0
    rw [Function.update_of_ne (by have := parent_lt h0; omega), Function.update_of_ne (by omega)]
    exact (ho slot h0 hs).trans (hip ▸ ho i hi0 hi)

/-- A node put in place of another is out of place upwards when it is smaller than the node above
it. -/
theorem Ordered.replace_up (ho : Ordered key h n) (x : α) (h0 : 0 < slot) (hs : slot < n)
    (hx : key x < key (h (parent slot))) :
    UpOrder key (Function.update h slot x) n slot := by
  constructor
  · intro i hi0 hi his
    rw [Function.update_of_ne his]
    by_cases hps : parent i = slot
    · rw [hps, Function.update_self]
      exact hx.le.trans ((ho slot h0 hs).trans (hps ▸ ho i hi0 hi))
    · rw [Function.update_of_ne hps]
      exact ho i hi0 hi
  · intro _ i hi0 hi hip
    have hpi := parent_lt hi0
    rw [Function.update_of_ne (by have := parent_lt h0; omega), Function.update_of_ne (by omega)]
    exact (ho slot h0 hs).trans (hip ▸ ho i hi0 hi)

end HeapOrder
