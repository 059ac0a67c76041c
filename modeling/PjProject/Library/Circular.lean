import Mathlib.Tactic

set_option autoImplicit false

/-! # Windows of a circular array

An array of `m` cells used as a ring is a function `f : Nat → α`. `window f m h n` lists the `n`
cells from `h` on, wrapping around at `m`. The lemmas say what the operations on a ring buffer
do to the window: dropping at the front, writing one cell, writing beyond the end.
-/

namespace Circular

variable {α : Type*}

/-- The `n` cells of the ring from `h` on. -/
def window (f : Nat → α) (m h n : Nat) : List α :=
  (List.range n).map (fun i => f ((h + i) % m))

@[simp] theorem window_length (f : Nat → α) (m h n : Nat) : (window f m h n).length = n := by
  simp [window]

theorem window_getElem? (f : Nat → α) (m h n : Nat) {i : Nat} (hi : i < n) :
    (window f m h n)[i]? = some (f ((h + i) % m)) := by
  simp [window, List.getElem?_range hi]

/-- Two positions of the ring that are fewer than `m` apart are different cells. -/
theorem slot_inj {m h i j : Nat} (hi : i < m) (hj : j < m) (h' : (h + i) % m = (h + j) % m) :
    i = j := by
  have h1 : i ≡ j [MOD m] := Nat.ModEq.add_left_cancel' h h'
  exact Nat.ModEq.eq_of_lt_of_lt h1 hi hj

theorem window_congr {f g : Nat → α} {m h n : Nat}
    (hfg : ∀ i, i < n → f ((h + i) % m) = g ((h + i) % m)) : window f m h n = window g m h n := by
  apply List.map_congr_left
  intro i hi
  exact hfg i (List.mem_range.mp hi)

theorem window_append (f : Nat → α) (m h a b : Nat) :
    window f m h (a + b) = window f m h a ++ window f m ((h + a) % m) b := by
  unfold window
  rw [List.range_add, List.map_append, List.map_map]
  congr 1
  apply List.map_congr_left
  intro i _
  simp [Nat.mod_add_mod, Nat.add_assoc]

/-- A window that does not run over the end of the array is a stretch of it. -/
theorem window_of_le (f : Nat → α) {m h n : Nat} (hn : h + n ≤ m) :
    window f m h n = (List.range n).map (fun i => f (h + i)) := by
  apply List.map_congr_left
  intro i hi
  have hi' := List.mem_range.mp hi
  rw [Nat.mod_eq_of_lt (by omega)]

/-- A window that runs over the end is the rest of the array and then a stretch from its start. -/
theorem window_of_gt (f : Nat → α) {m h n : Nat} (hh : h ≤ m) (hm : m ≤ h + n) (hn : n ≤ m) :
    window f m h n =
      (List.range (m - h)).map (fun i => f (h + i))
        ++ (List.range (n - (m - h))).map (fun i => f i) := by
  have hsplit : n = (m - h) + (n - (m - h)) := by omega
  conv_lhs => rw [hsplit, window_append]
  rw [window_of_le f (show h + (m - h) ≤ m by omega)]
  have h0 : (h + (m - h)) % m = 0 := by
    rw [show h + (m - h) = m by omega, Nat.mod_self]
  rw [h0, window_of_le f (show 0 + (n - (m - h)) ≤ m by omega)]
  simp

theorem window_take (f : Nat → α) (m h : Nat) {k n : Nat} (hk : k ≤ n) :
    (window f m h n).take k = window f m h k := by
  have hsplit : n = k + (n - k) := by omega
  conv_lhs => rw [hsplit, window_append]
  exact List.take_left' (by simp)

theorem window_drop (f : Nat → α) (m h : Nat) {k n : Nat} (hk : k ≤ n) :
    (window f m h n).drop k = window f m ((h + k) % m) (n - k) := by
  have hsplit : n = k + (n - k) := by omega
  conv_lhs => rw [hsplit, window_append]
  exact List.drop_left' (by simp)

/-- Writing the cell at distance `j` writes entry `j` of the window. -/
theorem window_set {f g : Nat → α} {m h n j : Nat} {v : α} (hn : n ≤ m) (hj : j < m)
    (hg : ∀ p, g p = if p = (h + j) % m then v else f p) :
    window g m h n = (window f m h n).set j v := by
  apply List.ext_getElem?
  intro i
  by_cases hi : i < n
  · rw [window_getElem? g m h n hi, List.getElem?_set, hg]
    by_cases hij : i = j
    · subst hij
      simp [hi]
    · have hne : (h + i) % m ≠ (h + j) % m := fun he => hij (slot_inj (by omega) hj he)
      rw [if_neg hne, if_neg (fun he => hij he.symm), window_getElem? f m h n hi]
  · rw [List.getElem?_eq_none (by simp; omega), List.getElem?_eq_none (by simp; omega)]

end Circular

/-! ## Segments of an array

An array is a function `f : Nat → α`. `seg f a n` lists its `n` cells from `a` on, and `splice f g dst src n`
is `f` after the `n` cells of `g` from `src` on have been copied to the cells from `dst` on. All of them are
read before the first one is written, so that `splice f f` moves cells within an array.

The lemmas say what a segment of the new array is: the copied cells where it lies in the destination, and
the old ones where it lies apart from it. The window of a ring (`Circular.window`) is one segment, or two.
-/

namespace Segment

open Circular (window window_of_le window_of_gt)

variable {α : Type*}

/-- The `n` cells from `a` on. -/
def seg (f : Nat → α) (a n : Nat) : List α := (List.range n).map fun i => f (a + i)

/-- Copy the `n` cells of `g` from `src` on to the cells of `f` from `dst` on. -/
def splice (f g : Nat → α) (dst src n : Nat) : Nat → α :=
  fun p => if dst ≤ p ∧ p < dst + n then g (src + (p - dst)) else f p

variable {f g : Nat → α} {a b n m k dst src : Nat}

@[simp] theorem seg_length : (seg f a n).length = n := by
  simp [seg]

@[simp] theorem seg_zero : seg f a 0 = [] := rfl

theorem seg_getElem? (h : k < n) : (seg f a n)[k]? = some (f (a + k)) := by
  simp [seg, List.getElem?_range h]

theorem seg_congr (h : ∀ i < n, f (a + i) = g (b + i)) : seg f a n = seg g b n := by
  refine List.map_congr_left fun i hi => ?_
  exact h i (List.mem_range.mp hi)

/-! ## Parts of a segment -/

theorem seg_add : seg f a (m + n) = seg f a m ++ seg f (a + m) n := by
  unfold seg
  rw [List.range_add, List.map_append, List.map_map]
  congr 1
  refine List.map_congr_left fun i _ => ?_
  simp [Nat.add_assoc]

/-- A segment is its first `m` cells and the others. -/
theorem seg_split (h : m ≤ n) : seg f a n = seg f a m ++ seg f (a + m) (n - m) := by
  rw [← seg_add, Nat.add_sub_cancel' h]

theorem take_seg (h : k ≤ n) : (seg f a n).take k = seg f a k := by
  rw [seg_split h]
  exact List.take_left' seg_length

theorem drop_seg (h : k ≤ n) : (seg f a n).drop k = seg f (a + k) (n - k) := by
  rw [seg_split h]
  exact List.drop_left' seg_length

/-! ## Copying -/

/-- A cell that is apart from the destination. -/
theorem splice_apart (h : k < dst ∨ dst + n ≤ k) : splice f g dst src n k = f k := by
  unfold splice
  rw [if_neg (by omega)]

/-- A segment inside the destination. -/
theorem seg_splice_inside (h : k + m ≤ n) :
    seg (splice f g dst src n) (dst + k) m = seg g (src + k) m := by
  refine seg_congr fun i hi => ?_
  unfold splice
  rw [if_pos ⟨by omega, by omega⟩]
  congr 1
  omega

/-- The destination. -/
theorem seg_splice : seg (splice f g dst src n) dst n = seg g src n := by
  simpa using @seg_splice_inside α f g n n 0 dst src (by omega)

/-- A segment that is apart from the destination. -/
theorem seg_splice_apart (h : a + m ≤ dst ∨ dst + n ≤ a) :
    seg (splice f g dst src n) a m = seg f a m := by
  exact seg_congr fun i hi => splice_apart (by omega)

@[simp] theorem splice_zero : splice f g dst src 0 = f := by
  funext p
  unfold splice
  rw [if_neg (by omega)]

/-! ## Rings -/

/-- A window that ends at the end of the array at the latest. -/
theorem window_eq_seg (h : a + n ≤ m) : window f m a n = seg f a n := window_of_le f h

/-- A window that reaches the end of the array: what is up to there, and the rest at the beginning. -/
theorem window_eq_seg_append (ha : a ≤ m) (h : m ≤ a + n) (hn : n ≤ m) :
    window f m a n = seg f a (m - a) ++ seg f 0 (n - (m - a)) := by
  rw [window_of_gt f ha h hn]
  simp [seg]

end Segment
