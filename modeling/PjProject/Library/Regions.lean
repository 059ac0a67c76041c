import Mathlib.Tactic

set_option autoImplicit false

/-! # Regions of memory

A region is a start address and a length. Two regions are apart if one ends before the other begins,
so an empty region may lie at a border of another one. Regions that are pairwise apart and lie below
`N` have at most `N` bytes together (`total_le`).
-/

/-- A region of memory. -/
structure Region where
  start : Nat
  len : Nat
  deriving DecidableEq

namespace Region

/-- The address behind the last byte. -/
def stop (r : Region) : Nat := r.start + r.len

/-- One ends before the other begins. -/
def Apart (r s : Region) : Prop := r.stop ≤ s.start ∨ s.stop ≤ r.start

/-- Every byte of `r` is one of `s`. -/
def Inside (r s : Region) : Prop := s.start ≤ r.start ∧ r.stop ≤ s.stop

instance (r s : Region) : Decidable (r.Apart s) := inferInstanceAs (Decidable (_ ∨ _))

instance (r s : Region) : Decidable (r.Inside s) := inferInstanceAs (Decidable (_ ∧ _))

variable {r s r' : Region}

theorem Apart.symm (h : r.Apart s) : s.Apart r := Or.symm h

/-- A part of a region is apart from what the region is apart from. -/
theorem Apart.mono (h : r.Apart s) (hin : r'.Inside r) : r'.Apart s := by
  unfold Apart Inside at *
  omega

/-- The bytes of all regions. -/
def total (l : List Region) : Nat := (l.map Region.len).sum

@[simp] theorem total_nil : total [] = 0 := rfl

@[simp] theorem total_cons (r : Region) (l : List Region) : total (r :: l) = r.len + total l := by
  simp [total]

@[simp] theorem total_append (l l' : List Region) : total (l ++ l') = total l + total l' := by
  simp [total]

theorem total_perm {l l' : List Region} (h : l.Perm l') : total l = total l' := (h.map len).sum_eq

/-- The addresses of the regions. -/
def addresses (l : List Region) : Finset Nat :=
  l.foldr (fun r t => Finset.Ico r.start r.stop ∪ t) ∅

theorem mem_addresses {l : List Region} {a : Nat} :
    a ∈ addresses l ↔ ∃ r ∈ l, r.start ≤ a ∧ a < r.stop := by
  unfold addresses
  induction l with
  | nil => simp
  | cons r l ih => simp [ih]

/-- Regions that are pairwise apart have as many addresses as bytes. -/
theorem card_addresses {l : List Region} (h : l.Pairwise Apart) : (addresses l).card = total l := by
  induction l with
  | nil => simp [addresses]
  | cons r l ih =>
      rcases List.pairwise_cons.mp h with ⟨hr, hl⟩
      have hdisj : Disjoint (Finset.Ico r.start r.stop) (addresses l) := by
        rw [Finset.disjoint_left]
        intro a ha hmem
        rcases mem_addresses.mp hmem with ⟨s, hs, hlow, hhigh⟩
        have hin := Finset.mem_Ico.mp ha
        have hapart := hr s hs
        unfold Apart at hapart
        omega
      show (Finset.Ico r.start r.stop ∪ addresses l).card = _
      rw [Finset.card_union_of_disjoint hdisj, ih hl, Nat.card_Ico, total_cons]
      simp [stop]

/-- **Regions that are pairwise apart fit the memory that they lie in.** -/
theorem total_le {l : List Region} {N : Nat} (h : l.Pairwise Apart) (hN : ∀ r ∈ l, r.stop ≤ N) :
    total l ≤ N := by
  rw [← card_addresses h]
  have hsub : addresses l ⊆ Finset.range N := by
    intro a ha
    rcases mem_addresses.mp ha with ⟨r, hr, -, hlt⟩
    exact Finset.mem_range.mpr (Nat.lt_of_lt_of_le hlt (hN r hr))
  calc (addresses l).card ≤ (Finset.range N).card := Finset.card_le_card hsub
    _ = N := Finset.card_range N

end Region

/-! ## Regions that lie one behind the other

`Tiles a l b` says that the regions of `l` fill the addresses from `a` to `b`, in their order and without a
gap. They can be taken away and added at both ends; they are pairwise apart, and between `a` and `b`.
-/

namespace Region

/-- The regions lie one behind the other, from `a` to `b`. -/
def Tiles : Nat → List Region → Nat → Prop
  | a, [], b => a = b
  | a, r :: l, b => r.start = a ∧ Tiles r.stop l b

variable {a b : Nat} {r : Region} {l l' : List Region}

@[simp] theorem tiles_nil : Tiles a [] b ↔ a = b := Iff.rfl

@[simp] theorem tiles_cons : Tiles a (r :: l) b ↔ r.start = a ∧ Tiles r.stop l b := Iff.rfl

theorem tiles_append : Tiles a (l ++ l') b ↔ ∃ m, Tiles a l m ∧ Tiles m l' b := by
  induction l generalizing a with
  | nil => simp
  | cons r l ih => simp [ih, and_assoc]

/-- The last region ends at `b`. -/
theorem tiles_concat : Tiles a (l ++ [r]) b ↔ Tiles a l r.start ∧ r.stop = b := by
  simp [tiles_append]

theorem Tiles.le (h : Tiles a l b) : a ≤ b := by
  induction l generalizing a with
  | nil => exact le_of_eq h
  | cons r l ih =>
      have hrest := ih h.2
      have hstart := h.1
      unfold stop at hrest
      omega

/-- Each region is between `a` and `b`. -/
theorem Tiles.mem (h : Tiles a l b) (hr : r ∈ l) : a ≤ r.start ∧ r.stop ≤ b := by
  induction l generalizing a with
  | nil => cases hr
  | cons s l ih =>
      rcases List.mem_cons.mp hr with rfl | hr
      · exact ⟨le_of_eq h.1.symm, h.2.le⟩
      · have hrest := ih h.2 hr
        have hstart := h.1
        unfold stop at hrest ⊢
        omega

theorem Tiles.pairwise (h : Tiles a l b) : l.Pairwise Apart := by
  induction l generalizing a with
  | nil => exact .nil
  | cons r l ih => exact .cons (fun s hs => .inl (h.2.mem hs).1) (ih h.2)

/-- Regions of some length reach beyond `a`. -/
theorem Tiles.add_le {n : Nat} (h : Tiles a l b) (hlen : ∀ r ∈ l, n ≤ r.len) (hne : l ≠ []) :
    a + n ≤ b := by
  cases l with
  | nil => exact absurd rfl hne
  | cons r l =>
      have hfirst := hlen r List.mem_cons_self
      have hrest := h.2.le
      have hstart := h.1
      unfold stop at hrest
      omega

end Region
