import Mathlib.Tactic

set_option autoImplicit false

/-! # Cutting out samples

A stretch of a sequence is cut out, and the seam is smoothed: the samples behind the cut are mixed with
those in front of which they come to stand (`crossfade`). `Cut mix h d s r` says that `r` is `s` with `d`
samples cut out at some place, mixed over `h` samples.

A cut inside a part of a sequence is a cut of the sequence (`Cut.append`). Where mixing takes the samples
behind the cut, a cut only removes samples (`Cut.getElem?_of_right`).
-/

namespace Crossfade

variable {α : Type*}

/-- Mix two sequences sample by sample. -/
def crossfade (mix : Nat → α → α → α) (l r : List α) : List α :=
  (l.zip r).mapIdx fun i x => mix i x.1 x.2

/-- `d` samples of `s` are cut out, and the seam is mixed over `h` samples. -/
def Cut (mix : Nat → α → α → α) (h d : Nat) (s r : List α) : Prop :=
  ∃ p u v t, s = p ++ u ++ v ++ t ∧ u.length = d ∧ v.length = h ∧
    r = p ++ crossfade mix ((u ++ v).take h) v ++ t

variable {mix : Nat → α → α → α} {h d : Nat} {s r l l' : List α}

theorem crossfade_length : (crossfade mix l l').length = min l.length l'.length := by
  simp [crossfade]

theorem crossfade_getElem? {i : Nat} {x y : α} (hx : l[i]? = some x) (hy : l'[i]? = some y) :
    (crossfade mix l l')[i]? = some (mix i x y) := by
  unfold crossfade
  rw [List.getElem?_mapIdx, List.zip, List.getElem?_zipWith, hx, hy]
  rfl

/-- Mixing that takes the second sequence. -/
theorem crossfade_right (hlen : l'.length ≤ l.length) : crossfade (fun _ _ y => y) l l' = l' := by
  refine List.ext_getElem? fun i => ?_
  by_cases hi : i < l'.length
  · rw [crossfade_getElem? (List.getElem?_eq_getElem (show i < l.length by omega))
      (List.getElem?_eq_getElem hi), List.getElem?_eq_getElem hi]
  · rw [List.getElem?_eq_none (by rw [crossfade_length]; omega), List.getElem?_eq_none (by omega)]

theorem Cut.length (hc : Cut mix h d s r) : r.length + d = s.length := by
  rcases hc with ⟨p, u, v, t, rfl, hu, hv, rfl⟩
  simp only [List.length_append, crossfade_length, List.length_take]
  omega

/-- A cut inside a part. -/
theorem Cut.append (hc : Cut mix h d s r) (a b : List α) : Cut mix h d (a ++ s ++ b) (a ++ r ++ b) := by
  rcases hc with ⟨p, u, v, t, rfl, hu, hv, rfl⟩
  exact ⟨a ++ p, u, v, t ++ b, by simp, hu, hv, by simp⟩

/-- Where mixing takes the samples behind the cut, the others are only moved. -/
theorem Cut.getElem?_of_right (hc : Cut (fun _ _ y => y) h d s r) :
    ∃ a, ∀ j, r[j]? = if j < a then s[j]? else s[j + d]? := by
  rcases hc with ⟨p, u, v, t, rfl, hu, hv, rfl⟩
  refine ⟨p.length, fun j => ?_⟩
  rw [crossfade_right (by rw [List.length_take, List.length_append]; omega)]
  by_cases hj : j < p.length
  · rw [if_pos hj]
    simp [List.getElem?_append_left hj]
  · have hleft : (p ++ v ++ t)[j]? = (v ++ t)[j - p.length]? := by
      rw [List.append_assoc, List.getElem?_append_right (by omega)]
    have hright : (p ++ u ++ v ++ t)[j + d]? = (v ++ t)[j - p.length]? := by
      rw [List.append_assoc (p ++ u), List.getElem?_append_right (by simp; omega), List.length_append]
      congr 1
      omega
    rw [if_neg hj, hleft, hright]

end Crossfade
