import Mathlib.Tactic

set_option autoImplicit false

/-! # Serial numbers

A sliding window of `w` numbered frames transmits its numbers modulo `2 * w`. Two counters that
are less than `w` behind and at most `w` ahead of each other can be compared through their
residues: `ahead_iff` decides whether `k` is one of the next `w` numbers after `c`, `behind_iff`
whether it is one of the `w` numbers up to `c`.
-/

namespace SerialNumber

variable {w k c : Nat}

/-- Two numbers with the same residue that are closer than the modulus are equal. -/
theorem eq_of_mod_eq {m x y : Nat} (h : x % m = y % m) (hxy : x ≤ y) (hlt : y < x + m) : x = y := by
  have hd : m ∣ y - x := (Nat.modEq_iff_dvd' hxy).mp h
  rcases Nat.eq_zero_or_pos (y - x) with h0 | hpos
  · omega
  · have hle := Nat.le_of_dvd hpos hd
    omega

/-- `k` has the residue of one of the `w` numbers after `c` just if it is after `c`. -/
theorem ahead_iff (h1 : k ≤ c + w) (h2 : c < k + w) :
    (∃ i < w, k % (2 * w) = (c + i + 1) % (2 * w)) ↔ c < k := by
  constructor
  · rintro ⟨i, hi, hmod⟩
    by_contra hle
    -- Otherwise `k` and `c + i + 1` are different and closer than the modulus.
    have heq := eq_of_mod_eq hmod (by omega) (by omega)
    omega
  · intro hlt
    refine ⟨k - c - 1, by omega, ?_⟩
    rw [show c + (k - c - 1) + 1 = k by omega]

/-- `k` has the residue of one of the `w` numbers up to `c` just if it is not after `c`. -/
theorem behind_iff (h1 : k ≤ c + w) (h2 : c < k + w) :
    (∃ i < w, (k + i) % (2 * w) = c % (2 * w)) ↔ k ≤ c := by
  constructor
  · rintro ⟨i, hi, hmod⟩
    by_contra hlt
    have heq := eq_of_mod_eq hmod.symm (by omega) (by omega)
    omega
  · intro hle
    refine ⟨c - k, by omega, ?_⟩
    rw [show k + (c - k) = c by omega]

end SerialNumber
