import Mathlib.Tactic

set_option autoImplicit false

/-! # Fixed-width machine integers

C's `int` and `unsigned` are 32 bits wide, its `long` 64. A value is kept as an `Int` or a `Nat`
and every computation is followed by a conversion: `int32` maps an integer into `[-2^31, 2^31)`
and `uint32` into `[0, 2^32)`, both modulo `2^32`, and `int64` is `int32` for `long`. Inside their
ranges the conversions do nothing (`int32_of_range`, `uint32_of_range`, `int64_of_range`), which is
how a proof gets rid of them. They are irreducible, so that no definitional unfolding counts up to
`2^32`.
-/

namespace MachineInt

/-- Conversion to `int`: the representative of `x` modulo `2^32` in `[-2^31, 2^31)`. -/
@[irreducible] def int32 (x : Int) : Int := (x + 2147483648) % 4294967296 - 2147483648

/-- Conversion to `unsigned`: the representative of `x` modulo `2^32` in `[0, 2^32)`. -/
@[irreducible] def uint32 (x : Int) : Nat := (x % 4294967296).toNat

/-- Conversion to `long`: the representative of `x` modulo `2^64` in `[-2^63, 2^63)`. -/
@[irreducible] def int64 (x : Int) : Int :=
  (x + 9223372036854775808) % 18446744073709551616 - 9223372036854775808

theorem int32_of_range {x : Int} (h1 : -2147483648 ≤ x) (h2 : x ≤ 2147483647) : int32 x = x := by
  unfold int32
  omega

/-- From `2^31` on, up to one turn later. -/
theorem int32_of_upper {x : Int} (h1 : 2147483648 ≤ x) (h2 : x < 6442450944) :
    int32 x = x - 4294967296 := by
  unfold int32
  omega

theorem uint32_of_range {x : Int} (h1 : 0 ≤ x) (h2 : x < 4294967296) : (uint32 x : Int) = x := by
  unfold uint32
  omega

theorem uint32_natCast {n : Nat} (h : n < 4294967296) : uint32 (n : Int) = n := by
  unfold uint32
  omega

theorem int64_of_range {x : Int} (h1 : -9223372036854775808 ≤ x) (h2 : x ≤ 9223372036854775807) :
    int64 x = x := by
  unfold int64
  omega

theorem int64_range (x : Int) :
    -9223372036854775808 ≤ int64 x ∧ int64 x ≤ 9223372036854775807 := by
  unfold int64
  omega

end MachineInt
