import Mathlib.Algebra.Group.Int
import Mathlib.Algebra.Group.Nat.Basic

/-!
# C `int`s

Every `int` of the sources (`line`, `column`, the token's location, `ref_count`, the
entries of a buffer pool's free list) holds its value through `int32`.
-/

namespace MantisDB

/-- The value an `int` holds: two's complement on 32 bits.  Signed overflow is
undefined in C; this is the wrap the usual targets perform. -/
def int32 (x : ℤ) : ℤ := x.bmod (2 ^ 32)

/-- `int32` does nothing to a value that fits. -/
theorem int32_of_lt {x : ℤ} (h₁ : -2 ^ 31 ≤ x) (h₂ : x < 2 ^ 31) : int32 x = x := by
  rw [int32, Int.bmod_def]
  split <;> omega

@[simp] theorem int32_add_int32 (x y : ℤ) : int32 (int32 x + y) = int32 (x + y) :=
  Int.bmod_add_bmod_congr

end MantisDB
