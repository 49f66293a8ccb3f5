import Mathlib.Data.Rat.Defs
import Mathlib.Algebra.Order.Field.Rat
import QueryRelay.Binary64.Basic

/-!
# The rational value of a floating-point number

`Binary64.toRat` reads a finite number as the rational that it is, so that sums of numbers can be
stated without rounding.
-/

namespace QueryRelay

namespace Binary64

/-- The rational that a finite number is; the other numbers count as zero. -/
def toRat : Binary64 → ℚ
  | finite negative units => signedUnits negative units / oneUnits
  | _ => 0

theorem oneUnits_pos : 0 < oneUnits := by
  unfold oneUnits
  generalize unitPlaces = places
  exact Nat.two_pow_pos places

@[simp] theorem toRat_one : toRat one = 1 := by
  have hne : (oneUnits : ℚ) ≠ 0 := Nat.cast_ne_zero.2 oneUnits_pos.ne'
  simp [toRat, one, signedUnits, div_self hne]

end Binary64

end QueryRelay
