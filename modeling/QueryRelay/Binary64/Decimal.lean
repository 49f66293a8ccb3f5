import QueryRelay.Binary64.Basic

/-!
# Reading a decimal number as a floating-point number

A decimal literal arrives as a significand below `2 ^ 64` and a power of ten.  `Binary64.ofDecimal?` rounds the
significand, and then multiplies or divides it by the rounded power of ten, in steps of `10 ^ 308` below the smallest
powers.  A literal too large for the format has no value.
-/

namespace QueryRelay

namespace Binary64

/-- Divides by `10 ^ n`, in steps of at most `10 ^ 308`; a quotient that has reached zero stays there. -/
def divTenPow (x : Binary64) (n : Nat) : Binary64 :=
  if n ≤ 308 then x / tenPow n
  else if same x zero then x
  else divTenPow (x / tenPow 308) (n - 308)
termination_by n

/-- The value of `± significand * 10 ^ exponent`, or nothing if it is too large to be finite. -/
def ofDecimal? (negative : Bool) (significand : Nat) (exponent : Int) : Option Binary64 :=
  let x := ofNat significand
  let magnitude :=
    if exponent < 0 then some (divTenPow x exponent.natAbs)
    else if exponent ≤ 308 then
      match x * tenPow exponent.toNat with
      | infinite _ => none
      | product => some product
    else if significand = 0 then some x
    else none
  magnitude.map fun m => if negative then -m else m

end Binary64

end QueryRelay
