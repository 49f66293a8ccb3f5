/-!
# Binary floating-point numbers of 64 bits

A finite number is held as a sign and a count of *units*, where one unit is the least positive number
`2 ^ -1074`.  Every finite number of the format is a whole number of units, so sums, products and comparisons are
exact natural-number arithmetic followed by one rounding, `Binary64.round`, to the nearest number of the format
(of two equally near ones, the one with the even last digit).

The module holds the type, the rounding, the arithmetic that the library needs, and the 64-bit pattern of a number.
-/

namespace QueryRelay

/-- A binary floating-point number: finite ones are `± units * 2 ^ -1074`. -/
inductive Binary64 where
  | nan
  | infinite (negative : Bool)
  | finite (negative : Bool) (units : Nat)
deriving Repr, DecidableEq, Inhabited

namespace Binary64

/-- How many binary places below one the unit lies. -/
def unitPlaces : Nat := 1074

/-- One, counted in units. -/
@[irreducible] def oneUnits : Nat := Nat.pow 2 unitPlaces

/-- The first magnitude, in units, that is too large for a finite number. -/
@[irreducible] def overflowUnits : Nat := Nat.pow 2 (1024 + unitPlaces)

/-- The distance between neighbours around a magnitude of `units`: numbers carry 53 binary digits, and never fewer
than one unit lies between two of them. -/
def spacing (units : Nat) : Nat := Nat.pow 2 (units.log2 - 52)

/-- Whether a magnitude of `units` is one of the format's. -/
def Representable (units : Nat) : Prop := units < overflowUnits ∧ spacing units ∣ units

instance (units : Nat) : Decidable (Representable units) :=
  inferInstanceAs (Decidable (units < overflowUnits ∧ spacing units ∣ units))

/-- The whole number nearest to `numerator / denominator`; a half goes to the even neighbour. -/
def roundQuotient (numerator denominator : Nat) : Nat :=
  let whole := numerator / denominator
  let rest := 2 * (numerator % denominator)
  if denominator < rest ∨ (rest = denominator ∧ whole % 2 = 1) then whole + 1 else whole

/-- The magnitude nearest to `numerator / denominator` units, before the check for overflow. -/
def roundUnits (numerator denominator : Nat) : Nat :=
  let step := spacing (numerator / denominator)
  roundQuotient numerator (denominator * step) * step

/-- The number nearest to `± numerator / denominator` units. -/
def round (negative : Bool) (numerator denominator : Nat) : Binary64 :=
  let units := roundUnits numerator denominator
  if units < overflowUnits then finite negative units else infinite negative

def zero : Binary64 := finite false 0

def one : Binary64 := finite false oneUnits

/-- The number nearest to a natural number. -/
def ofNat (n : Nat) : Binary64 := round false (n * oneUnits) 1

/-- The number nearest to an integer. -/
def ofInt (i : Int) : Binary64 := round (i < 0) (i.natAbs * oneUnits) 1

/-- The power `2 ^ n`, infinite from `2 ^ 1024` on. -/
def twoPow (n : Nat) : Binary64 :=
  if n < 1024 then finite false (Nat.pow 2 (n + unitPlaces)) else infinite false

/-- The power `10 ^ n`, rounded. -/
def tenPow (n : Nat) : Binary64 := ofNat (Nat.pow 10 n)

def isNegative : Binary64 → Bool
  | nan => false
  | infinite negative => negative
  | finite negative _ => negative

def neg : Binary64 → Binary64
  | nan => nan
  | infinite negative => infinite (!negative)
  | finite negative units => finite (!negative) units

/-- A finite number as a signed count of units. -/
def signedUnits (negative : Bool) (units : Nat) : Int :=
  if negative then -(units : Int) else units

/-- The sum.  Two zeros of one sign keep it; every other sum that is zero is the positive zero. -/
def add : Binary64 → Binary64 → Binary64
  | nan, _ => nan
  | _, nan => nan
  | infinite a, infinite b => if a = b then infinite a else nan
  | infinite a, finite _ _ => infinite a
  | finite _ _, infinite b => infinite b
  | finite a m, finite b n =>
    let sum := signedUnits a m + signedUnits b n
    if sum = 0 then finite (a && b) 0 else round (sum < 0) sum.natAbs 1

/-- The product; zero times infinity is not a number. -/
def mul : Binary64 → Binary64 → Binary64
  | nan, _ => nan
  | _, nan => nan
  | infinite a, infinite b => infinite (a != b)
  | infinite a, finite b n => if n = 0 then nan else infinite (a != b)
  | finite a m, infinite b => if m = 0 then nan else infinite (a != b)
  | finite a m, finite b n => round (a != b) (m * n) oneUnits

/-- The quotient. -/
def div : Binary64 → Binary64 → Binary64
  | nan, _ => nan
  | _, nan => nan
  | infinite _, infinite _ => nan
  | infinite a, finite b _ => infinite (a != b)
  | finite a _, infinite b => finite (a != b) 0
  | finite a m, finite b n =>
    if n = 0 then (if m = 0 then nan else infinite (a != b)) else round (a != b) (m * oneUnits) n

instance : Add Binary64 := ⟨add⟩
instance : Mul Binary64 := ⟨mul⟩
instance : Div Binary64 := ⟨div⟩
instance : Neg Binary64 := ⟨neg⟩

/-- Numerical order: what is not a number is below nothing, and the two zeros are level. -/
def less : Binary64 → Binary64 → Bool
  | nan, _ => false
  | _, nan => false
  | infinite a, infinite b => a && !b
  | infinite a, finite _ _ => a
  | finite _ _, infinite b => !b
  | finite a m, finite b n => decide (signedUnits a m < signedUnits b n)

/-- Numerical equality: what is not a number equals nothing, and the two zeros are equal. -/
def same : Binary64 → Binary64 → Bool
  | infinite a, infinite b => a == b
  | finite a m, finite b n => decide (signedUnits a m = signedUnits b n)
  | _, _ => false

/-- The smaller of two numbers; an operand that is not a number is passed over. -/
def min (x y : Binary64) : Binary64 :=
  match x, y with
  | nan, y => y
  | x, nan => x
  | x, y => if less y x then y else x

/-- The integer that a number is, if it is one and its size is at most `2 ^ 53`. -/
def exactInt? : Binary64 → Option Int
  | finite negative units =>
    if units % oneUnits = 0 ∧ units / oneUnits ≤ Nat.pow 2 53 then
      some (signedUnits negative (units / oneUnits))
    else none
  | _ => none

/-- The pattern of sign, exponent and fraction as one number below `2 ^ 64`. -/
def bits : Binary64 → Nat
  | nan => 2047 * Nat.pow 2 52 + Nat.pow 2 51
  | infinite negative => (if negative then Nat.pow 2 63 else 0) + 2047 * Nat.pow 2 52
  | finite negative units =>
    let places := units.log2 - 52
    let pattern :=
      if units < Nat.pow 2 52 then units
      else (places + 1) * Nat.pow 2 52 + (units / Nat.pow 2 places - Nat.pow 2 52)
    (if negative then Nat.pow 2 63 else 0) + pattern

end Binary64

end QueryRelay
