import QueryRelay.Binary64.Basic

/-!
# The shortest decimal text of a floating-point number

`Digits.shortest` finds the fewest decimal digits that read back as the given number, and among those of that length
the nearest to it; a `Tie` says which of two that are equally near.  Two ways of writing the digits follow:
`Binary64.plainText` never uses an exponent and takes the greater of two, and `Binary64.scientificText` uses one outside
the range `1e-5 ≤ x < 1e16`, otherwise always shows a decimal point, and takes the even one of two.
-/

namespace QueryRelay

/-- The decimal number `digits * 10 ^ exponent`. -/
structure Digits where
  digits : Nat
  exponent : Int
deriving Repr, DecidableEq

namespace Digits

/-- How many decimal digits a number has; zero has one. -/
def count (n : Nat) : Nat := (Nat.toDigits 10 n).length

/-- The open-ended interval of magnitudes that round to a given number, in half units of the format. -/
structure Interval where
  low : Nat
  high : Nat
  closed : Bool

/-- What rounds to the magnitude `units`: half-way to each neighbour, ends included iff the last binary digit is
even. -/
def Interval.around (units : Nat) : Interval :=
  let step := Binary64.spacing units
  let below := if units = Nat.pow 2 units.log2 ∧ 1 < step then step / 2 else step
  ⟨2 * units - below, 2 * units + step, units / step % 2 = 0⟩

/-- Whether the decimal `digits * 10 ^ exponent` lies in the interval. -/
def Interval.contains (i : Interval) (d : Digits) : Bool :=
  let scale := 2 * Binary64.oneUnits
  let value := if 0 ≤ d.exponent then d.digits * Nat.pow 10 d.exponent.toNat * scale else d.digits * scale
  let unit := if 0 ≤ d.exponent then 1 else Nat.pow 10 (-d.exponent).toNat
  if i.closed then i.low * unit ≤ value && value ≤ i.high * unit
  else i.low * unit < value && value < i.high * unit

/-- How far `digits * 10 ^ exponent` is from `units`, on a scale that depends on the exponent alone. -/
def distance (units : Nat) (d : Digits) : Nat :=
  let value := if 0 ≤ d.exponent then d.digits * Nat.pow 10 d.exponent.toNat * Binary64.oneUnits
    else d.digits * Binary64.oneUnits
  let target := if 0 ≤ d.exponent then units else units * Nat.pow 10 (-d.exponent).toNat
  Int.natAbs ((value : Int) - (target : Int))

/-- The position of the leading decimal digit: `10 ^ place ≤ units * 2 ^ -1074 < 10 ^ (place + 1)`. -/
def leadingPlace (units : Nat) : Int :=
  (count (units * Nat.pow 10 400 / Binary64.oneUnits) : Int) - 401

/-- The neighbours of `units` on the grid of `10 ^ exponent`. -/
def neighbours (units : Nat) (exponent : Int) : Digits × Digits :=
  let floor := if 0 ≤ exponent then units / (Binary64.oneUnits * Nat.pow 10 exponent.toNat)
    else units * Nat.pow 10 (-exponent).toNat / Binary64.oneUnits
  (⟨floor, exponent⟩, ⟨floor + 1, exponent⟩)

/-- Which of two decimals on both sides of a number is taken if they are equally near. -/
inductive Tie where
  /-- The one whose last digit is even. -/
  | toEven
  /-- The greater magnitude. -/
  | up
deriving Repr, DecidableEq, Inhabited

/-- Whether the lower one of two equally near decimals is taken. -/
def Tie.takesLow (tie : Tie) (low : Digits) : Bool :=
  match tie with
  | toEven => low.digits % 2 = 0
  | up => false

/-- The best decimal of `size` digits that reads back as `units`, if there is one. -/
def ofSize? (tie : Tie) (units size : Nat) : Option Digits :=
  let interval := Interval.around units
  let (low, high) := neighbours units (leadingPlace units - (size - 1 : Int))
  match interval.contains low, interval.contains high with
  | true, true =>
    if distance units low < distance units high
      ∨ (distance units low = distance units high ∧ tie.takesLow low) then some low else some high
  | true, false => some low
  | false, true => some high
  | false, false => none

/-- The digits without the zeros at their end. -/
def trim (d : Digits) : Nat → Digits
  | 0 => d
  | fuel + 1 =>
    if d.digits ≠ 0 ∧ d.digits % 10 = 0 then trim ⟨d.digits / 10, d.exponent + 1⟩ fuel else d

/-- The fewest digits that read back as the magnitude `units`; seventeen always suffice. -/
def shortest (tie : Tie) (units : Nat) : Digits :=
  if units = 0 then ⟨0, 0⟩
  else
    match (List.range 17).findSome? fun i => ofSize? tie units (i + 1) with
    | some d => trim d 20
    | none => trim (neighbours units (leadingPlace units - 16)).1 20

/-- The digits as characters. -/
def chars (d : Digits) : List Char := Nat.toDigits 10 d.digits

/-- Positional notation, with a decimal point only where digits follow it. -/
def positional (d : Digits) : String :=
  let cs := d.chars
  if 0 ≤ d.exponent then String.ofList (cs ++ List.replicate d.exponent.toNat '0')
  else
    let places := (-d.exponent).toNat
    let padded := List.replicate (places + 1 - cs.length) '0' ++ cs
    String.ofList (padded.take (padded.length - places) ++ '.' :: padded.drop (padded.length - places))

/-- The power of ten of the leading digit. -/
def leadingExponent (d : Digits) : Int := d.exponent + (d.chars.length : Int) - 1

/-- One digit before the point, and an exponent with its sign. -/
def scientific (d : Digits) : String :=
  let fraction := match d.chars with
    | [] => "0"
    | [c] => String.ofList [c]
    | c :: rest => String.ofList (c :: '.' :: rest)
  let exponent := d.leadingExponent
  fraction ++ (if exponent < 0 then "e-" else "e+") ++ toString exponent.natAbs

end Digits

namespace Binary64

/-- The text without an exponent: the shortest digits, written out in full. -/
def plainText : Binary64 → String
  | nan => "NaN"
  | infinite negative => if negative then "-inf" else "inf"
  | finite negative units => (if negative then "-" else "") ++ (Digits.shortest .up units).positional

/-- The text that always shows a point or an exponent; the exponent is used below `1e-5` and from `1e16` on. -/
def scientificText : Binary64 → String
  | nan => "NaN"
  | infinite negative => if negative then "-inf" else "inf"
  | finite negative units =>
    let d := Digits.shortest .toEven units
    let sign := if negative then "-" else ""
    if units = 0 then sign ++ "0.0"
    else if -5 ≤ d.leadingExponent ∧ d.leadingExponent ≤ 15 then
      sign ++ d.positional ++ (if 0 ≤ d.exponent then ".0" else "")
    else sign ++ d.scientific

end Binary64

end QueryRelay
