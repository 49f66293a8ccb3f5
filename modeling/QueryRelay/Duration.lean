import QueryRelay.Binary64.Basic

/-!
# Spans of time

A span is a whole number of nanoseconds.  It is written in configurations as a floating-point number of seconds:
`Duration.ofSeconds?` rounds such a number to the nearest nanosecond (a half to the even one) and refuses what is
negative or reaches `2 ^ 64` seconds; `Duration.toSeconds` gives the number that is written back.
-/

namespace QueryRelay

/-- A span of time. -/
structure Duration where
  nanos : Nat
deriving Repr, DecidableEq, Inhabited

namespace Duration

def nanosPerSecond : Nat := 1000000000

def nanosPerMilli : Nat := 1000000

def nanosPerMicro : Nat := 1000

def ofWholeSeconds (n : Nat) : Duration := ⟨n * nanosPerSecond⟩

def ofMillis (n : Nat) : Duration := ⟨n * nanosPerMilli⟩

/-- The whole seconds of a span. -/
def seconds (d : Duration) : Nat := d.nanos / nanosPerSecond

/-- The nanoseconds beyond the whole seconds. -/
def subsecond (d : Duration) : Nat := d.nanos % nanosPerSecond

instance : LE Duration := ⟨fun a b => a.nanos ≤ b.nanos⟩

instance (a b : Duration) : Decidable (a ≤ b) := inferInstanceAs (Decidable (a.nanos ≤ b.nanos))

/-- The milliseconds that a wait of this span takes on a clock that counts whole milliseconds. -/
def ticks (d : Duration) : Nat := (d.nanos + (nanosPerMilli - 1)) / nanosPerMilli

/-- Why a number of seconds is no span. -/
inductive SecondsFault where
  | negative
  | outOfRange
deriving Repr, DecidableEq

/-- The span nearest to a number of seconds.  Both zeros are the empty span. -/
def ofSeconds? : Binary64 → Except SecondsFault Duration
  | .nan => .error .outOfRange
  | .infinite negative => .error (if negative then .negative else .outOfRange)
  | .finite negative units =>
    if negative && units ≠ 0 then .error .negative
    else
      let nanos := Binary64.roundQuotient (units * nanosPerSecond) Binary64.oneUnits
      if nanos < Nat.pow 2 64 * nanosPerSecond then .ok ⟨nanos⟩ else .error .outOfRange

/-- The number of seconds: the whole seconds plus the rest over `10 ^ 9`, each step rounded. -/
def toSeconds (d : Duration) : Binary64 :=
  Binary64.ofNat d.seconds + Binary64.ofNat d.subsecond / Binary64.ofNat nanosPerSecond

/-- Digits of a fraction with `places` places, the zeros at the end dropped. -/
def fractionText (fraction places : Nat) : String :=
  let digits := Nat.toDigits 10 fraction
  let padded := List.replicate (places - digits.length) '0' ++ digits
  let kept := (padded.reverse.dropWhile (· = '0')).reverse
  if kept.isEmpty then "" else String.ofList ('.' :: kept)

/-- The text of a span in the largest of the units `s`, `ms`, `µs` and `ns` of which it holds one. -/
def text (d : Duration) : String :=
  let part := fun (whole fraction places : Nat) (unit : String) =>
    toString whole ++ fractionText fraction places ++ unit
  if 0 < d.seconds then part d.seconds d.subsecond 9 "s"
  else if nanosPerMilli ≤ d.nanos then part (d.nanos / nanosPerMilli) (d.nanos % nanosPerMilli) 6 "ms"
  else if nanosPerMicro ≤ d.nanos then part (d.nanos / nanosPerMicro) (d.nanos % nanosPerMicro) 3 "µs"
  else part d.nanos 0 0 "ns"

end Duration

end QueryRelay
