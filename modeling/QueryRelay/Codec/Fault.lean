import QueryRelay.Binary64.Digits
import QueryRelay.Duration
import QueryRelay.Json.Halt
import QueryRelay.Json.Value
import QueryRelay.Text.Quoted

/-!
# Why a JSON value does not decode

A `DecodeFault` names the first reason for which a value was refused and the part of the value that gave it;
`DecodeFault.message` words the reason.
-/

namespace QueryRelay

/-- How a message speaks of a value that does not fit. -/
def Json.describe : Json → String
  | .null => "null"
  | .bool b => "boolean \x60" ++ (if b then "true" else "false") ++ "\x60"
  | .int i => "integer \x60" ++ toString i ++ "\x60"
  | .float x => "floating point \x60" ++ x.scientificText ++ "\x60"
  | .str s => "string " ++ quoted s
  | .array _ => "sequence"
  | .object _ => "map"

/-- The first reason for which a value was refused. -/
inductive DecodeFault where
  | missingField (name : String)
  | duplicateField (name : String)
  | invalidType (found : Json) (expected : String)
  | integerOutOfRange (value : Int) (expected : String)
  | unknownVariant (found : String) (variants : List String)
  /-- A text that is not what it should be at this point, though it may be JSON. -/
  | flawed (flaw : Json.Flaw)
  | notSingleKey
  | invalidLength (length : Nat) (expected : String)
  | invalidDuration (seconds : Binary64) (fault : Duration.SecondsFault)
  /-- The fault lies in the item or field of this index, counted from zero. -/
  | inside (index : Nat) (fault : DecodeFault)
  /-- The fault shows when the object has been gone through. -/
  | afterwards (fault : DecodeFault)
deriving Repr, Inhabited

namespace DecodeFault

/-- A name between back quotes. -/
def ticked (name : String) : String := "\x60" ++ name ++ "\x60"

/-- The list of the names that would have been right. -/
def variantsText : List String → String
  | [a, b] => ticked a ++ " or " ++ ticked b
  | names => "one of " ++ String.intercalate ", " (names.map ticked)

/-- The wording of a fault. -/
def message : DecodeFault → String
  | missingField name => "missing field " ++ ticked name
  | duplicateField name => "duplicate field " ++ ticked name
  | invalidType found expected => "invalid type: " ++ found.describe ++ ", expected " ++ expected
  | integerOutOfRange value expected =>
    "invalid value: integer " ++ ticked (toString value) ++ ", expected " ++ expected
  | unknownVariant found variants =>
    "unknown variant " ++ ticked found ++ ", expected " ++ variantsText variants
  | flawed flaw => flaw.message
  | notSingleKey => "invalid value: map, expected map with a single key"
  | invalidLength length expected => "invalid length " ++ toString length ++ ", expected " ++ expected
  | invalidDuration seconds fault =>
    "invalid duration " ++ seconds.plainText ++ ": cannot convert float seconds to Duration: " ++
      (match fault with
        | .negative => "value is negative"
        | .outOfRange => "value is either too big or NaN")
  | inside _ fault => fault.message
  | afterwards fault => fault.message

end DecodeFault

end QueryRelay
