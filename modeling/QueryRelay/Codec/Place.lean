import QueryRelay.Codec.Fault
import QueryRelay.Json.Reader

/-!
# Where a fault lies in a text

A text is read and decoded at one go: the first fault is told with the place at which the reader stood when it showed,
and what comes after that is not read.  `DecodeFault.locate` leads a reader to a fault that was found in the value of a
text.  If the text cannot be read so far, the halt is what is told.

A value that has the wrong type is read unless it is a list or an object.  Faults that a record finds in a value that
was read, or in a name, are told where the record is left: a reader then takes the white space that follows and the
closing bracket, if it comes next.
-/

namespace QueryRelay

namespace DecodeFault

open Json (Flaw Halt Interest Stand)
open Json.Reader (skipBlank)

/-- Whether the fault is told where the record that finds it is left. -/
def isToldOnLeaving : DecodeFault → Bool
  | duplicateField _ => true
  | invalidDuration _ _ => true
  | _ => false

/-- Goes past a value. -/
def pass (depth : Nat) (interest : Interest) (text : List Char) : Except Halt (List Char) :=
  (Json.Reader.value (Json.Reader.fuelFor text) depth interest text).2

/-- Goes to the item of an index; the text begins behind the opening bracket. -/
def toItem (depth : Nat) (interest : Interest) : Nat → List Char → Except Halt (List Char)
  | 0, text => .ok text
  | index + 1, text => do
    match ← (pass depth interest.item text).bind (Json.Reader.afterItem interest.isKept) with
    | .another rest => toItem depth interest.afterItem index rest
    | .ended rest => .ok rest

/-- Goes to the end of the name of the field of an index, and tells that name; the text begins behind the opening
brace. -/
def toField (depth : Nat) (interest : Interest) : Nat → List Char → Except Halt (String × List Char)
  | 0, text => Json.Reader.name interest.isKept text
  | index + 1, text => do
    let (name, rest) ← Json.Reader.name interest.isKept text
    let rest ← Json.Reader.colon rest
    match ← (pass depth (interest.field name) rest).bind (Json.Reader.afterField interest) with
    | .another rest => toField depth interest index rest
    | .ended rest => .ok (name, rest)

/-- Leaves a list. -/
def leaveList (text : List Char) : Stand :=
  match skipBlank text with
  | ']' :: rest => { rest := rest }
  | ',' :: rest => { rest := skipBlank rest }
  | rest => { rest := rest }

/-- Leaves an object. -/
def leaveObject (text : List Char) : Stand :=
  match skipBlank text with
  | '\x7d' :: rest => { rest := rest }
  | rest => { rest := rest }

/-- A fault together with where its reader stands. -/
abbrev Found := DecodeFault × Stand

/-- The fault of a value that has the wrong type. -/
def mistyped (depth : Nat) (expected : String) (text : List Char) : Except Halt Found :=
  match skipBlank text with
  | '[' :: rest => .ok (invalidType (.array []) expected, { rest := '[' :: rest })
  | '\x7b' :: rest => .ok (invalidType (.object []) expected, { rest := '\x7b' :: rest })
  | text =>
    match Json.Reader.value (Json.Reader.fuelFor text) depth .whole text with
    | (value, next) => next.map fun rest => (invalidType value expected, { rest := rest })

/-- The fault of a value that should be one of several names, and is neither a text nor an object with one field. -/
def noChoice (depth : Nat) (text : List Char) : Except Halt Found :=
  let fault := flawed .valueExpected
  match skipBlank text with
  | [] => .error (.before .endInValue [])
  | '"' :: rest => (Json.Reader.text true rest).map fun (_, rest) => (fault, { rest := rest })
  | '\x7b' :: rest =>
    match skipBlank rest with
    | '\x7d' :: rest => .ok (fault, ⟨'\x7d' :: rest, 1⟩)
    | '"' :: rest => do
      let (_, rest) ← Json.Reader.text true rest
      let rest ← Json.Reader.colon rest
      let rest ← pass (depth - 1) .whole rest
      .ok (fault, { rest := skipBlank rest })
    | rest => mistyped (depth - 1) "variant identifier" rest
  | rest => .ok (fault, ⟨rest, 1⟩)

/-- Leads a reader to a fault in the value with which the text begins. -/
def find (depth : Nat) (interest : Interest) (text : List Char) : DecodeFault → Except Halt Found
  | inside index fault =>
    match skipBlank text with
    | '[' :: rest => do
      let rest ← toItem (depth - 1) interest index rest
      let (told, stand) ← find (depth - 1) interest.item rest fault
      .ok (told, if fault.isToldOnLeaving then leaveList stand.rest else stand)
    | '\x7b' :: rest => do
      let (name, rest) ← toField (depth - 1) interest index rest
      match fault with
      | duplicateField _ => .ok (fault, leaveObject rest)
      | fault => do
        let rest ← Json.Reader.colon rest
        let (told, stand) ← find (depth - 1) (interest.field name) rest fault
        .ok (told, if fault.isToldOnLeaving then leaveObject stand.rest else stand)
    | rest => .ok (fault, { rest := rest })
  | invalidType value expected =>
    match value with
    | .array _ => .ok (invalidType value expected, { rest := skipBlank text })
    | .object _ => .ok (invalidType value expected, { rest := skipBlank text })
    | _ => (pass depth interest text).map fun rest => (invalidType value expected, { rest := rest })
  | unknownVariant found variants =>
    match skipBlank text with
    | '\x7b' :: rest =>
      (Json.Reader.name true rest).map fun (_, rest) => (unknownVariant found variants, { rest := rest })
    | rest => (pass depth interest rest).map fun rest => (unknownVariant found variants, { rest := rest })
  | flawed .valueExpected => noChoice depth text
  | flawed flaw => .ok (flawed flaw, ⟨skipBlank text, 1⟩)
  | fault => (pass depth interest text).map fun rest => (fault, { rest := rest })

/-- The fault that is told of a text and its place, or the halt before it. -/
def locate (fault : DecodeFault) (interest : Interest) (text : String) : Except Halt (DecodeFault × Json.Place) :=
  (find Json.depthLimit interest text.toList fault).map fun (fault, stand) => (fault, stand.place text)

end DecodeFault

end QueryRelay
