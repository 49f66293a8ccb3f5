import QueryRelay.Codec.Fault
import QueryRelay.Json.Reader
import QueryRelay.Text.Ascending

/-!
# Codecs

A codec turns values of a type into JSON and back.  Decoding depends in small ways on where the JSON comes from: from a
text, whose objects are in document form, or from a value that travels in canonical form; `Source` says which.  A codec
also says what of a text is looked at when a value is decoded from it.  The module holds the codecs of plain values,
lists, maps and enumerations; `QueryRelay.Codec.Record` adds records.
-/

namespace QueryRelay

/-- Where the JSON to be decoded comes from. -/
inductive Source where
  | text
  | value
deriving Repr, DecidableEq, Inhabited

/-- Reads a value of a type from JSON. -/
abbrev Decoder (α : Type) := Source → Json → Except DecodeFault α

/-- The fault of a value that a decoder refuses. -/
def Decoder.fault? {α : Type} (decode : Decoder α) (source : Source) (json : Json) : Option DecodeFault :=
  match decode source json with
  | .ok _ => none
  | .error fault => some fault

/-- How values of a type are written as JSON, and read back. -/
structure Codec (α : Type) where
  encode : α → Json
  decode : Decoder α
  /-- What is looked at of a text from which a value is decoded. -/
  interest : Json.Interest := .whole

namespace Codec

/-- Natural numbers below `bound`; `expected` is how messages call them. -/
def natBelow (bound : Nat) (expected : String) : Codec Nat where
  encode := Json.ofNat
  decode := fun _ json =>
    match json with
    | .int i =>
      if 0 ≤ i ∧ i < bound then .ok i.toNat else .error (.integerOutOfRange i expected)
    | other => .error (.invalidType other expected)

/-- Unsigned numbers of 64 bits. -/
def unsigned64 : Codec Nat := natBelow (Nat.pow 2 64) "u64"

/-- Unsigned numbers of 32 bits. -/
def unsigned32 : Codec Nat := natBelow (Nat.pow 2 32) "u32"

/-- Sizes and counts. -/
def size : Codec Nat := natBelow (Nat.pow 2 64) "usize"

def bool : Codec Bool where
  encode := .bool
  decode := fun _ json =>
    match json with
    | .bool b => .ok b
    | other => .error (.invalidType other "a boolean")

def string : Codec String where
  encode := .str
  decode := fun _ json =>
    match json with
    | .str s => .ok s
    | other => .error (.invalidType other "a string")

/-- Spans of time, as seconds. -/
def duration : Codec Duration where
  encode := fun d => .float d.toSeconds
  decode := fun _ json =>
    let ofNumber := fun (x : Binary64) =>
      match Duration.ofSeconds? x with
      | .ok d => .ok d
      | .error fault => .error (.invalidDuration x fault)
    match json with
    | .int i => ofNumber (Binary64.ofInt i)
    | .float x => ofNumber x
    | other => .error (.invalidType other "f64")

/-- A value that may be null. -/
def option {α : Type} (inner : Codec α) : Codec (Option α) where
  encode
    | some a => inner.encode a
    | none => .null
  decode := fun source json =>
    match json with
    | .null => .ok none
    | other => (inner.decode source other).map some
  interest := inner.interest

/-- Reads the parts of a list or object, of which the first has the given index, up to the first fault. -/
def decodeParts {α β : Type} (decode : α → Except DecodeFault β) :
    (index : Nat) → List α → Except DecodeFault (List β)
  | _, [] => .ok []
  | index, part :: rest =>
    match decode part with
    | .error fault => .error (.inside index fault)
    | .ok value => (decodeParts decode (index + 1) rest).map (value :: ·)

/-- A list of values. -/
def list {α : Type} (inner : Codec α) : Codec (List α) where
  encode := fun items => .array (items.map inner.encode)
  decode := fun source json =>
    match json with
    | .array items => decodeParts (inner.decode source) 0 items
    | other => .error (.invalidType other "a sequence")
  interest := .items inner.interest

/-- A set of texts, written in ascending order. -/
def textSet : Codec TextSet where
  encode := fun set => .array (set.members.map .str)
  decode := fun source json => ((list string).decode source json).map TextSet.ofList

/-- Any JSON object, brought to canonical form. -/
def fields : Codec Fields where
  encode := .object
  decode := fun _ json =>
    match json with
    | .object entries => .ok (Json.canonicalFields entries)
    | other => .error (.invalidType other "a map")

/-- Texts under names, written in ascending order of the names; the last of several equal names wins. -/
def textMap : Codec TextMap where
  encode := fun map => .object (map.entries.map fun e => (e.1, .str e.2))
  decode := fun source json =>
    match json with
    | .object entries =>
      let entry := fun (e : String × Json) => (string.decode source e.2).map fun text => (e.1, text)
      (decodeParts entry 0 entries).map TextMap.ofList
    | other => .error (.invalidType other "a map")

/-- The members of an enumeration, each written as its name.  A member may also be given as an object with its name
as the only key and null as the value. -/
def choice {α : Type} (members : List α) (name : α → String) : Codec α where
  encode := fun a => .str (name a)
  decode := fun source json =>
    let ofName := fun (text : String) =>
      match members.find? fun a => name a = text with
      | some a => .ok a
      | none => .error (.unknownVariant text (members.map name))
    match source, json with
    | _, .str text => ofName text
    | .value, .object [(text, content)] =>
      (ofName text).bind fun a =>
        if content matches .null then .ok a else .error (.inside 0 (.invalidType content "unit"))
    | .value, .object _ => .error .notSingleKey
    | .value, other => .error (.invalidType other "string or map")
    | .text, .object ((text, content) :: rest) =>
      (ofName text).bind fun a =>
        if content matches .null then (if rest.isEmpty then .ok a else .error (.flawed .valueExpected))
        else .error (.inside 0 (.invalidType content "unit"))
    | .text, _ => .error (.flawed .valueExpected)
  interest := .choice

end Codec

end QueryRelay
