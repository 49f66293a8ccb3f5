import QueryRelay.Codec.Basic

/-!
# Codecs of records

A record is written as an object.  It is read from an object whose fields may come in any order and among unknown
ones, or from a list of its fields in the order of their declaration.  Reading stops at the first fault: the values
that are present are looked at in the order in which they are given, and fields that are missing are noticed last, in
the order of their declaration.

`RecordReader` describes how a record is put together from its fields; it is built with `RecordReader.field` and the
applicative operations.
-/

namespace QueryRelay

/-- What a field is taken to be when it is not given. -/
structure Missing (α : Type) where
  /-- Its value when an object lacks it. -/
  inObject : Option α
  /-- Its value when a list is too short to hold it. -/
  inList : Option α

namespace Missing

/-- The field has to be given. -/
def refused {α : Type} : Missing α := ⟨none, none⟩

/-- The field has a default. -/
def default {α : Type} (value : α) : Missing α := ⟨some value, some value⟩

/-- The field may be left out of an object, and is then empty. -/
def empty {α : Type} : Missing (Option α) := ⟨some none, none⟩

end Missing

/-- The two shapes in which a record can be given. -/
inductive RecordShape where
  | object
  | list
deriving Repr, DecidableEq

/-- How the value of a field is looked at. -/
structure RecordSlot where
  fault? : Source → Json → Option DecodeFault
  interest : Json.Interest

/-- How a record is read from its fields. -/
structure RecordReader (α : Type) where
  /-- The fields in the order of their declaration. -/
  slots : List (String × RecordSlot)
  /-- The record made of the given values, or the name of a field that is missing. -/
  build : Source → RecordShape → (String → Option Json) → Except DecodeFault α

namespace RecordReader

variable {α β : Type}

/-- A record that is one field. -/
def field (name : String) (codec : Codec α) (missing : Missing α) : RecordReader α where
  slots := [(name, ⟨codec.decode.fault?, codec.interest⟩)]
  build := fun source shape given =>
    match given name with
    | some json => codec.decode source json
    | none =>
      match (match shape with | .object => missing.inObject | .list => missing.inList) with
      | some value => .ok value
      | none => .error (.missingField name)

instance : Applicative RecordReader where
  pure a := ⟨[], fun _ _ _ => .ok a⟩
  seq f x :=
    let x := x ()
    ⟨f.slots ++ x.slots, fun source shape given =>
      match f.build source shape given with
      | .error fault => .error fault
      | .ok g => (x.build source shape given).map g⟩

/-- The first fault among some entries, of which the first has the given index; entries of other names are passed
over. -/
def entriesFault? (slots : List (String × RecordSlot)) (source : Source) :
    (seen : List String) → (index : Nat) → List (String × Json) → Option DecodeFault
  | _, _, [] => none
  | seen, index, (name, value) :: rest =>
    match slots.lookup name with
    | none => entriesFault? slots source seen (index + 1) rest
    | some slot =>
      if seen.contains name then some (.inside index (.duplicateField name))
      else
        match slot.fault? source value with
        | some fault => some (.inside index fault)
        | none => entriesFault? slots source (name :: seen) (index + 1) rest

/-- The first fault among some items, each tested as the field in whose place it stands; the first item has the given
index. -/
def itemsFault? (source : Source) :
    (index : Nat) → List (String × RecordSlot) → List Json → Option DecodeFault
  | index, slot :: slots, item :: items =>
    match slot.2.fault? source item with
    | some fault => some (.inside index fault)
    | none => itemsFault? source (index + 1) slots items
  | _, _, _ => none

/-- Reads a record from the entries of an object. -/
def ofEntries (reader : RecordReader α) (source : Source) (entries : List (String × Json)) :
    Except DecodeFault α :=
  match entriesFault? reader.slots source [] 0 entries with
  | some fault => .error fault
  | none => reader.build source .object fun name => entries.lookup name

/-- Reads a record from a list of its fields. -/
def ofItems (reader : RecordReader α) (title : String) (source : Source) (items : List Json) :
    Except DecodeFault α :=
  match itemsFault? source 0 reader.slots items with
  | some fault => .error fault
  | none =>
    let names := reader.slots.map Prod.fst
    match reader.build source .list fun name => (names.zip items).lookup name with
    | .error (.missingField name) =>
      .error (.invalidLength (names.idxOf name)
        ("struct " ++ title ++ " with " ++ toString names.length ++ " elements"))
    | .error fault => .error fault
    | .ok record =>
      if items.length ≤ names.length then .ok record
      else
        match source with
        | .text => .error (.inside names.length (.flawed .trailingCharacters))
        | .value => .error (.invalidLength items.length "fewer elements in array")

/-- What is looked at of the text of a record that stands among `others`. -/
def interestBeside (reader : RecordReader α) (others : Json.Interest) : Json.Interest :=
  .fields (reader.slots.map fun slot => (slot.1, slot.2.interest)) others

/-- What is looked at of the text of a record: its fields, and no others. -/
def interest (reader : RecordReader α) : Json.Interest := reader.interestBeside .none

/-- Reads a record called `title` in messages. -/
def decode (reader : RecordReader α) (title : String) : Decoder α := fun source json =>
  match json with
  | .object entries => reader.ofEntries source entries
  | .array items => reader.ofItems title source items
  | other => .error (.invalidType other ("struct " ++ title))

/-- The codec of a record called `title` in messages, which `encode` writes as an object. -/
def codec (reader : RecordReader α) (title : String) (encode : α → Json) : Codec α where
  encode := encode
  decode := reader.decode title
  interest := reader.interest

end RecordReader

end QueryRelay
