import QueryRelay.Binary64.Basic

/-!
# JSON values

Integers and floating-point numbers are different values: `1` is not `1.0`.  The fields of an object are held as a
list.  A text is read in document form, with its fields in the order and as often as they were written;
`Json.canonical` turns that into the form in which values travel: fields ascending by name, each name once, the last
of several equal names winning.  `Json.same` is the equality of canonical values.
-/

namespace QueryRelay

/-- A JSON value. -/
inductive Json where
  | null
  | bool (value : Bool)
  | int (value : Int)
  | float (value : Binary64)
  | str (text : String)
  | array (items : List Json)
  | object (fields : List (String × Json))
deriving Repr, Inhabited

/-- Named values, ascending by name in canonical form. -/
abbrev Fields := List (String × Json)

namespace Fields

/-- The value of the first field of a name. -/
def get? (name : String) (fields : Fields) : Option Json := fields.lookup name

/-- Sets a field in an ascending list, keeping the order; a field of that name is replaced. -/
def insert (name : String) (value : Json) : Fields → Fields
  | [] => [(name, value)]
  | (other, old) :: rest =>
    if name < other then (name, value) :: (other, old) :: rest
    else if name = other then (name, value) :: rest
    else (other, old) :: insert name value rest

/-- Adds a field to an ascending list unless a field of that name is there. -/
def insertNew (name : String) (value : Json) : Fields → Fields
  | [] => [(name, value)]
  | (other, old) :: rest =>
    if name < other then (name, value) :: (other, old) :: rest
    else if name = other then (other, old) :: rest
    else (other, old) :: insertNew name value rest

/-- The ascending list of some pairs; the last pair of a name wins. -/
def ofPairs : List (String × Json) → Fields
  | [] => []
  | (name, value) :: rest => insertNew name value (ofPairs rest)

end Fields

namespace Json

mutual

/-- The canonical form: fields ascending by name, the last of several equal names winning, at every depth. -/
def canonical : Json → Json
  | .null => .null
  | .bool b => .bool b
  | .int i => .int i
  | .float x => .float x
  | .str s => .str s
  | .array items => .array (canonicalItems items)
  | .object fields => .object (canonicalFields fields)

def canonicalItems : List Json → List Json
  | [] => []
  | item :: rest => canonical item :: canonicalItems rest

def canonicalFields : List (String × Json) → Fields
  | [] => []
  | (name, value) :: rest => Fields.insertNew name (canonical value) (canonicalFields rest)

end

mutual

/-- Equality of canonical values; floating-point numbers are compared as numbers. -/
def same : Json → Json → Bool
  | .null, .null => true
  | .bool a, .bool b => a == b
  | .int a, .int b => a == b
  | .float a, .float b => Binary64.same a b
  | .str a, .str b => a == b
  | .array a, .array b => sameItems a b
  | .object a, .object b => sameFields a b
  | _, _ => false

def sameItems : List Json → List Json → Bool
  | [], [] => true
  | a :: as, b :: bs => same a b && sameItems as bs
  | _, _ => false

def sameFields : List (String × Json) → List (String × Json) → Bool
  | [], [] => true
  | (m, a) :: as, (n, b) :: bs => m == n && same a b && sameFields as bs
  | _, _ => false

end

mutual

/-- How many lists and objects lie within each other at the deepest place. -/
def depth : Json → Nat
  | .array items => depthItems items + 1
  | .object fields => depthFields fields + 1
  | _ => 0

def depthItems : List Json → Nat
  | [] => 0
  | item :: rest => Nat.max (depth item) (depthItems rest)

def depthFields : List (String × Json) → Nat
  | [] => 0
  | (_, value) :: rest => Nat.max (depth value) (depthFields rest)

end

/-- A natural number as a value. -/
def ofNat (n : Nat) : Json := .int n

/-- Text, or null where there is none. -/
def ofText? : Option String → Json
  | some text => .str text
  | none => .null

/-- A list of texts. -/
def ofTexts (texts : List String) : Json := .array (texts.map .str)

end Json

end QueryRelay
