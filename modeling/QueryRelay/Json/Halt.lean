/-!
# Texts that are not JSON

A `Halt` says where the reading of a text stops and which `Flaw` stops it; a `Place` is a position in a text, as people
are told it.
-/

namespace QueryRelay

namespace Json

/-- Why a text cannot be read on. -/
inductive Flaw where
  | endInList
  | endInObject
  | endInString
  | endInValue
  | colonExpected
  | listEndExpected
  | objectEndExpected
  | wordExpected
  | valueExpected
  | nameExpected
  | badEscape
  | badNumber
  | numberTooLarge
  | controlCharacter
  /-- An escape that names half a surrogate pair, and the other half does not fit it. -/
  | unpairedSurrogate
  /-- An escape that names the first half of a surrogate pair, and no escape follows. -/
  | pairBroken
  | trailingComma
  | trailingCharacters
  | tooDeep
deriving Repr, DecidableEq, Inhabited

/-- The wording of a flaw. -/
def Flaw.message : Flaw → String
  | endInList => "EOF while parsing a list"
  | endInObject => "EOF while parsing an object"
  | endInString => "EOF while parsing a string"
  | endInValue => "EOF while parsing a value"
  | colonExpected => "expected \x60:\x60"
  | listEndExpected => "expected \x60,\x60 or \x60]\x60"
  | objectEndExpected => "expected \x60,\x60 or \x60\x7d\x60"
  | wordExpected => "expected ident"
  | valueExpected => "expected value"
  | nameExpected => "key must be a string"
  | badEscape => "invalid escape"
  | badNumber => "invalid number"
  | numberTooLarge => "number out of range"
  | controlCharacter => "control character (\\u0000-\\u001F) found while parsing a string"
  | unpairedSurrogate => "lone leading surrogate in hex escape"
  | pairBroken => "unexpected end of hex escape"
  | trailingComma => "trailing comma"
  | trailingCharacters => "trailing characters"
  | tooDeep => "recursion limit exceeded"

/-- Where a reader stands in a text: what is left of it, and how many bytes of that have been looked at. -/
structure Stand where
  rest : List Char
  ahead : Nat := 0
deriving Repr, Inhabited

/-- The end of a reading. -/
structure Halt where
  flaw : Flaw
  stand : Stand
deriving Repr, Inhabited

/-- A halt before what is left of a text. -/
def Halt.before (flaw : Flaw) (rest : List Char) : Halt := ⟨flaw, ⟨rest, 0⟩⟩

/-- A halt at the first byte of what is left of a text. -/
def Halt.at (flaw : Flaw) (rest : List Char) : Halt := ⟨flaw, ⟨rest, 1⟩⟩

/-- How many bytes some characters take. -/
def byteCount (text : List Char) : Nat := text.foldl (fun n c => n + c.utf8Size) 0

/-- A position in a text: lines are counted from one, columns are the bytes before it in its line. -/
structure Place where
  line : Nat
  column : Nat
deriving Repr, DecidableEq, Inhabited

/-- The position behind some bytes. -/
def Place.behind (bytes : List UInt8) : Place :=
  let newline : UInt8 := 10
  ⟨bytes.count newline + 1, (bytes.reverse.takeWhile fun b => b ≠ newline).length⟩

/-- The position at which a reader of a text stands. -/
def Stand.place (s : Stand) (text : String) : Place :=
  let bytes := text.toUTF8.toList
  .behind (bytes.take (bytes.length - byteCount s.rest + s.ahead))

/-- How a position is told. -/
def Place.text (p : Place) : String := " at line " ++ toString p.line ++ " column " ++ toString p.column

end Json

end QueryRelay
