import QueryRelay.Binary64.Decimal
import QueryRelay.Json.Halt
import QueryRelay.Json.Value

/-!
# Reading JSON text

The value of a text comes in document form: fields in the order of the text, repeated names kept.  A number without
fraction and exponent that fits 64 bits, signed or unsigned, is an integer; every other number is a floating-point
number, and so is `-0`.

`Json.scan` reads a text as far as it can be read, and tells the halt if that is not to the end; what lies before the
halt is still there in the value.  An `Interest` says which parts are looked at: the others are passed over, which is
less strict.  What is looked at must lie within at most `depthLimit` lists and objects, its numbers may not be too large
and its strings may not hold half a surrogate pair.  `Json.read?` looks at everything and accepts exactly the texts of
RFC 8259 within these limits.
-/

namespace QueryRelay

namespace Json

/-- Which parts of a value are looked at. -/
inductive Interest where
  | whole
  | none
  /-- A name, which may also stand as the name of the one field of an object. -/
  | choice
  /-- The items of a list. -/
  | items (each : Interest)
  /-- The named fields of an object, each with an interest of its own, and the others; the items of a list stand for the
  named fields. -/
  | fields (named : List (String × Interest)) (others : Interest)
deriving Inhabited

namespace Interest

/-- Whether the value itself is looked at. -/
def isKept : Interest → Bool
  | none => false
  | _ => true

/-- The interest in the first item of a list. -/
def item : Interest → Interest
  | none => none
  | items each => each
  | fields ((_, i) :: _) _ => i
  | _ => whole

/-- The interest in a list without its first item. -/
def afterItem : Interest → Interest
  | fields (_ :: named) others => fields named others
  | i => i

/-- The interest in a field of an object. -/
def field (name : String) : Interest → Interest
  | none => none
  | fields named others => (named.lookup name).getD others
  | _ => whole

end Interest

/-- How deep lists and objects may lie within each other. -/
def depthLimit : Nat := 127

/-- What stands for a value that has not been read. -/
def unread : Json := .null

namespace Reader

/-- Drops white space. -/
def skipBlank (text : List Char) : List Char :=
  text.dropWhile fun c => c = ' ' || c = '\n' || c = '\t' || c = '\r'

/-- Reads the given word. -/
def word : List Char → List Char → Except Halt (List Char)
  | [], rest => .ok rest
  | _ :: _, [] => .error (.before .endInValue [])
  | c :: expected, d :: rest => if c = d then word expected rest else .error (.at .wordExpected (d :: rest))

/-! ## Numbers -/

def digitValue (c : Char) : Nat := c.toNat - '0'.toNat

/-- Takes digits into a number while it stays below `bound`; the digits left over are returned. -/
def absorb (bound : Nat) : Nat → List Char → Nat × List Char
  | number, [] => (number, [])
  | number, c :: rest =>
    let next := number * 10 + digitValue c
    if next < bound then absorb bound next rest else (number, c :: rest)

/-- Significands are below this bound; digits beyond it count as zeros. -/
def significandBound : Nat := Nat.pow 2 64

/-- Written powers of ten are below this bound. -/
def exponentBound : Nat := Nat.pow 2 31

/-- The parts of a number literal. -/
structure Literal where
  negative : Bool
  whole : List Char
  fraction : Option (List Char)
  exponent : Option (Bool × List Char)

/-- Takes at least one digit; `ended` is the flaw of a text that ends before it. -/
def digits (ended : Flaw) (text : List Char) : Except Halt (List Char × List Char) :=
  match text with
  | [] => .error (.before ended [])
  | c :: _ =>
    if c.isDigit then .ok (text.takeWhile Char.isDigit, text.dropWhile Char.isDigit)
    else .error (.at .badNumber text)

/-- Splits off a number literal; a leading zero stands alone, and no part may be empty. -/
def literal (kept : Bool) (text : List Char) : Except Halt (Literal × List Char) := do
  let ended : Flaw := if kept then .endInValue else .badNumber
  let (negative, text) := match text with
    | '-' :: rest => (true, rest)
    | _ => (false, text)
  let (whole, text) ← match text with
    | '0' :: c :: rest =>
      if c.isDigit then .error (.at .badNumber (c :: rest)) else .ok (['0'], c :: rest)
    | _ => digits ended text
  let (fraction, text) ← match text with
    | '.' :: rest => (digits ended rest).map fun (places, rest) => (some places, rest)
    | _ => .ok (none, text)
  let power := fun (negativeExponent : Bool) (rest : List Char) =>
    (digits ended rest).map fun (power, rest) => (some (negativeExponent, power), rest)
  let (exponent, text) ← match text with
    | c :: rest =>
      if c = 'e' || c = 'E' then
        match rest with
        | '-' :: rest => power true rest
        | '+' :: rest => power false rest
        | _ => power false rest
      else .ok (none, text)
    | [] => .ok (none, text)
  .ok (⟨negative, whole, fraction, exponent⟩, text)

/-- The value of a literal.  If it is too large, the result is what was left of its power of ten when that showed. -/
def Literal.value (l : Literal) : Except (List Char) Json :=
  let float := fun (significand : Nat) (exponent : Int) =>
    match Binary64.ofDecimal? l.negative significand exponent with
    | some x => .ok (.float x)
    | none => .error []
  let (significand, dropped) := absorb significandBound 0 l.whole
  match l.fraction, l.exponent with
  | none, none =>
    if dropped.isEmpty then
      if !l.negative then .ok (.int significand)
      else if significand = 0 ∨ Nat.pow 2 63 < significand then float significand 0
      else .ok (.int (-(significand : Int)))
    else float significand dropped.length
  | fraction, exponent =>
    let places := fraction.getD []
    let (significand, ignored) := absorb significandBound significand places
    let shift : Int := (dropped.length : Int) - ((places.length - ignored.length : Nat) : Int)
    match exponent with
    | none => float significand shift
    | some (negativeExponent, power) =>
      match absorb exponentBound 0 power with
      | (power, []) => float significand (if negativeExponent then shift - power else shift + power)
      | (_, _ :: left) =>
        if significand ≠ 0 ∧ !negativeExponent then .error left else .ok (.float (.finite l.negative 0))

/-- Reads a number. -/
def number (kept : Bool) (text : List Char) : Except Halt (Json × List Char) := do
  let (literal, rest) ← literal kept text
  if kept then
    match literal.value with
    | .ok value => .ok (value, rest)
    | .error left => .error (.before .numberTooLarge (left ++ rest))
  else .ok (unread, rest)

/-! ## Strings -/

/-- The value of a hexadecimal digit. -/
def hexValue? (c : Char) : Option Nat :=
  if '0' ≤ c ∧ c ≤ '9' then some (c.toNat - '0'.toNat)
  else if 'a' ≤ c ∧ c ≤ 'f' then some (c.toNat - 'a'.toNat + 10)
  else if 'A' ≤ c ∧ c ≤ 'F' then some (c.toNat - 'A'.toNat + 10)
  else none

/-- The 16-bit unit that four hexadecimal digits name. -/
def unit? (a b c d : Char) : Option Nat := do
  let a ← hexValue? a
  let b ← hexValue? b
  let c ← hexValue? c
  let d ← hexValue? d
  pure (((a * 16 + b) * 16 + c) * 16 + d)

def isHighSurrogate (unit : Nat) : Bool := 0xD800 ≤ unit && unit < 0xDC00

def isLowSurrogate (unit : Nat) : Bool := 0xDC00 ≤ unit && unit < 0xE000

/-- The character that a single-letter escape stands for. -/
def escaped? : Char → Option Char
  | '"' => some '"'
  | '\\' => some '\\'
  | '/' => some '/'
  | 'b' => some '\x08'
  | 'f' => some '\x0c'
  | 'n' => some '\n'
  | 'r' => some '\r'
  | 't' => some '\t'
  | _ => none

/-- The halt at four digits of an escape that are not there. -/
def noUnit (text : List Char) : Halt :=
  if 4 ≤ byteCount text then ⟨.badEscape, ⟨text, 4⟩⟩ else .before .endInString []

/-- Reads the inside of a string up to the closing quote; `done` holds the characters so far, last first.  A high
surrogate escape waits in `high` for the low one, which has to follow at once. -/
def stringBody (high : Option Nat) (done : List Char) : List Char → Except Halt (String × List Char)
  | [] => .error (.before .endInString [])
  | '\\' :: 'u' :: a :: b :: c :: d :: rest =>
    match unit? a b c d with
    | none => .error (noUnit (a :: b :: c :: d :: rest))
    | some unit =>
      match high with
      | some high =>
        if isLowSurrogate unit then
          stringBody none (Char.ofNat (0x10000 + (high - 0xD800) * 0x400 + (unit - 0xDC00)) :: done) rest
        else .error (.before .unpairedSurrogate rest)
      | none =>
        if isHighSurrogate unit then stringBody (some unit) done rest
        else if isLowSurrogate unit then .error (.before .unpairedSurrogate rest)
        else stringBody none (Char.ofNat unit :: done) rest
  | '\\' :: 'u' :: rest => .error (noUnit rest)
  | ['\\'] => .error (.before .endInString [])
  | '\\' :: c :: rest =>
    if high.isSome then .error (.at .pairBroken (c :: rest))
    else
      match escaped? c with
      | some c => stringBody none (c :: done) rest
      | none => .error (.at .badEscape (c :: rest))
  | c :: rest =>
    if high.isSome then .error (.at .pairBroken (c :: rest))
    else if c = '"' then .ok (String.ofList done.reverse, rest)
    else if c.toNat < 0x20 then .error (.at .controlCharacter (c :: rest))
    else stringBody none (c :: done) rest

/-- Passes over the inside of a string and its closing quote. -/
def skipString : List Char → Except Halt (List Char)
  | [] => .error (.before .endInString [])
  | '\\' :: 'u' :: a :: b :: c :: d :: rest =>
    match unit? a b c d with
    | none => .error (noUnit (a :: b :: c :: d :: rest))
    | some _ => skipString rest
  | '\\' :: 'u' :: rest => .error (noUnit rest)
  | ['\\'] => .error (.before .endInString [])
  | '\\' :: c :: rest =>
    match escaped? c with
    | some _ => skipString rest
    | none => .error (.at .badEscape (c :: rest))
  | c :: rest =>
    if c = '"' then .ok rest
    else if c.toNat < 0x20 then .error (.before .controlCharacter (c :: rest))
    else skipString rest

/-- Reads the inside of a string, or passes over it. -/
def text (kept : Bool) (rest : List Char) : Except Halt (String × List Char) :=
  if kept then stringBody none [] rest else (skipString rest).map fun rest => ("", rest)

/-! ## Values -/

/-- Reads the name of a field. -/
def name (kept : Bool) (rest : List Char) : Except Halt (String × List Char) :=
  match skipBlank rest with
  | '"' :: rest => text kept rest
  | [] => .error (.before .endInObject [])
  | rest => .error (.at .nameExpected rest)

/-- Reads the colon after the name of a field. -/
def colon (rest : List Char) : Except Halt (List Char) :=
  match skipBlank rest with
  | ':' :: rest => .ok rest
  | [] => .error (.before .endInObject [])
  | rest => .error (.at .colonExpected rest)

/-- What follows an item or a field. -/
inductive Next where
  | another (rest : List Char)
  | ended (rest : List Char)

/-- Reads what follows an item of a list. -/
def afterItem (kept : Bool) (rest : List Char) : Except Halt Next :=
  match skipBlank rest with
  | ']' :: rest => .ok (.ended rest)
  | ',' :: rest =>
    match kept, skipBlank rest with
    | true, ']' :: rest => .error (.at .trailingComma (']' :: rest))
    | _, rest => .ok (.another rest)
  | [] => .error (.before .endInList [])
  | rest => .error (.at .listEndExpected rest)

/-- Reads what follows a field of an object. -/
def afterField (interest : Interest) (rest : List Char) : Except Halt Next :=
  match interest, skipBlank rest with
  | _, '\x7d' :: rest => .ok (.ended rest)
  | _, [] => .error (.before .endInObject [])
  | .choice, rest => .error (.before .valueExpected rest)
  | interest, ',' :: rest =>
    match interest.isKept, skipBlank rest with
    | true, '\x7d' :: rest => .error (.at .trailingComma ('\x7d' :: rest))
    | true, [] => .error (.before .endInValue [])
    | _, rest => .ok (.another rest)
  | _, rest => .error (.at .objectEndExpected rest)

/-- What has been read of a value, and what comes after it. -/
abbrev Reading := Json × Except Halt (List Char)

/-- A reading of a value without parts. -/
def plain : Except Halt (Json × List Char) → Reading
  | .ok (value, rest) => (value, .ok rest)
  | .error halt => (unread, .error halt)

mutual

/-- Reads one value, white space before it skipped; lists and objects may lie `depth` deep within each other. -/
def value (fuel depth : Nat) (interest : Interest) (text : List Char) : Reading :=
  match fuel with
  | 0 => (unread, .error (.before .tooDeep text))
  | fuel + 1 =>
    match skipBlank text with
    | [] => (unread, .error (.before .endInValue []))
    | '"' :: rest => plain ((Reader.text interest.isKept rest).map fun (s, rest) => (.str s, rest))
    | '[' :: rest =>
      if interest.isKept && depth = 0 then (unread, .error (.at .tooDeep ('[' :: rest)))
      else
        match skipBlank rest with
        | [] => (.array [], .error (.before .endInList []))
        | ']' :: rest => (.array [], .ok rest)
        | rest => items fuel (depth - 1) interest [] rest
    | '\x7b' :: rest =>
      if interest.isKept && depth = 0 then (unread, .error (.at .tooDeep ('\x7b' :: rest)))
      else
        match skipBlank rest with
        | '\x7d' :: rest => (.object [], .ok rest)
        | rest => fields fuel (depth - 1) interest [] rest
    | 'n' :: rest => plain ((word ['u', 'l', 'l'] rest).map (.null, ·))
    | 't' :: rest => plain ((word ['r', 'u', 'e'] rest).map (.bool true, ·))
    | 'f' :: rest => plain ((word ['a', 'l', 's', 'e'] rest).map (.bool false, ·))
    | c :: rest =>
      if c = '-' || c.isDigit then plain (number interest.isKept (c :: rest))
      else (unread, .error (.at .valueExpected (c :: rest)))

/-- Reads the items of a list up to its closing bracket. -/
def items (fuel depth : Nat) (interest : Interest) (done : List Json) (text : List Char) : Reading :=
  match fuel with
  | 0 => (unread, .error (.before .tooDeep text))
  | fuel + 1 =>
    let (item, next) := value fuel depth interest.item text
    match next.bind (afterItem interest.isKept) with
    | .ok (.another rest) => items fuel depth interest.afterItem (item :: done) rest
    | .ok (.ended rest) => (.array (item :: done).reverse, .ok rest)
    | .error halt => (.array (item :: done).reverse, .error halt)

/-- Reads the fields of an object up to its closing brace. -/
def fields (fuel depth : Nat) (interest : Interest) (done : List (String × Json)) (text : List Char) : Reading :=
  match fuel with
  | 0 => (unread, .error (.before .tooDeep text))
  | fuel + 1 =>
    match name interest.isKept text with
    | .error halt => (.object done.reverse, .error halt)
    | .ok (name, rest) =>
      match colon rest with
      | .error halt => (.object ((name, unread) :: done).reverse, .error halt)
      | .ok rest =>
        let (value, next) := value fuel depth (interest.field name) rest
        match next.bind (afterField interest) with
        | .ok (.another rest) => fields fuel depth interest ((name, value) :: done) rest
        | .ok (.ended rest) => (.object ((name, value) :: done).reverse, .ok rest)
        | .error halt => (.object ((name, value) :: done).reverse, .error halt)

end

/-- Fuel that suffices for a text: every step that takes some leaves less of the text. -/
def fuelFor (text : List Char) : Nat := 2 * text.length + 2

end Reader

/-- Reads a text that holds one value and nothing else, as far as it can be read. -/
def scan (interest : Interest) (text : String) : Json × Option Halt :=
  let chars := text.toList
  match Reader.value (Reader.fuelFor chars) depthLimit interest chars with
  | (value, .error halt) => (value, some halt)
  | (value, .ok rest) =>
    match Reader.skipBlank rest with
    | [] => (value, none)
    | rest => (value, some (.at .trailingCharacters rest))

/-- The value of a text that can be read as a whole. -/
def read? (text : String) : Option Json :=
  match scan .whole text with
  | (value, none) => some value
  | _ => none

end Json

end QueryRelay
