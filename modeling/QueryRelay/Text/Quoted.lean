import QueryRelay.Text.Hidden

/-!
# Quoted text

`quoted` writes a text between double quotes so that every character of it can be seen: quotes and backslashes are
escaped, and hidden characters are written by name or by their code point.
-/

namespace QueryRelay

/-- The characters that stand for one character between quotes. -/
def quotedChar (c : Char) : List Char :=
  match c with
  | '"' => ['\\', '"']
  | '\\' => ['\\', '\\']
  | '\n' => ['\\', 'n']
  | '\r' => ['\\', 'r']
  | '\t' => ['\\', 't']
  | '\x00' => ['\\', '0']
  | c => if isHidden c then '\\' :: 'u' :: '\x7b' :: Nat.toDigits 16 c.toNat ++ ['\x7d'] else [c]

/-- A text between quotes. -/
def quoted (text : String) : String := String.ofList ('"' :: text.toList.flatMap quotedChar ++ ['"'])

end QueryRelay
