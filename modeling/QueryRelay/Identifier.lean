/-!
# Generated identifiers

Sessions and transactions get identifiers as they come into being.  An identifier is a serial number; its text is a
stem followed by the number in at least 32 hexadecimal digits.
-/

namespace QueryRelay

/-- A number in hexadecimal, with zeros in front up to 32 digits. -/
def hexSerial (n : Nat) : String :=
  let digits := Nat.toDigits 16 n
  String.ofList (List.replicate (32 - digits.length) '0' ++ digits)

/-- The identifier of a session. -/
structure SessionId where
  serial : Nat
deriving Repr, DecidableEq, Inhabited

def SessionId.text (id : SessionId) : String := "session_" ++ hexSerial id.serial

/-- The identifier of a transaction. -/
structure TransactionId where
  serial : Nat
deriving Repr, DecidableEq, Inhabited

namespace TransactionId

def text (id : TransactionId) : String := "tx_" ++ hexSerial id.serial

/-- The key of the circuit that guards a transaction. -/
def breakerKey (id : TransactionId) : String := "transaction_" ++ id.text

end TransactionId

end QueryRelay
