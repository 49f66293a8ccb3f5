import QueryRelay.Circuit
import QueryRelay.Identifier
import QueryRelay.Statement

/-!
# The state of a transaction

A transaction starts, and ends committed or failed; a failed one starts again when it is retried.
-/

namespace QueryRelay

/-- Where a transaction is in its life. -/
inductive TransactionStatus where
  | started
  | committed
  | rolledBack
  | failed
  | timedOut
deriving Repr, DecidableEq, Inhabited

namespace TransactionStatus

def all : List TransactionStatus := [started, committed, rolledBack, failed, timedOut]

def name : TransactionStatus → String
  | started => "started"
  | committed => "committed"
  | rolledBack => "rolled_back"
  | failed => "failed"
  | timedOut => "timed_out"

def codec : Codec TransactionStatus := .choice all name

/-- Whether nothing follows; a failed transaction may be retried. -/
def isTerminal : TransactionStatus → Bool
  | committed => true
  | rolledBack => true
  | timedOut => true
  | _ => false

/-- Whether the transaction is unfinished. -/
def isUnfinished : TransactionStatus → Bool
  | started => true
  | failed => true
  | _ => false

end TransactionStatus

/-- What is kept of one transaction. -/
structure TransactionState where
  session : SessionId
  status : TransactionStatus := .started
  queries : List Statement
  /-- How many retries there were so far. -/
  retryCount : Nat := 0
  /-- When the last attempt failed. -/
  lastRetryAt : Option Instant := none
  /-- The message of the last failure. -/
  error : Option String := none
deriving Repr, Inhabited

namespace TransactionState

/-- A transaction that was just begun. -/
def new (session : SessionId) (queries : List Statement) : TransactionState :=
  { session := session, queries := queries }

/-- Starts another attempt. -/
def restart (s : TransactionState) : TransactionState := { s with status := .started }

def commit (s : TransactionState) : TransactionState := { s with status := .committed, error := none }

/-- Takes down a failed attempt. -/
def fail (s : TransactionState) (message : String) (retryCount : Nat) (now : Instant) : TransactionState :=
  { s with status := .failed, error := some message, retryCount := retryCount, lastRetryAt := some now }

end TransactionState

end QueryRelay
