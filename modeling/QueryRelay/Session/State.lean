import QueryRelay.Circuit
import QueryRelay.Identifier

/-!
# The state of a session

A session is created, serves work while it is active or idle, and is closed or fails.  `SessionStatus.canBecome` is the
life cycle; `SessionState.touch` marks use, and `SessionState.isReapable` says which sessions an idle sweep closes.
-/

namespace QueryRelay

/-- Where a session is in its life. -/
inductive SessionStatus where
  | created
  | active
  | idle
  | closing
  | closed
  | error
deriving Repr, DecidableEq, Inhabited

namespace SessionStatus

def all : List SessionStatus := [created, active, idle, closing, closed, error]

def name : SessionStatus → String
  | created => "created"
  | active => "active"
  | idle => "idle"
  | closing => "closing"
  | closed => "closed"
  | error => "error"

def codec : Codec SessionStatus := .choice all name

/-- Whether nothing follows. -/
def isTerminal : SessionStatus → Bool
  | closed => true
  | error => true
  | _ => false

/-- Whether the life cycle leads from one status to the next. -/
def canBecome : SessionStatus → SessionStatus → Bool
  | closed, _ => false
  | error, _ => false
  | _, error => true
  | created, active => true
  | active, idle => true
  | idle, active => true
  | closing, closed => true
  | closing, _ => false
  | _, closing => true
  | _, _ => false

end SessionStatus

/-- What is counted for a session. -/
inductive SessionCounter where
  | queriesExecuted
  | transactionsStarted
  | transactionsCommitted
  | transactionsRolledBack
deriving Repr, DecidableEq, Inhabited

namespace SessionCounter

def all : List SessionCounter :=
  [queriesExecuted, transactionsStarted, transactionsCommitted, transactionsRolledBack]

def name : SessionCounter → String
  | queriesExecuted => "queries_executed"
  | transactionsStarted => "transactions_started"
  | transactionsCommitted => "transactions_committed"
  | transactionsRolledBack => "transactions_rolled_back"

def codec : Codec SessionCounter := .choice all name

end SessionCounter

/-- The counts of a session. -/
structure SessionCounters where
  queriesExecuted : Nat := 0
  transactionsStarted : Nat := 0
  transactionsCommitted : Nat := 0
  transactionsRolledBack : Nat := 0
deriving Repr, DecidableEq, Inhabited

namespace SessionCounters

/-- The greatest count; counting stops there. -/
def limit : Nat := Nat.pow 2 64 - 1

def get (c : SessionCounters) : SessionCounter → Nat
  | .queriesExecuted => c.queriesExecuted
  | .transactionsStarted => c.transactionsStarted
  | .transactionsCommitted => c.transactionsCommitted
  | .transactionsRolledBack => c.transactionsRolledBack

/-- Adds to one count, up to the limit. -/
def bump (c : SessionCounters) (counter : SessionCounter) (delta : Nat) : SessionCounters :=
  let count := Nat.min (c.get counter + delta) limit
  match counter with
  | .queriesExecuted => { c with queriesExecuted := count }
  | .transactionsStarted => { c with transactionsStarted := count }
  | .transactionsCommitted => { c with transactionsCommitted := count }
  | .transactionsRolledBack => { c with transactionsRolledBack := count }

def codec : Codec SessionCounters :=
  let counter := fun name => RecordReader.field name .unsigned64 .refused
  RecordReader.codec
    (SessionCounters.mk <$> counter "queries_executed" <*> counter "transactions_started"
      <*> counter "transactions_committed" <*> counter "transactions_rolled_back")
    "SessionCounters"
    fun c =>
      .object
        [("queries_executed", .ofNat c.queriesExecuted), ("transactions_started", .ofNat c.transactionsStarted),
          ("transactions_committed", .ofNat c.transactionsCommitted),
          ("transactions_rolled_back", .ofNat c.transactionsRolledBack)]

end SessionCounters

/-- What is kept of one session. -/
structure SessionState where
  status : SessionStatus := .created
  database : Option String
  lastUsedAt : Instant
  counters : SessionCounters := {}
  errors : List String := []
deriving Repr, DecidableEq, Inhabited

namespace SessionState

/-- A session that was just opened. -/
def new (database : Option String) (now : Instant) : SessionState :=
  { database := database, lastUsedAt := now }

/-- Whether a session may be moved to a status; staying where it is always may. -/
def allows (s : SessionState) (next : SessionStatus) : Bool := s.status = next || s.status.canBecome next

/-- Moves a session to a status if the life cycle allows it. -/
def transition (s : SessionState) (next : SessionStatus) : SessionState :=
  if s.status.canBecome next then { s with status := next } else s

/-- Marks use: the clock of idleness starts again, and the session becomes active if it can. -/
def touch (s : SessionState) (now : Instant) : SessionState :=
  { s with lastUsedAt := now }.transition .active

/-- Adds to one count. -/
def bump (s : SessionState) (counter : SessionCounter) (delta : Nat) : SessionState :=
  { s with counters := s.counters.bump counter delta }

/-- Takes down the message of a failure. -/
def note (s : SessionState) (message : String) : SessionState := { s with errors := s.errors ++ [message] }

/-- Marks the end of a unit of work: an active session becomes idle. -/
def rest (s : SessionState) : SessionState :=
  if s.status = .active then s.transition .idle else s

/-- Whether an idle sweep closes the session: it was in use, and has been idle for the timeout. -/
def isReapable (s : SessionState) (timeout : Duration) (now : Instant) : Bool :=
  (s.status = .active || s.status = .idle) && decide (timeout ≤ Instant.since now s.lastUsedAt)

end SessionState

/-- The metric label of sessions on the engine's default database. -/
def databaseLabel (database : Option String) : String := database.getD "default"

end QueryRelay
