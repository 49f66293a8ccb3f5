import QueryRelay.Connection.Slot
import QueryRelay.Session.Registry
import QueryRelay.Transaction.State

/-!
# The relay

A `Relay` is the whole state of the library at one moment: the client slot, the session registry, the circuit breaker,
the transactions in flight and the background reapers, with the settings that govern them and the present time.  What
can be seen from outside, requests to the engine and calls to the metrics sinks, is written to `Relay.log` in the order
in which it happens.

The calls of the library are described in modules of their own, as runs of atomic steps on a relay between which a call
waits.
-/

namespace QueryRelay

/-- Something that can be seen from outside. -/
inductive Happening where
  /-- The client factory is asked for a client. -/
  | clientAsked
  /-- A request goes to the engine. -/
  | requested (request : Request)
  /-- The sessions, transactions and operations report to their sink. -/
  | reported (emission : Emission)
  /-- The connection reports to its sink. -/
  | connectionReported (emission : Emission)
deriving Repr, Inhabited

/-- The call that a happening makes on the metrics sink.  A monitoring configuration, if there is one, stands before the
sink, but not before what the connection reports. -/
def Happening.emission? (monitoring : Option MonitoringConfig) : Happening → Option Emission
  | .reported e =>
    match monitoring with
    | some config => config.forward? e
    | none => some e
  | .connectionReported e => some e
  | _ => none

/-- What governs a relay. -/
structure Settings where
  connection : ConnectionSettings := {}
  limits : SessionLimits := {}
  retry : RetryPolicy := {}
  circuit : CircuitConfig := {}
deriving Repr, Inhabited

/-- The settings of a relay that an executor works with. -/
def Settings.ofExecutor (connection : ConnectionSettings) (config : ExecutorConfig) : Settings :=
  ⟨connection, config.sessions, config.retry, config.circuit⟩

/-- A background reaper. -/
structure ReaperId where
  serial : Nat
deriving Repr, DecidableEq, Inhabited

/-- How far a background reaper is. -/
inductive ReaperPhase where
  | running
  | told
  | ended
deriving Repr, DecidableEq, Inhabited

/-- The whole state of the library. -/
structure Relay where
  settings : Settings
  now : Instant := 0
  slot : ClientSlot := {}
  registry : Registry := {}
  breaker : Breaker
  transactions : Table TransactionId TransactionState := Table.empty
  /-- The serial number of the next transaction. -/
  nextTransaction : Nat := 1
  /-- Every reaper that was started. -/
  reapers : Table ReaperId ReaperPhase := Table.empty
  /-- The reaper that nobody has told to stop. -/
  reaper : Option ReaperId := none
  log : List Happening := []
deriving Inhabited

namespace Relay

/-- A relay at rest. -/
def new (settings : Settings) : Relay := { settings := settings, breaker := .new settings.circuit }

/-! ## What is seen from outside -/

/-- Writes something to the log. -/
def note (r : Relay) (h : Happening) : Relay := { r with log := r.log ++ [h] }

/-- Sends a request to the engine. -/
def ask (r : Relay) (request : Request) : Relay := r.note (.requested request)

/-- Reports a value of a metric. -/
def report (r : Relay) (verb : EmissionVerb) (metric : Metric) (value : Binary64) (labels : Labels) : Relay :=
  r.note (.reported (verb.emit metric value labels))

/-- Adds one to a counter. -/
def count (r : Relay) (metric : Metric) (labels : Labels) : Relay := r.report .increment metric .one labels

/-- Takes a value into a histogram. -/
def observe (r : Relay) (metric : Metric) (value : Binary64) (labels : Labels) : Relay :=
  r.report .observe metric value labels

/-- Sets a gauge, which has no labels. -/
def gauge (r : Relay) (metric : Metric) (value : Nat) : Relay := r.report .set metric (.ofNat value) []

/-- Reports how many sessions are tracked. -/
def reportSessions (r : Relay) : Relay := r.gauge .sessionsActive r.registry.sessions.size

/-- Reports how many transactions are in flight. -/
def reportTransactions (r : Relay) : Relay := r.gauge .transactionsActive r.transactions.size

/-! ## The parts of the state -/

/-- Changes the registry. -/
def withRegistry (r : Relay) (change : Registry → Registry) : Relay := { r with registry := change r.registry }

/-- Changes the breaker. -/
def withBreaker (r : Relay) (change : Breaker → Breaker) : Relay := { r with breaker := change r.breaker }

/-- Whether a call for a key may pass. -/
def canExecute (r : Relay) (key : String) : Relay × Bool :=
  let (breaker, admitted) := r.breaker.canExecute r.now key
  ({ r with breaker := breaker }, admitted)

/-- Reports a failure of a call for a key to the breaker. -/
def recordFailure (r : Relay) (key : String) : Relay := r.withBreaker fun b => b.recordFailure r.now key

/-- Reports a success of a call for a key to the breaker. -/
def recordSuccess (r : Relay) (key : String) : Relay := r.withBreaker fun b => b.recordSuccess key

/-- The connection's client, made if there is none. -/
def acquireClient (r : Relay) : Relay × Except Failure ClientId :=
  let r := if r.slot.client.isNone then r.note .clientAsked else r
  let (slot, client) := r.slot.acquire
  ({ r with slot := slot }, client)

/-- Replaces the connection's client, which is reported if it succeeds. -/
def recreateClient (r : Relay) : Relay × Except Failure ClientId :=
  let (slot, client) := r.slot.recreate
  let r := { r.note .clientAsked with slot := slot }
  let r :=
    match client with
    | .ok _ =>
      if r.settings.connection.reports then
        r.note (.connectionReported (EmissionVerb.increment.emit .connectionRecreated .one []))
      else r
    | .error _ => r
  (r, client)

/-! ## Sessions -/

/-- Counts for a tracked session, which also marks it as used. -/
def updateSession (r : Relay) (handle : SessionHandle) (counter : SessionCounter) (delta : Nat) :
    Relay × Except Failure Unit :=
  if r.registry.isTracked handle.id then
    (r.withRegistry fun g => g.update handle.id fun s => (s.bump counter delta).touch r.now, .ok ())
  else (r, .error (.unknownSession handle.id.text))

/-- Counts one for a session, if it is tracked. -/
def bump (r : Relay) (handle : SessionHandle) (counter : SessionCounter) : Relay :=
  (r.updateSession handle counter 1).1

/-- Marks the end of a unit of work of a session. -/
def markIdle (r : Relay) (handle : SessionHandle) : Relay × Except Failure Unit :=
  if r.registry.isTracked handle.id then
    (r.withRegistry fun g => g.update handle.id SessionState.rest, .ok ())
  else (r, .error (.unknownSession handle.id.text))

/-- Takes down a failure for a session, if it is tracked. -/
def recordError (r : Relay) (handle : SessionHandle) (failure : Failure) : Relay :=
  r.withRegistry fun g => g.update handle.id fun s => s.note failure.message

/-! ## Transactions -/

/-- Changes the state of a transaction in flight. -/
def updateTransaction (r : Relay) (id : TransactionId) (change : TransactionState → TransactionState) : Relay :=
  { r with transactions := r.transactions.modify id change }

/-- Takes a transaction into the table. -/
def registerTransaction (r : Relay) (state : TransactionState) : Relay × TransactionId :=
  let id : TransactionId := ⟨r.nextTransaction⟩
  let r := { r with transactions := r.transactions.insert id state, nextTransaction := r.nextTransaction + 1 }
  (r.reportTransactions, id)

/-- Takes a transaction out of the table; says whether it was there. -/
def clearTransaction (r : Relay) (id : TransactionId) : Relay × Bool :=
  if r.transactions.contains id then
    ({ r with transactions := r.transactions.erase id }.reportTransactions, true)
  else (r, false)

/-- The unfinished transactions of a session. -/
def activeTransactions (r : Relay) (session : SessionId) : List (TransactionId × TransactionState) :=
  r.transactions.entries.filter fun e => e.2.session = session && e.2.status.isUnfinished

/-- How many transactions have each status; a status without transactions is left out. -/
def transactionCounts (r : Relay) : List (TransactionStatus × Nat) :=
  (TransactionStatus.all.map fun status => (status, r.transactions.values.countP fun t => t.status = status)).filter
    fun c => c.2 ≠ 0

end Relay

end QueryRelay
