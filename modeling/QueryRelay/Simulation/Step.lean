import QueryRelay.Call
import QueryRelay.Simulation.Engine

/-!
# The steps of a simulation

A simulation is a list of steps, each of which does one thing to a relay and has an answer.  A step may also be spawned:
it then runs as a task beside the steps that follow, until it is joined or aborted.
-/

namespace QueryRelay

namespace Simulation

/-- What a step does to a circuit. -/
inductive BreakerCall where
  | fail
  | succeed
  | forget
  | look
  | can
deriving Repr, DecidableEq, Inhabited

/-- A step.  Sessions and tasks go by the names that the steps give them. -/
inductive Step where
  /-- Appends outcomes to queues, and sets the result of calls that succeed without one. -/
  | script (outcomes : List (String × List Scripted)) (standard : Option RawResult)
  /-- Sets how long a kind of call takes, in milliseconds. -/
  | delay (call : String) (millis : Nat)
  | sleep (millis : Nat)
  | spawn (task : String) (step : Step)
  | join (task : String)
  | poll (task : String)
  | abort (task : String)
  | acquireClient
  | recreateClient
  | execute (statement : Statement) (routing : RoutingMode)
  | closeClient
  /-- Opens a session, and gives up after `limit` milliseconds. -/
  | openSession (session : String) (database : Option String) (options : Option SessionOptions) (limit : Option Nat)
  | closeSession (session : String)
  | update (session : String) (counter : SessionCounter) (delta : Nat)
  | markIdle (session : String)
  | recordError (session : String) (failure : Failure)
  | sessionState (session : String)
  | isTracked (session : String)
  | closeAll
  | sweep
  | startReaper
  | stopReaper
  | counts
  | settings
  | breaker (call : BreakerCall) (key : String)
  /-- Reports failures on the circuit of the session's first unfinished transaction. -/
  | trip (session : String) (times : Nat)
  | transact (session : String) (statements : List Statement) (substrings : Option (List String))
  | activeTransactions (session : String)
  | transactionStates (session : String)
  /-- Clears the session's first unfinished transaction, twice. -/
  | clear (session : String)
  | query (statement : Statement) (options : OperationOptions)
  | operate (statements : List Statement) (options : OperationOptions)
  | chunks (text : String) (items : List Json) (size : Option Nat) (options : OperationOptions)
  | parameterBatch (batch : ParameterBatch)
  /-- Feeds a bulk iteration with a statement; the retry budget is the configuration's. -/
  | expiry (statement : Statement) (batched : String) (batchSize : Nat) (parallel : Bool)
  | stats
  | shutDown
deriving Repr, Inhabited

/-- How many sessions and transactions there are, and in which statuses. -/
structure Census where
  sessions : Nat
  sessionsByStatus : List (SessionStatus × Nat)
  transactions : Nat
  transactionsByStatus : List (TransactionStatus × Nat)
deriving Repr, Inhabited

/-- The census of a relay. -/
def Census.of (r : Relay) : Census :=
  ⟨r.registry.sessions.size, r.registry.statusCounts, r.transactions.size, r.transactionCounts⟩

/-- The answer to a step. -/
inductive Answer where
  | nothing
  | flag (value : Bool)
  | noSession
  | noTask
  | noTransaction
  | noExecutor
  | timedOut
  /-- The step waits for something that never comes. -/
  | stuck
  | call (result : CallResult)
  | client (outcome : Except Failure ClientId)
  /-- The failures of closing all sessions, under the names by which the sessions go. -/
  | closeFailures (failures : List (Option String × Failure))
  | sessionState (state : Option (SessionState × Instant))
  | counts (census : Census)
  | stats (census : Census)
  | settings (settings : Settings) (executor : Option ExecutorConfig)
  | circuit (admitted : Option Bool) (state : CircuitState) (failures : Nat)
  | tripped (key : String) (state : CircuitState) (failures : Nat)
  | cleared (first second : Bool)
  | transactions (states : List TransactionState)
  /-- Transactions with the names by which their sessions go. -/
  | ownedTransactions (states : List (TransactionState × Option String))
deriving Repr, Inhabited

end Simulation

end QueryRelay
