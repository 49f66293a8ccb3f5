import QueryRelay.Call

/-!
# Exchanges

An *exchange* is a relay with all the calls that were ever begun on it.  Calls run side by side: at
every moment someone may begin another call, a call whose wait is over may go on, a call that waits
may be dropped, and time may pass.  Each of these is a `Move`; `Exchange.run` makes one move after
the other, in any order at all, so that a statement about every run is a statement about every
interleaving of every set of calls.

* `Demand` — what can be asked of a relay, from opening a session to ending the executor.
* `Standing` — how a call stands: it waits, it has its result, or it was dropped.
* `Exchange.apply`, `Exchange.run` — one move, and a list of moves; `none` where a move cannot be
  made.
* `Exchange.heard` — what the calls were told when they went on, beside `Relay.log`, which holds
  what they asked.
-/

namespace QueryRelay

/-- What a call would be told, whatever it waits for. -/
abbrev Answers : Type := (w : Wait) → w.Answer

/-- What calls are told by an engine that grants everything, and opens sessions under this number. -/
def Answers.granting (number : Nat) : Answers
  | .reply (.openSession _ _ _) => .ok ⟨number⟩
  | .reply (.beginTransaction _) => .ok ()
  | .reply (.run _ _) => .ok {}
  | .reply (.commit _) => .ok ()
  | .reply (.rollback _) => .ok ()
  | .reply (.closeSession _) => .ok ()
  | .reply (.execute _ _ _ _) => .ok {}
  | .reply (.closeClient _) => .ok ()
  | .pause _ => ()
  | .rest _ _ => ()
  | .reaperEnd _ => ()

/-- What calls are told by an engine that refuses everything. -/
def Answers.refusing (failure : Failure) : Answers
  | .reply (.openSession _ _ _) => .error failure
  | .reply (.beginTransaction _) => .error failure
  | .reply (.run _ _) => .error failure
  | .reply (.commit _) => .error failure
  | .reply (.rollback _) => .error failure
  | .reply (.closeSession _) => .error failure
  | .reply (.execute _ _ _ _) => .error failure
  | .reply (.closeClient _) => .error failure
  | .pause _ => ()
  | .rest _ _ => ()
  | .reaperEnd _ => ()

/-- A wait with what the call was told at its end. -/
structure Heard where
  wait : Wait
  answer : wait.Answer

/-! ## Demands -/

/-- What can be asked of a relay. -/
inductive Demand where
  | openSession (database : Option String) (options : Option SessionOptions)
  | closeSession (id : SessionId)
  | closeAll
  | sweep
  | startReaper
  | stopReaper
  | transact (session : SessionHandle) (statements : List Statement) (substrings : Option (List String))
  | execute (routing : RoutingMode) (statement : Statement)
  | closeClient
  | query (config : ExecutorConfig) (statement : Statement) (options : OperationOptions)
  | job (config : ExecutorConfig) (work : Job)
  | operate (config : ExecutorConfig) (statements : List Statement) (options : OperationOptions)
  | chunks (config : ExecutorConfig) (text : String) (items : List Json) (size : Option Nat)
      (options : OperationOptions)
  | shutDown
  | update (session : SessionHandle) (counter : SessionCounter) (delta : Nat)
  | markIdle (session : SessionHandle)
  | recordError (session : SessionHandle) (failure : Failure)
  | acquireClient
  | recreateClient
  | recordFailure (key : String)
  | recordSuccess (key : String)
  | canExecute (key : String)
  | forget (key : String)
  | clear (id : TransactionId)
deriving Inhabited

/-- Begins the call that a demand leads to.  A background reaper is a call of its own, which begins
when it is started. -/
def Demand.start : Demand → Relay → Relay × CallProgress
  | openSession database options, r => Call.lift .opening .session (Opening.start r database options)
  | closeSession id, r => Call.lift .closing .outcome (Closing.start r id)
  | closeAll, r => Call.lift .closingAll .closeFailures (ClosingAll.start r)
  | sweep, r => Call.lift .sweeping .swept (Sweep.start r)
  | startReaper, r =>
    match r.startReaper with
    | (r, some reaper) => Call.lift .reaping (fun _ => .nothing) (Reaping.settle r reaper)
    | (r, none) => (r, .finished .nothing)
  | stopReaper, r => Call.lift .stopping (fun _ => .nothing) (Stopping.start r)
  | transact session statements substrings, r =>
    Call.lift .transacting .results (TransactionRun.start r session statements substrings)
  | execute routing statement, r => Call.lift .executing .records (Execution.start r routing statement)
  | closeClient, r => Call.lift .closingClient .outcome (ClientClosing.start r)
  | query config statement options, r => Call.lift .query .result (Query.start r config statement options)
  | job config work, r => Call.lift .query .result (work.start r config)
  | operate config statements options, r =>
    Call.lift .operating .results (Operation.start r .transaction config.database statements options)
  | chunks config text items size options, r =>
    Call.lift (.chunking config) .results (ChunkRun.start r config text items size options)
  | shutDown, r => Call.lift .shuttingDown .outcome (Shutdown.start r)
  | update session counter delta, r =>
    ((r.updateSession session counter delta).1,
      .finished (.outcome (r.updateSession session counter delta).2))
  | markIdle session, r => ((r.markIdle session).1, .finished (.outcome (r.markIdle session).2))
  | recordError session failure, r => (r.recordError session failure, .finished .nothing)
  | acquireClient, r => (r.acquireClient.1, .finished .nothing)
  | recreateClient, r => (r.recreateClient.1, .finished .nothing)
  | recordFailure key, r => (r.recordFailure key, .finished .nothing)
  | recordSuccess key, r => (r.recordSuccess key, .finished .nothing)
  | canExecute key, r => ((r.canExecute key).1, .finished .nothing)
  | forget key, r => (r.withBreaker fun b => b.forget key, .finished .nothing)
  | clear id, r => ((r.clearTransaction id).1, .finished .nothing)

/-- **A job begins as the query that it comes to.** -/
theorem Demand.start_job (config : ExecutorConfig) (work : Job) (r : Relay) :
    (job config work).start r = (query config (work.statement config) work.options).start r :=
  congrArg (Call.lift .query .result) (Job.start_eq r config work)

/-! ## Calls that were begun -/

/-- How a call stands. -/
inductive Standing where
  /-- It waits since that moment. -/
  | waiting (call : Call) (since : Instant)
  | finished (result : CallResult)
  | dropped
deriving Inhabited

/-- How a call stands after a step. -/
def Standing.after : Relay × CallProgress → Standing
  | (r, .waiting call) => waiting call r.now
  | (_, .finished result) => finished result

/-- Whether a wait that began at some moment may be over.  The engine answers when it likes; time has
to pass; a reaper has to have been told to stop, or to have ended. -/
def Wait.isOver (since : Instant) (r : Relay) : Wait → Bool
  | .reply _ => true
  | .pause span => decide (since + span.nanos ≤ r.now)
  | .rest span reaper =>
    decide (since + span.nanos ≤ r.now) || decide (r.reapers.get? reaper ≠ some .running)
  | .reaperEnd reaper => decide (r.reapers.get? reaper = some .ended)

/-- Whether a call is a background reaper, which nobody can drop. -/
def Call.isReaper : Call → Bool
  | .reaping _ => true
  | _ => false

/-! ## Moves -/

/-- What may happen next.  Calls are known by their place in the list of all calls. -/
inductive Move where
  | start (demand : Demand)
  | resume (call : Nat) (answers : Answers)
  | drop (call : Nat)
  | elapse (span : Duration)

/-- A relay with every call that was begun on it. -/
structure Exchange where
  relay : Relay
  calls : List Standing := []
  heard : List Heard := []
deriving Inhabited

namespace Exchange

/-- An exchange at rest, on which nothing was begun, with clients from some factory. -/
def new (settings : Settings) (factory : ClientFactory) : Exchange :=
  { relay := { Relay.new settings with slot := ⟨factory, none⟩ } }

/-- Makes a move, if it can be made. -/
def apply (x : Exchange) : Move → Option Exchange
  | .start demand =>
    some { x with
      relay := (demand.start x.relay).1
      calls := x.calls ++ [.after (demand.start x.relay)] }
  | .resume i answers =>
    match x.calls[i]? with
    | some (.waiting call since) =>
      if call.wait.isOver since x.relay then
        some
          { relay := (call.resume (answers call.wait) x.relay).1
            calls := x.calls.set i (.after (call.resume (answers call.wait) x.relay))
            heard := x.heard ++ [⟨call.wait, answers call.wait⟩] }
      else none
    | _ => none
  | .drop i =>
    match x.calls[i]? with
    | some (.waiting call _) =>
      if call.isReaper then none
      else some { x with relay := call.drop x.relay, calls := x.calls.set i .dropped }
    | _ => none
  | .elapse span => some { x with relay := { x.relay with now := x.relay.now + span.nanos } }

/-- Makes moves one after the other. -/
def run (x : Exchange) : List Move → Option Exchange
  | [] => some x
  | m :: rest =>
    match x.apply m with
    | some y => y.run rest
    | none => none

end Exchange

end QueryRelay
