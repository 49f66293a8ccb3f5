import QueryRelay.Simulation.Task

/-!
# Running a simulation

`World.perform` carries out one step: the step runs until it has its answer, other tasks taking their turns while it
waits, and then every task runs until it waits.  `Simulation.run` does so for all steps, and reports of each the answer,
what could be seen from outside, and the time.
-/

namespace QueryRelay

namespace Simulation

/-- What beginning a step leads to: its answer, or something that takes time. -/
inductive Beginning where
  | answered (answer : Answer)
  | calling (progress : CallProgress) (purpose : Purpose) (limit : Option Nat)
  | sleeping (millis : Nat)
  | joining (task : Nat)

namespace World

/-! ## Names -/

/-- The name by which a session goes. -/
def nameOf? (w : World) (id : SessionId) : Option String :=
  (w.handles.entries.find? fun e => e.2.id = id).map Prod.fst

/-- Does something with the session of a name. -/
def withSession (w : World) (session : String) (act : SessionHandle → World × Beginning) : World × Beginning :=
  match w.handles.get? session with
  | some handle => act handle
  | none => (w, .answered .noSession)

/-- Does something with a task of a name. -/
def withTask (w : World) (task : String) (act : Nat → World × Beginning) : World × Beginning :=
  match w.names.get? task with
  | some number => act number
  | none => (w, .answered .noTask)

/-- Begins a call of the relay. -/
def begin (w : World) (start : Relay → Relay × CallProgress) (purpose : Purpose) (limit : Option Nat) :
    World × Beginning :=
  let (relay, progress) := start w.relay
  ({ w with relay := relay }, .calling progress purpose limit)

/-- Begins a call of the executor. -/
def beginWork (w : World) (start : ExecutorConfig → Relay → Relay × CallProgress) : World × Beginning :=
  match w.executor with
  | some config => w.begin (start config) .answer none
  | none => (w, .answered .noExecutor)

/-- An answer that only needs the relay. -/
def ask (w : World) (query : Relay → Answer) : World × Beginning := (w, .answered (query w.relay))

/-- A change of the relay with an answer. -/
def change (w : World) (act : Relay → Relay × Answer) : World × Beginning :=
  let (relay, answer) := act w.relay
  ({ w with relay := relay }, .answered answer)

/-! ## Circuits -/

/-- One call on the breaker, and what is then seen of the circuit. -/
def breakerStep (call : BreakerCall) (key : String) (r : Relay) : Relay × Answer :=
  let (r, admitted) := match call with
    | .fail => (r.recordFailure key, none)
    | .succeed => (r.recordSuccess key, none)
    | .forget => (r.withBreaker fun b => b.forget key, none)
    | .look => (r, none)
    | .can =>
      let (r, admitted) := r.canExecute key
      (r, some admitted)
  (r, .circuit admitted (r.breaker.state key) (r.breaker.failureCount key))

/-- Whether one transaction comes before another when they are listed: by the text of the first statement, those
without statements first. -/
def listedBefore (a b : TransactionState) : Bool :=
  match a.queries, b.queries with
  | [], _ => true
  | _ :: _, [] => false
  | first :: _, second :: _ => first.text ≤ second.text

/-- The unfinished transactions of a session, in the order in which they are listed. -/
def unfinished (w : World) (handle : SessionHandle) : List (TransactionId × TransactionState) :=
  (w.relay.activeTransactions handle.id).mergeSort fun a b => listedBefore a.2 b.2

/-! ## Steps -/

/-- Begins a step. -/
def beginStep (w : World) : Step → World × Beginning
  | .script outcomes standard =>
    let append := fun (w : World) (entry : String × List Scripted) =>
      if entry.1 = "create" then
        let slot := w.relay.slot
        let factory := { slot.factory with outcomes := slot.factory.outcomes ++ entry.2.map Scripted.failure? }
        { w with relay := { w.relay with slot := { slot with factory := factory } } }
      else { w with engine := w.engine.append entry.1 entry.2 }
    let w := outcomes.foldl append w
    let w := match standard with
      | some raw => { w with engine := { w.engine with standard := raw } }
      | none => w
    (w, .answered .nothing)
  | .delay call millis =>
    ({ w with engine := { w.engine with delays := w.engine.delays.insert call millis } }, .answered .nothing)
  | .sleep millis => (w, .sleeping millis)
  | .spawn task step =>
    let (w, number) := w.addTask (.fresh step)
    ({ w with names := w.names.insert task number }, .answered .nothing)
  | .join task =>
    w.withTask task fun number => ({ w with names := w.names.erase task }, .joining number)
  | .poll task => w.withTask task fun number => (w, .answered (.flag (w.answers.contains number)))
  | .abort task =>
    w.withTask task fun number =>
      let w := { w with names := w.names.erase task }
      let w := match w.tasks.find? fun t => t.number = number with
        | some { activity := .calling call _, .. } => { w with relay := call.drop w.relay }
        | _ => w
      (w.removeTask number, .answered .nothing)
  | .acquireClient =>
    w.change fun r =>
      let (r, client) := r.acquireClient
      (r, .client client)
  | .recreateClient =>
    w.change fun r =>
      let (r, client) := r.recreateClient
      (r, .client client)
  | .execute statement routing =>
    w.begin (fun r => Call.lift .executing .records (Execution.start r routing statement)) .answer none
  | .closeClient => w.begin (fun r => Call.lift .closingClient .outcome (ClientClosing.start r)) .answer none
  | .openSession session database options limit =>
    w.begin (fun r => Call.lift .opening .session (Opening.start r database options)) (.keep session) limit
  | .closeSession session =>
    w.withSession session fun handle =>
      w.begin (fun r => Call.lift .closing .outcome (Closing.start r handle.id)) .answer none
  | .update session counter delta =>
    w.withSession session fun handle =>
      w.change fun r =>
        let (r, outcome) := r.updateSession handle counter delta
        (r, .call (.outcome outcome))
  | .markIdle session =>
    w.withSession session fun handle =>
      w.change fun r =>
        let (r, outcome) := r.markIdle handle
        (r, .call (.outcome outcome))
  | .recordError session failure =>
    w.withSession session fun handle => w.change fun r => (r.recordError handle failure, .nothing)
  | .sessionState session =>
    w.withSession session fun handle =>
      w.ask fun r => .sessionState ((r.registry.state? handle.id).map fun s => (s, r.now))
  | .isTracked session =>
    w.withSession session fun handle => w.ask fun r => .flag (r.registry.isTracked handle.id)
  | .closeAll => w.begin (fun r => Call.lift .closingAll .closeFailures (ClosingAll.start r)) .answer none
  | .sweep => w.begin (fun r => Call.lift .sweeping .swept (Sweep.start r)) .answer none
  | .startReaper =>
    let (relay, reaper) := w.relay.startReaper
    let w := { w with relay := relay }
    match reaper with
    | some id => ((w.addTask (.freshReaper id)).1, .answered .nothing)
    | none => (w, .answered .nothing)
  | .stopReaper => w.begin (fun r => Call.lift .stopping (fun _ => .nothing) (Stopping.start r)) .answer none
  | .counts => w.ask fun r => .counts (.of r)
  | .settings => w.ask fun r => .settings r.settings w.executor
  | .breaker call key =>
    let key := if key = "@tripped" then w.tripped.getD key else key
    w.change (breakerStep call key)
  | .trip session times =>
    w.withSession session fun handle =>
      match w.unfinished handle with
      | [] => (w, .answered .noTransaction)
      | (id, _) :: _ =>
        let key := id.breakerKey
        let relay := (List.range times).foldl (fun r _ => r.recordFailure key) w.relay
        ({ w with relay := relay, tripped := some key },
          .answered (.tripped key (relay.breaker.state key) (relay.breaker.failureCount key)))
  | .transact session statements substrings =>
    w.withSession session fun handle =>
      w.begin (fun r => Call.lift .transacting .results (TransactionRun.start r handle statements substrings))
        .answer none
  | .activeTransactions session =>
    w.withSession session fun handle => (w, .answered (.transactions ((w.unfinished handle).map Prod.snd)))
  | .transactionStates session =>
    w.withSession session fun handle =>
      let states := (w.unfinished handle).filterMap fun e => w.relay.transactions.get? e.1
      (w, .answered (.ownedTransactions (states.map fun s => (s, w.nameOf? s.session))))
  | .clear session =>
    w.withSession session fun handle =>
      match w.unfinished handle with
      | [] => (w, .answered .noTransaction)
      | (id, _) :: _ =>
        w.change fun r =>
          let (r, first) := r.clearTransaction id
          let (r, second) := r.clearTransaction id
          (r, .cleared first second)
  | .query statement options =>
    w.beginWork fun config r => Call.lift .query .result (Query.start r config statement options)
  | .operate statements options =>
    w.beginWork fun config r =>
      Call.lift .operating .results (Operation.start r .transaction config.database statements options)
  | .chunks text items size options =>
    w.beginWork fun config r =>
      Call.lift (.chunking config) .results (ChunkRun.start r config text items size options)
  | .parameterBatch batch =>
    w.beginWork fun config r => Call.lift .query .result (Query.startBatch r config batch)
  | .expiry statement batched batchSize parallel =>
    w.beginWork fun config r =>
      Call.lift .query .result
        (Query.startExpiry r config fun retries => statement.feed batched ⟨batchSize, parallel, retries⟩)
  | .stats => w.ask fun r => .stats (.of r)
  | .shutDown =>
    w.beginWork fun _ r => Call.lift .shuttingDown .outcome (Shutdown.start r)

/-! ## Turns -/

/-- Ends a task with an answer. -/
def finish (w : World) (number : Nat) (answer : Answer) : World :=
  let w := w.removeTask number
  { w with answers := w.answers.insert number answer }

/-- The answer that the result of a call amounts to. -/
def conclude (w : World) (purpose : Purpose) (result : CallResult) : World × Answer :=
  match purpose, result with
  | .keep session, .session (.ok handle) =>
    ({ w with handles := w.handles.insert session handle }, .call result)
  | _, .closeFailures failures =>
    (w, .closeFailures (failures.map fun (id, failure) => (w.nameOf? id, failure)))
  | _, .nothing => (w, .nothing)
  | _, _ => (w, .call result)

/-- How long a wait lasts, in milliseconds, if it has a length. -/
def length? (w : World) : Wait → Option Nat
  | .reply request => some (w.engine.delay request)
  | .pause span => some span.ticks
  | .rest span _ => some span.ticks
  | .reaperEnd _ => none

/-- Whether a wait of some length is none: an answer that the engine gives at once. -/
def isNoWait : Wait → Nat → Bool
  | .reply _, 0 => true
  | _, _ => false

/-- Goes on with a call whose wait is over. -/
def resumeCall (w : World) (call : Call) : World × CallProgress :=
  let go := fun (w : World) (answer : call.wait.Answer) =>
    let (relay, progress) := call.resume answer w.relay
    ({ w with relay := relay }, progress)
  match h : call.wait with
  | .reply request =>
    let (engine, reply) := w.engine.answer request
    go { w with engine := engine } (h ▸ reply)
  | .pause _ => go w (h ▸ ())
  | .rest _ _ => go w (h ▸ ())
  | .reaperEnd _ => go w (h ▸ ())

/-- Takes a call of a task on from where it has come, until it waits, gives way or has its result; `left` is how many
waits the task may still come through.  A task that gives way has no alarm yet. -/
def drive (fuel left : Nat) (w : World) (number : Nat) (progress : CallProgress) (purpose : Purpose)
    (limit : Option Alarm) : World :=
  match fuel with
  | 0 => w
  | fuel + 1 =>
    match progress with
    | .finished result =>
      let (w, answer) := w.conclude purpose result
      w.finish number answer
    | .waiting call =>
      let wait := fun (w : World) (alarm : Option Alarm) =>
        if w.hasRung limit then
          { w with relay := call.drop w.relay }.finish number .timedOut
        else w.putTask ⟨number, .calling call purpose, alarm, limit⟩
      match w.length? call.wait with
      | none => wait w none
      | some millis =>
        if isNoWait call.wait millis then
          let (w, progress) := w.resumeCall call
          drive fuel left w number progress purpose limit
        else
          match left, millis with
          | 0, _ => wait { w with givenWay := number :: w.givenWay } none
          | left + 1, 0 =>
            let (w, progress) := w.resumeCall call
            drive fuel left w number progress purpose limit
          | _, millis =>
            let (w, alarm) := w.newAlarm millis
            wait w (some alarm)

/-- Carries a task on from the beginning of its step. -/
def enter (fuel : Nat) (w : World) (number : Nat) : Beginning → World
  | .answered answer => w.finish number answer
  | .sleeping 0 => w.finish number .nothing
  | .sleeping millis =>
    let (w, alarm) := w.newAlarm millis
    w.putTask { number := number, activity := .sleeping, alarm := some alarm }
  | .joining task =>
    match w.answers.get? task with
    | some answer => w.finish number answer
    | none => w.putTask { number := number, activity := .joining task }
  | .calling progress purpose none => drive fuel stamina w number progress purpose none
  | .calling progress purpose (some millis) =>
    let (w, limit) := w.newAlarm millis
    drive fuel stamina w number progress purpose (some limit)

/-- Gives a task its turn. -/
def turn (fuel : Nat) (w : World) (t : Task) : World :=
  match t.activity with
  | .fresh step =>
    let (w, beginning) := w.beginStep step
    enter fuel w t.number beginning
  | .freshReaper id =>
    let (relay, progress) := Call.lift .reaping (fun _ => .nothing) (Reaping.settle w.relay id)
    drive fuel stamina { w with relay := relay } t.number progress .answer none
  | .sleeping => if w.hasRung t.alarm then w.finish t.number .nothing else w
  | .joining task =>
    match w.answers.get? task with
    | some answer => w.finish t.number answer
    | none => w
  | .calling call purpose =>
    if w.isReleased t || w.hasRung t.alarm then
      let (w, progress) := w.resumeCall call
      drive fuel (stamina - 1) w t.number progress purpose t.limit
    else if t.alarm.isNone && (w.length? call.wait).isSome then
      drive fuel stamina w t.number (.waiting call) purpose t.limit
    else if w.hasRung t.limit then { w with relay := call.drop w.relay }.finish t.number .timedOut
    else w

/-- Gives the first task in line its turn. -/
def firstTurn (fuel : Nat) (w : World) : World :=
  match w.turns with
  | [] => w
  | number :: rest =>
    let w := { w with turns := rest, turnsTaken := w.turnsTaken + (if number = foreground then 0 else 1) }
    match w.tasks.find? fun t => t.number = number with
    | some t => (turn fuel w t).giveTurns
    | none => w

/-- Lets the tasks take turns until every one of them waits. -/
def settle (fuel : Nat) (w : World) : World :=
  match fuel with
  | 0 => w
  | fuel + 1 =>
    if w.isAtRest then w.nextRound
    else settle fuel (if w.isRoundOver then w.nextRound else firstTurn fuel w)

/-- Lets the tasks take turns, and the time go by, until the step at hand has its answer. -/
def await (fuel : Nat) (w : World) : World × Answer :=
  match fuel with
  | 0 => (w, .stuck)
  | fuel + 1 =>
    match w.answers.get? foreground with
    | some answer => ({ w with answers := w.answers.erase foreground }, answer)
    | none =>
      if w.isAtRest && !w.isForegroundReady then
        match w.jump? with
        | some w => await fuel w
        | none => (w, .stuck)
      else await fuel (if w.isRoundOver then w.nextRound else firstTurn fuel w)

/-- More turns than any simulation takes. -/
def patience : Nat := Nat.pow 10 12

/-- Carries out a step. -/
def perform (w : World) (step : Step) : World × Answer :=
  let w := (turn patience w { number := foreground, activity := .fresh step }).giveTurns
  let (w, answer) := await patience w
  (settle patience w, answer)

end World

/-- What is told of one step. -/
structure Report where
  answer : Answer
  happenings : List Happening
  clock : Nat
deriving Inhabited

/-- How a simulation begins. -/
structure Setup where
  settings : Settings := {}
  executor : Option ExecutorConfig := none
  /-- Whether a reaper runs from the start. -/
  reaper : Bool := true
deriving Inhabited

/-- The world in which a simulation begins. -/
def Setup.world (s : Setup) : World :=
  let w : World := { relay := .new s.settings, executor := s.executor }
  if s.reaper then (w.perform .startReaper).1 else w

/-- Carries out all steps. -/
def run (setup : Setup) (steps : List Step) : List Report :=
  let step := fun (acc : World × List Report) (step : Step) =>
    let (w, answer) := acc.1.perform step
    let report : Report := ⟨answer, w.relay.log, w.clock⟩
    ({ w with relay := { w.relay with log := [] } }, report :: acc.2)
  (steps.foldl step (setup.world, [])).2.reverse

end Simulation

end QueryRelay
