import QueryRelay.Simulation.Step

/-!
# Tasks on a virtual clock

The state of a simulation, and how its tasks take turns.  Time stands still while some task can go on; then the clock
jumps to the next alarm.  Tasks that can go on take their turns in the order in which they became able to; where several
wake at one moment, they do so in the order in which they set their alarms.  The step at hand goes first when its alarm
goes off; when it is released otherwise, the tasks that can go on go before it.

A turn lasts until the task waits.  A wait of no time is over at once, but a task comes through at most `stamina` waits
in one turn: then it gives way before the next wait, which begins when the task goes on.  Turns are taken in rounds: a
round ends when no task is left in line, or after `roundLength` turns.  The next one begins with the step at hand, if it
can go on; then come the tasks left in line, and last those that gave way, in the order opposite to that in which they
did.  A reaper that has no interval gives way again and again; while it has nothing to sweep it does not keep the others
from coming to rest.
-/

namespace QueryRelay

namespace Simulation

/-- A moment at which a task is to be woken; `order` tells apart alarms for the same millisecond. -/
structure Alarm where
  time : Nat
  order : Nat
deriving Repr, DecidableEq, Inhabited

/-- Whether one alarm goes off before another. -/
def Alarm.before (a b : Alarm) : Bool := a.time < b.time || (a.time = b.time && a.order ≤ b.order)

/-- What is done with the result of a call. -/
inductive Purpose where
  /-- It is the answer. -/
  | answer
  /-- A session that was opened is kept under a name. -/
  | keep (session : String)
deriving Repr, DecidableEq, Inhabited

/-- What a task is doing. -/
inductive Activity where
  /-- It has not begun. -/
  | fresh (step : Step)
  | freshReaper (reaper : ReaperId)
  | calling (call : Call) (purpose : Purpose)
  | sleeping
  | joining (task : Nat)
deriving Repr, Inhabited

/-- A task that has not ended. -/
structure Task where
  number : Nat
  activity : Activity
  alarm : Option Alarm := none
  /-- When the task is given up. -/
  limit : Option Alarm := none
deriving Repr, Inhabited

/-- The state of a simulation. -/
structure World where
  relay : Relay
  executor : Option ExecutorConfig := none
  engine : Engine := {}
  /-- Milliseconds since the start. -/
  clock : Nat := 0
  handles : Table String SessionHandle := Table.empty
  tasks : List Task := []
  /-- The tasks that can go on, first first. -/
  turns : List Nat := []
  /-- The tasks that gave way, last first. -/
  givenWay : List Nat := []
  /-- How many turns of this round have been taken, apart from those of the step at hand. -/
  turnsTaken : Nat := 0
  /-- The answers of tasks that have ended. -/
  answers : Table Nat Answer := Table.empty
  /-- The tasks that can be joined, by name. -/
  names : Table String Nat := Table.empty
  nextTask : Nat := 1
  nextAlarm : Nat := 0
  /-- The circuit that was tripped last. -/
  tripped : Option String := none
deriving Inhabited

/-- The number of the task that carries out the step at hand. -/
def foreground : Nat := 0

/-- How many waits a task comes through in one turn.  An answer that the engine gives at once is no wait. -/
def stamina : Nat := 128

/-- How many turns a round has at most. -/
def roundLength : Nat := 61

/-- The longest wait, in milliseconds: thirty years of 365 days.  Whoever waits for longer waits for that long. -/
def longestWait : Nat := 30 * 365 * 24 * 60 * 60 * 1000

namespace World

/-- Sets the clock. -/
def setClock (w : World) (clock : Nat) : World :=
  { w with clock := clock, relay := { w.relay with now := (Duration.ofMillis clock).nanos } }

/-- An alarm some milliseconds from now. -/
def newAlarm (w : World) (millis : Nat) : World × Alarm :=
  ({ w with nextAlarm := w.nextAlarm + 1 }, ⟨w.clock + Nat.min millis longestWait, w.nextAlarm⟩)

/-- Whether an alarm has gone off. -/
def hasRung (w : World) : Option Alarm → Bool
  | some alarm => alarm.time ≤ w.clock
  | none => false

/-- Puts a task on the list, or replaces it there. -/
def putTask (w : World) (t : Task) : World :=
  { w with tasks := w.tasks.filter (fun u => u.number ≠ t.number) ++ [t] }

/-- Takes a task off the list. -/
def removeTask (w : World) (number : Nat) : World :=
  { w with
    tasks := w.tasks.filter fun t => t.number ≠ number
    turns := w.turns.filter fun n => n ≠ number
    givenWay := w.givenWay.filter fun n => n ≠ number }

/-- Starts a task, which gets its turn after those that wait for theirs. -/
def addTask (w : World) (activity : Activity) : World × Nat :=
  let number := w.nextTask
  ({ w.putTask { number := number, activity := activity } with
      nextTask := number + 1, turns := w.turns ++ [number] }, number)

/-- Whether what a task waits for has come about, apart from its alarm. -/
def isReleased (w : World) (t : Task) : Bool :=
  match t.activity with
  | .fresh _ => true
  | .freshReaper _ => true
  | .sleeping => false
  | .joining task => w.answers.contains task
  | .calling call _ =>
    match call.wait with
    | .rest _ reaper => decide (w.relay.reapers.get? reaper ≠ some .running)
    | .reaperEnd reaper => decide (w.relay.reapers.get? reaper = some .ended)
    | _ => false

/-- Whether a task can go on. -/
def isReady (w : World) (t : Task) : Bool := w.isReleased t || w.hasRung t.alarm || w.hasRung t.limit

/-- The alarm that has woken a task; a task that woke without one counts as the last. -/
def wakingAlarm (w : World) (t : Task) : Alarm :=
  let rung := [t.alarm, t.limit].filter w.hasRung
  (rung.head?.join).getD ⟨w.clock, w.nextAlarm⟩

/-- Whether a task is on one of the lists of those that can go on. -/
def isInLine (w : World) (t : Task) : Bool := w.turns.contains t.number || w.givenWay.contains t.number

/-- Gives a turn to the tasks that have become able to go on, after those that wait for theirs. -/
def giveTurns (w : World) : World :=
  let woken := w.tasks.filter fun t => t.number ≠ foreground && w.isReady t && !w.isInLine t
  let woken := woken.mergeSort fun a b => (w.wakingAlarm a).before (w.wakingAlarm b)
  { w with turns := w.turns ++ woken.map Task.number }

/-- Whether the step at hand can go on. -/
def isForegroundReady (w : World) : Bool := w.tasks.any fun t => t.number = foreground && w.isReady t

/-- Whether a task is a reaper without interval that has nothing to sweep. -/
def isIdle (w : World) (number : Nat) : Bool :=
  match w.tasks.find? fun t => t.number = number with
  | some { activity := .calling call _, .. } =>
    match call.wait with
    | .rest span reaper =>
      span.ticks = 0 && w.relay.reapers.get? reaper = some .running
        && (w.relay.registry.reapable w.relay.settings.limits w.relay.now).isEmpty
    | _ => false
  | _ => false

/-- Whether no task can go on, apart from the step at hand and idle reapers. -/
def isAtRest (w : World) : Bool := w.turns.all w.isIdle && w.givenWay.all w.isIdle

/-- Whether the round is over. -/
def isRoundOver (w : World) : Bool := w.turns.isEmpty || decide (roundLength ≤ w.turnsTaken)

/-- Gives turns to the tasks that gave way, and before all others to the step at hand if it can go on. -/
def nextRound (w : World) : World :=
  let first := if w.isForegroundReady || w.givenWay.contains foreground then [foreground] else []
  { w with
    turns := first ++ (w.turns ++ w.givenWay).filter (fun n => n ≠ foreground)
    givenWay := []
    turnsTaken := 0 }

/-- The moment of the next alarm. -/
def nextRing? (w : World) : Option Nat :=
  let waiting := w.tasks.filter fun t => !w.isInLine t
  let times := waiting.flatMap fun t => [t.alarm, t.limit].filterMap fun a => a.map Alarm.time
  times.min?

/-- Jumps to the next alarm and gives turns to the tasks that it wakes, the step at hand first. -/
def jump? (w : World) : Option World :=
  w.nextRing?.map fun time =>
    let w := { (w.setClock (Nat.max time w.clock)).giveTurns with turnsTaken := 0 }
    if w.isForegroundReady then { w with turns := foreground :: w.turns } else w

end World

end Simulation

end QueryRelay
