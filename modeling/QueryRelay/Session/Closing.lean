import QueryRelay.Relay.Wait

/-!
# Closing sessions

A closing moves its session to the status *closing*, waits for the engine, and then drops the session whatever the
engine says.  An idle sweep closes the reapable sessions of one moment one after another; closing all sessions first
stops the reaper, waiting for a sweep in progress, and then does the same with every tracked session.  A closing that is
dropped while it waits leaves its session in the status *closing*.
-/

namespace QueryRelay

/-! ## One session -/

/-- A closing that waits for the engine. -/
structure Closing where
  id : SessionId
  remote : RemoteSession
  database : Option String
deriving Repr, Inhabited

namespace Closing

/-- What a closing waits for. -/
abbrev wait (c : Closing) : Wait := .reply (.closeSession c.remote)

/-- Starts to close a session.  There is nothing to do for one that is not tracked or already being closed. -/
def start (r : Relay) (id : SessionId) : Relay × Progress Closing (Except Failure Unit) :=
  match r.registry.sessions.get? id with
  | none => (r, .finished (.ok ()))
  | some t =>
    if t.state.status = .closing then (r, .finished (.ok ()))
    else
      let r := r.withRegistry fun g => g.update id fun s => s.transition .closing
      (r.ask (.closeSession t.remote), .waiting ⟨id, t.remote, t.state.database⟩)

/-- The label for how a closing ended. -/
def outcomeLabel : Except Failure Unit → String
  | .ok _ => "closed"
  | .error _ => "error"

/-- Goes on with the engine's answer. -/
def resume (c : Closing) (reply : Except Failure Unit) (r : Relay) : Relay × Except Failure Unit :=
  let r := r.withRegistry fun g => g.remove c.id
  let r := r.count .sessionsClosed [("outcome", outcomeLabel reply), ("database", databaseLabel c.database)]
  (r.reportSessions, reply)

end Closing

/-! ## Idle sweeps -/

/-- A sweep that waits for one of its closings. -/
structure Sweep where
  current : Closing
  /-- The sessions that remain of those that were reapable when the sweep began. -/
  rest : List SessionId
  /-- How many closings went well so far. -/
  closed : Nat
deriving Repr, Inhabited

namespace Sweep

/-- What a sweep waits for. -/
abbrev wait (s : Sweep) : Wait := s.current.wait

/-- Goes through the sessions that remain. -/
def proceed (r : Relay) : List SessionId → Nat → Relay × Progress Sweep Nat
  | [], closed => (r, .finished closed)
  | id :: rest, closed =>
    match Closing.start r id with
    | (r, .waiting c) => (r, .waiting ⟨c, rest, closed⟩)
    | (r, .finished (.ok _)) => proceed r rest (closed + 1)
    | (r, .finished (.error _)) => proceed r rest closed

/-- Starts a sweep; its result is how many sessions were closed. -/
def start (r : Relay) : Relay × Progress Sweep Nat :=
  proceed r (r.registry.reapable r.settings.limits r.now) 0

/-- Goes on with the engine's answer. -/
def resume (s : Sweep) (reply : Except Failure Unit) (r : Relay) : Relay × Progress Sweep Nat :=
  match s.current.resume reply r with
  | (r, .ok _) => proceed r s.rest (s.closed + 1)
  | (r, .error _) => proceed r s.rest s.closed

end Sweep

/-! ## The background reaper -/

namespace Relay

/-- Whether a reaper runs and nobody has told it to stop. -/
def hasReaper (r : Relay) : Bool :=
  match r.reaper with
  | some id => decide (r.reapers.get? id ≠ some .ended)
  | none => false

/-- Starts a reaper unless there is one; the result is the new reaper. -/
def startReaper (r : Relay) : Relay × Option ReaperId :=
  if r.hasReaper then (r, none)
  else
    let id : ReaperId := ⟨r.reapers.size + 1⟩
    ({ r with reapers := r.reapers.insert id .running, reaper := some id }, some id)

/-- Tells the reaper, if there is one, to stop; the result is that reaper. -/
def tellReaper (r : Relay) : Relay × Option ReaperId :=
  match r.reaper with
  | some id =>
    let tell := fun (phase : ReaperPhase) => if phase = .ended then phase else .told
    ({ r with reapers := r.reapers.modify id tell, reaper := none }, some id)
  | none => (r, none)

end Relay

/-- Where a background reaper waits. -/
inductive Reaping where
  /-- Between two sweeps. -/
  | resting (id : ReaperId) (interval : Duration)
  /-- In a sweep. -/
  | sweeping (id : ReaperId) (sweep : Sweep)
deriving Repr, Inhabited

namespace Reaping

/-- What a reaper waits for. -/
abbrev wait : Reaping → Wait
  | resting id interval => .rest interval id
  | sweeping _ sweep => sweep.wait

/-- A reaper between two sweeps: it ends there if it was told to stop. -/
def settle (r : Relay) (id : ReaperId) : Relay × Progress Reaping Unit :=
  if r.reapers.get? id = some .running then (r, .waiting (resting id r.settings.limits.cleanupInterval))
  else ({ r with reapers := r.reapers.insert id .ended }, .finished ())

/-- A reaper whose sweep has come so far. -/
def ofSweep (id : ReaperId) : Relay × Progress Sweep Nat → Relay × Progress Reaping Unit
  | (r, .waiting sweep) => (r, .waiting (sweeping id sweep))
  | (r, .finished _) => settle r id

/-- Goes on when the wait is over. -/
def resume : (p : Reaping) → p.wait.Answer → Relay → Relay × Progress Reaping Unit
  | resting id _, _, r =>
    if r.reapers.get? id = some .running then ofSweep id (Sweep.start r) else settle r id
  | sweeping id sweep, reply, r => ofSweep id (sweep.resume reply r)

end Reaping

/-- Stopping the reaper, at the point where it waits for it to end. -/
structure Stopping where
  reaper : ReaperId
deriving Repr, Inhabited

namespace Stopping

/-- What stopping waits for. -/
abbrev wait (s : Stopping) : Wait := .reaperEnd s.reaper

/-- Starts to stop the reaper. -/
def start (r : Relay) : Relay × Progress Stopping Unit :=
  match r.tellReaper with
  | (r, none) => (r, .finished ())
  | (r, some id) =>
    if r.reapers.get? id = some .ended then (r, .finished ()) else (r, .waiting ⟨id⟩)

end Stopping

/-! ## All sessions -/

/-- The sessions whose closing failed, with the failures. -/
abbrev CloseFailures := List (SessionId × Failure)

/-- Where closing all sessions waits. -/
inductive ClosingAll where
  /-- For the reaper to end. -/
  | stopping (s : Stopping)
  /-- For one of the closings. -/
  | closing (current : Closing) (rest : List SessionId) (failures : CloseFailures)
deriving Repr, Inhabited

namespace ClosingAll

/-- What closing all sessions waits for. -/
abbrev wait : ClosingAll → Wait
  | stopping s => s.wait
  | closing current _ _ => current.wait

/-- Goes through the sessions that remain. -/
def proceed (r : Relay) : List SessionId → CloseFailures → Relay × Progress ClosingAll CloseFailures
  | [], failures => (r, .finished failures)
  | id :: rest, failures =>
    match Closing.start r id with
    | (r, .waiting c) => (r, .waiting (closing c rest failures))
    | (r, .finished (.ok _)) => proceed r rest failures
    | (r, .finished (.error e)) => proceed r rest (failures ++ [(id, e)])

/-- Closes the sessions that are tracked now. -/
def closeTracked (r : Relay) : Relay × Progress ClosingAll CloseFailures := proceed r r.registry.sessions.keys []

/-- Starts to close all sessions; the result is what went wrong. -/
def start (r : Relay) : Relay × Progress ClosingAll CloseFailures :=
  match Stopping.start r with
  | (r, .waiting s) => (r, .waiting (stopping s))
  | (r, .finished _) => closeTracked r

/-- Goes on when the wait is over. -/
def resume : (p : ClosingAll) → p.wait.Answer → Relay → Relay × Progress ClosingAll CloseFailures
  | stopping _, _, r => closeTracked r
  | closing current rest failures, reply, r =>
    match current.resume reply r with
    | (r, .ok _) => proceed r rest failures
    | (r, .error e) => proceed r rest (failures ++ [(current.id, e)])

end ClosingAll

end QueryRelay
