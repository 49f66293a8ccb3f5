import QueryRelay.Relay.Basic

/-!
# Waiting

Between its steps a call waits: for an answer of the engine, for some time to pass, or for a background reaper to end.
A call that has come to such a point is `Progress.waiting`; what it is told when the wait is over is a `Wait.Answer`.
-/

namespace QueryRelay

/-- What a call waits for. -/
inductive Wait where
  /-- The engine's answer to a request. -/
  | reply (request : Request)
  /-- Some time. -/
  | pause (span : Duration)
  /-- Some time, or the moment when the reaper is told to stop, if that comes first. -/
  | rest (span : Duration) (reaper : ReaperId)
  /-- The end of a reaper. -/
  | reaperEnd (reaper : ReaperId)
deriving Repr, Inhabited

/-- What a call is told when its wait is over. -/
abbrev Wait.Answer : Wait → Type
  | .reply request => request.Reply
  | _ => Unit

/-- How far a call has come: it waits at some point, or it has its result. -/
inductive Progress (σ α : Type) where
  | waiting (point : σ)
  | finished (result : α)
deriving Repr, Inhabited

namespace Progress

/-- Looks at the points and results of one kind of call as those of another. -/
def map {σ τ α β : Type} (point : σ → τ) (result : α → β) : Progress σ α → Progress τ β
  | waiting p => waiting (point p)
  | finished a => finished (result a)

end Progress

end QueryRelay
