import QueryRelay.Executor.Work

/-!
# Calls

A `Call` is any call of the library at a point where it waits.  Calls run side by side on one relay: whoever drives them
picks a call whose wait is over and goes on with it, or drops a call while it waits.  Between two waits a call has the
relay for itself.
-/

namespace QueryRelay

/-- A call at a point where it waits. -/
inductive Call where
  | opening (o : Opening)
  | closing (c : Closing)
  | closingAll (c : ClosingAll)
  | sweeping (s : Sweep)
  | stopping (s : Stopping)
  | reaping (p : Reaping)
  | transacting (t : TransactionRun)
  | executing (e : Execution)
  | closingClient (c : ClientClosing)
  | query (q : Query)
  | operating (o : Operation)
  | chunking (config : ExecutorConfig) (c : ChunkRun)
  | shuttingDown (s : Shutdown)
deriving Repr, Inhabited

/-- What a call gives its caller. -/
inductive CallResult where
  | nothing
  | session (outcome : Except Failure SessionHandle)
  | outcome (outcome : Except Failure Unit)
  | closeFailures (failures : CloseFailures)
  | swept (closed : Nat)
  | results (outcome : Except Failure (List QueryResult))
  | result (outcome : Except Failure QueryResult)
  | records (outcome : Except Failure (List Fields))
deriving Repr, Inhabited

/-- How far a call has come. -/
abbrev CallProgress := Progress Call CallResult

namespace Call

/-- What a call waits for. -/
abbrev wait : Call → Wait
  | opening o => o.wait
  | closing c => c.wait
  | closingAll c => c.wait
  | sweeping s => s.wait
  | stopping s => s.wait
  | reaping p => p.wait
  | transacting t => t.wait
  | executing e => e.wait
  | closingClient c => c.wait
  | query q => q.wait
  | operating o => o.wait
  | chunking _ c => c.wait
  | shuttingDown s => s.wait

/-- Looks at the steps of one kind of call as those of any call. -/
def lift {σ α : Type} (point : σ → Call) (result : α → CallResult) :
    Relay × Progress σ α → Relay × CallProgress
  | (r, p) => (r, p.map point result)

/-- Goes on with a call whose wait is over. -/
def resume : (c : Call) → c.wait.Answer → Relay → Relay × CallProgress
  | opening o, reply, r =>
    let (r, outcome) := o.resume reply r
    (r, .finished (.session outcome))
  | closing c, reply, r =>
    let (r, outcome) := c.resume reply r
    (r, .finished (.outcome outcome))
  | closingAll c, reply, r => lift closingAll .closeFailures (c.resume reply r)
  | sweeping s, reply, r => lift sweeping .swept (s.resume reply r)
  | stopping _, _, r => (r, .finished .nothing)
  | reaping p, reply, r => lift reaping (fun _ => .nothing) (p.resume reply r)
  | transacting t, reply, r => lift transacting .results (t.resume reply r)
  | executing e, reply, r => lift executing .records (e.resume reply r)
  | closingClient _, reply, r => (r, .finished (.outcome reply))
  | query q, reply, r => lift query .result (q.resume reply r)
  | operating o, reply, r => lift operating .results (o.resume reply r)
  | chunking config c, reply, r => lift (chunking config) .results (c.resume config reply r)
  | shuttingDown s, reply, r => lift shuttingDown .outcome (s.resume reply r)

/-- Gives up a call that waits. -/
def drop : Call → Relay → Relay
  | opening _, r => Opening.drop r
  | transacting t, r => t.drop r
  | query q, r => q.operation.drop r
  | operating o, r => o.drop r
  | chunking _ c, r => c.current.operation.drop r
  | _, r => r

end Call

end QueryRelay
