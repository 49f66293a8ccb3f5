import QueryRelay.Relay.Wait

/-!
# Opening a session

An opening takes a place in the registry, asks the breaker, and then waits for the engine at one point only, an
`Opening`.  It reports its outcome to the breaker, and recreates the client when the engine could not be reached.  An
opening that is dropped while it waits gives its place back.
-/

namespace QueryRelay

/-- The key of the circuit that guards openings. -/
def sessionCreationKey : String := "session_creation"

/-- An opening that waits for the engine. -/
structure Opening where
  client : ClientId
  database : Option String
  options : SessionOptions
deriving Repr, Inhabited

namespace Opening

/-- What an opening waits for. -/
abbrev wait (o : Opening) : Wait := .reply (.openSession o.client o.database o.options)

/-- Starts to open a session. -/
def start (r : Relay) (database : Option String) (options : Option SessionOptions) :
    Relay × Progress Opening (Except Failure SessionHandle) :=
  match r.registry.reserve? r.settings.limits with
  | none =>
    (r, .finished (.error (.resourceExhausted r.registry.occupied r.settings.limits.maxSessions)))
  | some registry =>
    let (r, admitted) := { r with registry := registry }.canExecute sessionCreationKey
    if admitted then
      match r.acquireClient with
      | (r, .ok client) =>
        let o : Opening := ⟨client, database <|> r.settings.connection.database, options.getD {}⟩
        (r.ask (.openSession o.client o.database o.options), .waiting o)
      | (r, .error e) =>
        ((r.recordFailure sessionCreationKey).withRegistry Registry.release, .finished (.error e))
    else (r.withRegistry Registry.release, .finished (.error (.circuitOpen sessionCreationKey)))

/-- Goes on with the engine's answer. -/
def resume (o : Opening) (reply : Except Failure RemoteSession) (r : Relay) :
    Relay × Except Failure SessionHandle :=
  match reply with
  | .ok remote =>
    let (registry, handle) := r.registry.track o.database remote r.now
    let r := { r with registry := registry }.recordSuccess sessionCreationKey
    ((r.count .sessionsCreated [("database", databaseLabel o.database)]).reportSessions, .ok handle)
  | .error e =>
    let r := r.recordFailure sessionCreationKey
    let r := match e with
      | .connectionFailure _ => r.recreateClient.1
      | _ => r
    (r.withRegistry Registry.release, .error e)

/-- Gives up an opening that waits. -/
def drop (r : Relay) : Relay := r.withRegistry Registry.release

end Opening

end QueryRelay
