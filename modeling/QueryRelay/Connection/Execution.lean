import QueryRelay.Relay.Wait

/-!
# Statements outside a session

`Execution` runs one statement on the connection's client, without a session.  When the connection seems to be at fault
it waits, replaces the client and tries again, as often as the settings allow.
-/

namespace QueryRelay

/-- Where an execution waits; attempts are counted from one. -/
inductive Execution where
  /-- For the engine. -/
  | executing (client : ClientId) (database : Option String) (routing : RoutingMode) (statement : Statement)
      (attempt : Nat)
  /-- For the delay before the client is replaced. -/
  | delaying (span : Duration) (routing : RoutingMode) (statement : Statement) (attempt : Nat)
deriving Repr, Inhabited

namespace Execution

/-- What becomes of an execution. -/
abbrev Outcome := Except Failure (List Fields)

/-- What an execution waits for. -/
abbrev wait : Execution → Wait
  | executing client database routing statement _ => .reply (.execute client database routing statement)
  | delaying span _ _ _ => .pause span

/-- Tries the statement on a client. -/
def tryOn (client : ClientId) (routing : RoutingMode) (statement : Statement) (attempt : Nat) (r : Relay) :
    Relay × Progress Execution Outcome :=
  let database := r.settings.connection.database
  (r.ask (.execute client database routing statement),
    .waiting (executing client database routing statement attempt))

/-- Starts to run a statement. -/
def start (r : Relay) (routing : RoutingMode) (statement : Statement) : Relay × Progress Execution Outcome :=
  match r.acquireClient with
  | (r, .ok client) => tryOn client routing statement 1 r
  | (r, .error e) => (r, .finished (.error e))

/-- Goes on when the wait is over. -/
def resume : (p : Execution) → p.wait.Answer → Relay → Relay × Progress Execution Outcome
  | executing _ _ _ _ _, .ok raw, r => (r, .finished (.ok raw.records))
  | executing _ _ routing statement attempt, .error e, r =>
    if e.isConnectionRelated && decide (attempt < r.settings.connection.maxAttempts) then
      (r, .waiting (delaying r.settings.connection.reconnectDelay routing statement attempt))
    else (r, .finished (.error e))
  | delaying _ routing statement attempt, _, r =>
    match r.recreateClient with
    | (r, .ok client) => tryOn client routing statement (attempt + 1) r
    | (r, .error e) => (r, .finished (.error e))

end Execution

/-- The end of a client, at the point where it waits for the engine. -/
structure ClientClosing where
  client : ClientId
deriving Repr, Inhabited

namespace ClientClosing

/-- What the end of a client waits for. -/
abbrev wait (c : ClientClosing) : Wait := .reply (.closeClient c.client)

/-- Takes the client out of the connection and closes it. -/
def start (r : Relay) : Relay × Progress ClientClosing (Except Failure Unit) :=
  let (slot, client) := r.slot.take
  let r := { r with slot := slot }
  match client with
  | some client => (r.ask (.closeClient client), .waiting ⟨client⟩)
  | none => (r, .finished (.ok ()))

end ClientClosing

end QueryRelay
