import QueryRelay.Remote

/-!
# The client slot

A connection keeps at most one client, which it gets from a factory: on first use, and anew whenever a failure suggests
that the old one is stale.  The factory hands out clients under ascending numbers; its outcomes are scripted.
-/

namespace QueryRelay

/-- Where clients come from: the outcomes still to come, and how many clients there were. -/
structure ClientFactory where
  /-- What the next calls give: a failure, or a client where there is none.  After the last one every call succeeds. -/
  outcomes : List (Option Failure) := []
  made : Nat := 0
deriving Repr, Inhabited

namespace ClientFactory

/-- Asks for a client. -/
def make (f : ClientFactory) : ClientFactory × Except Failure ClientId :=
  match f.outcomes with
  | some failure :: rest => ({ f with outcomes := rest }, .error failure)
  | _ => (⟨f.outcomes.tail, f.made + 1⟩, .ok ⟨f.made + 1⟩)

end ClientFactory

/-- How a connection behaves. -/
structure ConnectionSettings where
  /-- The database of sessions that do not name one. -/
  database : Option String := none
  /-- How often a statement outside a session is tried. -/
  maxAttempts : Nat := 2
  /-- How long to wait before the next try. -/
  reconnectDelay : Duration := .ofMillis 100
  /-- Whether the connection reports its metrics. -/
  reports : Bool := true
deriving Repr, DecidableEq, Inhabited

/-- Sets how often a statement is tried, which is at least once, and the wait between two tries. -/
def ConnectionSettings.withReconnect (s : ConnectionSettings) (attempts : Nat) (delay : Duration) :
    ConnectionSettings :=
  { s with maxAttempts := Nat.max attempts 1, reconnectDelay := delay }

/-- The connection's client, and where the next one comes from. -/
structure ClientSlot where
  factory : ClientFactory := {}
  client : Option ClientId := none
deriving Repr, Inhabited

namespace ClientSlot

/-- Replaces the client by a fresh one; a failing factory changes nothing. -/
def recreate (s : ClientSlot) : ClientSlot × Except Failure ClientId :=
  match s.factory.make with
  | (factory, .ok client) => (⟨factory, some client⟩, .ok client)
  | (factory, .error e) => ({ s with factory := factory }, .error e)

/-- The client, made if there is none. -/
def acquire (s : ClientSlot) : ClientSlot × Except Failure ClientId :=
  match s.client with
  | some client => (s, .ok client)
  | none => s.recreate

/-- Takes the client out. -/
def take (s : ClientSlot) : ClientSlot × Option ClientId := ({ s with client := none }, s.client)

end ClientSlot

end QueryRelay
