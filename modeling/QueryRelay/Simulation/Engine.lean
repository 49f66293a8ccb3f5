import QueryRelay.Remote
import QueryRelay.Table

/-!
# A scripted engine

An engine whose answers are scripted: every kind of call has a queue of outcomes, and a delay.  A call that finds its
queue empty succeeds.  Clients and remote sessions get ascending numbers as they come into being.
-/

namespace QueryRelay

namespace Simulation

/-- A scripted outcome. -/
inductive Scripted where
  | success
  | failure (failure : Failure)
  /-- Success with a result, for calls that give one. -/
  | result (raw : RawResult)
deriving Repr, Inhabited

/-- The failure that an outcome is, if it is one. -/
def Scripted.failure? : Scripted → Option Failure
  | failure e => some e
  | _ => none

/-- The engine's script and how far it has come. -/
structure Engine where
  /-- The outcomes still to come, by queue. -/
  queues : Table String (List Scripted) := Table.empty
  /-- How long calls take, in milliseconds, by kind of call. -/
  delays : Table String Nat := Table.empty
  /-- The result of calls that succeed without one. -/
  standard : RawResult := {}
  /-- How many sessions were opened. -/
  opened : Nat := 0
deriving Inhabited

/-- The kind of call that a request is. -/
def callName : Request → String
  | .openSession _ _ _ => "open"
  | .beginTransaction _ => "begin"
  | .run _ _ => "run"
  | .commit _ => "commit"
  | .rollback _ => "rollback"
  | .closeSession _ => "close"
  | .execute _ _ _ _ => "execute"
  | .closeClient _ => "client_close"

/-- The queue from which a request takes its outcome; every session has one of its own for its closing. -/
def queueName : Request → String
  | .closeSession session => "close " ++ toString session.number
  | request => callName request

namespace Engine

/-- Appends outcomes to a queue. -/
def append (e : Engine) (queue : String) (outcomes : List Scripted) : Engine :=
  { e with queues := e.queues.insert queue ((e.queues.get? queue).getD [] ++ outcomes) }

/-- How long a request takes, in milliseconds. -/
def delay (e : Engine) (request : Request) : Nat := (e.delays.get? (callName request)).getD 0

/-- Takes the next outcome out of a queue. -/
def take (e : Engine) (queue : String) : Engine × Scripted :=
  match e.queues.get? queue with
  | some (outcome :: rest) => ({ e with queues := e.queues.insert queue rest }, outcome)
  | _ => (e, .success)

/-- The answer of a call that gives nothing. -/
def acknowledge (e : Engine) (queue : String) : Engine × Except Failure Unit :=
  match e.take queue with
  | (e, .failure failure) => (e, .error failure)
  | (e, _) => (e, .ok ())

/-- The answer of a call that gives rows. -/
def rows (e : Engine) (queue : String) : Engine × Except Failure RawResult :=
  match e.take queue with
  | (e, .failure failure) => (e, .error failure)
  | (e, .result raw) => (e, .ok raw)
  | (e, .success) => (e, .ok e.standard)

/-- The answer of an opening. -/
def openSession (e : Engine) : Engine × Except Failure RemoteSession :=
  match e.take "open" with
  | (e, .failure failure) => (e, .error failure)
  | (e, _) => ({ e with opened := e.opened + 1 }, .ok ⟨e.opened + 1⟩)

/-- The answer to a request. -/
def answer (e : Engine) : (request : Request) → Engine × request.Reply
  | .openSession _ _ _ => e.openSession
  | .run _ _ => e.rows "run"
  | .execute _ _ _ _ => e.rows "execute"
  | .beginTransaction _ => e.acknowledge "begin"
  | .commit _ => e.acknowledge "commit"
  | .rollback _ => e.acknowledge "rollback"
  | .closeSession session => e.acknowledge (queueName (.closeSession session))
  | .closeClient _ => e.acknowledge "client_close"

end Engine

end Simulation

end QueryRelay
