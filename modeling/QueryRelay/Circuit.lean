import QueryRelay.Codec.Record
import QueryRelay.Table

/-!
# Circuit breakers

A breaker keeps one circuit for every key on which something was reported.  A circuit opens once `failureThreshold`
failures lie within `resetTimeout`; `halfOpenTimeout` after its last failure it lets one trial call through, whose
outcome closes or reopens it.  A trial without an outcome is given up after `halfOpenTimeout`, and another one is let
through.  Time is an argument of the operations, in nanoseconds since some fixed start.
-/

namespace QueryRelay

/-- A point in time: nanoseconds since some fixed start. -/
abbrev Instant := Nat

/-- The time from one instant to a later one. -/
def Instant.since (now start : Instant) : Duration := ⟨now - start⟩

/-- When circuits open, and for how long. -/
structure CircuitConfig where
  failureThreshold : Nat := 5
  resetTimeout : Duration := .ofWholeSeconds 60
  halfOpenTimeout : Duration := .ofWholeSeconds 30
deriving Repr, DecidableEq, Inhabited

namespace CircuitConfig

def reader : RecordReader CircuitConfig :=
  CircuitConfig.mk <$> .field "failure_threshold" .size (.default 5)
    <*> .field "reset_timeout" .duration (.default (.ofWholeSeconds 60))
    <*> .field "half_open_timeout" .duration (.default (.ofWholeSeconds 30))

def codec : Codec CircuitConfig :=
  reader.codec "CircuitBreakerConfig" fun c =>
    .object
      [("failure_threshold", .ofNat c.failureThreshold),
        ("reset_timeout", Codec.duration.encode c.resetTimeout),
        ("half_open_timeout", Codec.duration.encode c.halfOpenTimeout)]

end CircuitConfig

/-- Whether calls pass. -/
inductive CircuitState where
  | closed
  | opened
  | halfOpen
deriving Repr, DecidableEq, Inhabited

namespace CircuitState

def all : List CircuitState := [closed, opened, halfOpen]

def name : CircuitState → String
  | closed => "closed"
  | opened => "open"
  | halfOpen => "half_open"

def codec : Codec CircuitState := .choice all name

end CircuitState

/-- What is kept for one key. -/
structure Circuit where
  /-- When the failures were reported that are still kept, oldest first. -/
  failures : List Instant := []
  state : CircuitState := .closed
  /-- When the current trial call was let through. -/
  trialAt : Option Instant := none
deriving Repr, DecidableEq, Inhabited

namespace Circuit

/-- The failures that are younger than the window at the given instant. -/
def recent (config : CircuitConfig) (now : Instant) (failures : List Instant) : List Instant :=
  failures.dropWhile fun t => config.resetTimeout ≤ Instant.since now t

/-- Takes in a failure.  A failure of a trial reopens the circuit at once. -/
def fail (config : CircuitConfig) (now : Instant) (c : Circuit) : Circuit :=
  let failures := recent config now (c.failures ++ [now])
  if c.state = .halfOpen ∨ config.failureThreshold ≤ failures.length then ⟨failures, .opened, none⟩
  else { c with failures := failures }

/-- Takes in a success: the circuit closes and its failures are forgotten. -/
def succeed : Circuit := {}

/-- Whether `halfOpenTimeout` has gone by since an instant; where there is none, it has. -/
def hasCooled (config : CircuitConfig) (now : Instant) : Option Instant → Bool
  | some t => config.halfOpenTimeout ≤ Instant.since now t
  | none => true

/-- Whether a call may pass, and the circuit after that decision. -/
def pass (config : CircuitConfig) (now : Instant) (c : Circuit) : Circuit × Bool :=
  match c.state with
  | .closed => (c, true)
  | .opened =>
    if hasCooled config now c.failures.getLast? then ({ c with state := .halfOpen, trialAt := some now }, true)
    else (c, false)
  | .halfOpen => if hasCooled config now c.trialAt then ({ c with trialAt := some now }, true) else (c, false)

end Circuit

/-- The circuits of all keys. -/
structure Breaker where
  config : CircuitConfig
  circuits : Table String Circuit
deriving Inhabited

namespace Breaker

/-- A breaker on which nothing was reported. -/
def new (config : CircuitConfig) : Breaker := ⟨config, Table.empty⟩

/-- Reports a failure of a call for a key. -/
def recordFailure (b : Breaker) (now : Instant) (key : String) : Breaker :=
  { b with circuits := b.circuits.insert key (((b.circuits.get? key).getD {}).fail b.config now) }

/-- Reports a success of a call for a key. -/
def recordSuccess (b : Breaker) (key : String) : Breaker :=
  { b with circuits := b.circuits.modify key fun _ => .succeed }

/-- Whether a call for a key may pass, and the breaker after that decision. -/
def canExecute (b : Breaker) (now : Instant) (key : String) : Breaker × Bool :=
  match b.circuits.get? key with
  | none => (b, true)
  | some c =>
    let (c, admitted) := c.pass b.config now
    ({ b with circuits := b.circuits.insert key c }, admitted)

/-- Drops what is kept for a key. -/
def forget (b : Breaker) (key : String) : Breaker := { b with circuits := b.circuits.erase key }

/-- The state of a key's circuit; a key without one is closed. -/
def state (b : Breaker) (key : String) : CircuitState := ((b.circuits.get? key).map Circuit.state).getD .closed

/-- How many failures are kept for a key. -/
def failureCount (b : Breaker) (key : String) : Nat :=
  ((b.circuits.get? key).map fun c => c.failures.length).getD 0

end Breaker

end QueryRelay
