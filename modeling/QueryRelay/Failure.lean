import QueryRelay.Codec.Basic

/-!
# Failures

Every operation that can fail does so with a `Failure`, which names the cause.  `Failure.kind` is its coarse class, on
which retry policies decide, and `Failure.message` is its wording.
-/

namespace QueryRelay

/-- The families of transient conditions that the remote engine reports. -/
inductive TransientReason where
  | serviceUnavailable
  | sessionExpired
  | transientServerError
  | tokenExpired
deriving Repr, DecidableEq, Inhabited

namespace TransientReason

def all : List TransientReason := [serviceUnavailable, sessionExpired, transientServerError, tokenExpired]

/-- The identifier used in data. -/
def name : TransientReason → String
  | serviceUnavailable => "service_unavailable"
  | sessionExpired => "session_expired"
  | transientServerError => "transient_server_error"
  | tokenExpired => "token_expired"

/-- The wording used in messages. -/
def phrase : TransientReason → String
  | serviceUnavailable => "service unavailable"
  | sessionExpired => "session expired"
  | transientServerError => "transient server error"
  | tokenExpired => "auth token expired"

def codec : Codec TransientReason := .choice all name

end TransientReason

/-- The class of a failure. -/
inductive FailureKind where
  | connectionFailure
  | transientRemote
  | remote
  | unknownSession
  | resourceExhausted
  | circuitOpen
  | retriesExhausted
  | malformedBatchResponse
  | configuration
deriving Repr, DecidableEq, Inhabited

namespace FailureKind

def all : List FailureKind :=
  [connectionFailure, transientRemote, remote, unknownSession, resourceExhausted, circuitOpen, retriesExhausted,
    malformedBatchResponse, configuration]

/-- The identifier used in data and as a metric label. -/
def name : FailureKind → String
  | connectionFailure => "connection_failure"
  | transientRemote => "transient_remote"
  | remote => "remote"
  | unknownSession => "unknown_session"
  | resourceExhausted => "resource_exhausted"
  | circuitOpen => "circuit_open"
  | retriesExhausted => "retries_exhausted"
  | malformedBatchResponse => "malformed_batch_response"
  | configuration => "configuration"

def codec : Codec FailureKind := .choice all name

/-- All kinds, ascending by name. -/
def byName : List FailureKind :=
  [circuitOpen, configuration, connectionFailure, malformedBatchResponse, remote, resourceExhausted,
    retriesExhausted, transientRemote, unknownSession]

end FailureKind

/-- A set of kinds, its members ascending by name. -/
structure FailureKinds where
  members : List FailureKind
  ordered : FailureKind.byName.filter members.contains = members
deriving Repr, DecidableEq

namespace FailureKinds

/-- The set of some kinds. -/
def ofList (kinds : List FailureKind) : FailureKinds where
  members := FailureKind.byName.filter kinds.contains
  ordered := List.filter_congr fun kind hmem => by simp [List.mem_filter, hmem]

instance : Inhabited FailureKinds := ⟨ofList []⟩

def contains (s : FailureKinds) (kind : FailureKind) : Bool := s.members.contains kind

/-- A set is the set of its members. -/
theorem ofList_members (s : FailureKinds) : ofList s.members = s := by
  obtain ⟨members, ordered⟩ := s
  simp only [ofList, ordered]

theorem contains_ofList (kinds : List FailureKind) (kind : FailureKind) :
    (ofList kinds).contains kind = kinds.contains kind := by
  have hmem : kind ∈ FailureKind.byName := by cases kind <;> decide
  rw [Bool.eq_iff_iff]
  simp [contains, ofList, List.mem_filter, hmem]

/-- Kinds may be repeated where a set is read. -/
def codec : Codec FailureKinds where
  encode := fun s => (Codec.list FailureKind.codec).encode s.members
  decode := fun source json => ((Codec.list FailureKind.codec).decode source json).map ofList
  interest := (Codec.list FailureKind.codec).interest

end FailureKinds

/-- What went wrong. -/
inductive Failure where
  /-- The engine could not be reached. -/
  | connectionFailure (message : String)
  /-- The engine refused for now. -/
  | transientRemote (reason : TransientReason) (message : String)
  /-- The engine refused, with a code of its own. -/
  | remote (code message : String)
  /-- The session is not tracked. -/
  | unknownSession (session : String)
  /-- Every session slot is taken. -/
  | resourceExhausted (active max : Nat)
  /-- The circuit of this key lets no call through. -/
  | circuitOpen (key : String)
  /-- A transaction failed in a retryable way as often as its policy allows. -/
  | retriesExhausted (transaction : String) (attempts : Nat) (last : Failure)
  /-- The row of a bulk iteration does not have the agreed shape. -/
  | malformedBatchResponse (message : String)
  /-- The configuration is not usable. -/
  | configuration (message : String)
deriving Repr, DecidableEq, Inhabited

namespace Failure

def kind : Failure → FailureKind
  | connectionFailure _ => .connectionFailure
  | transientRemote _ _ => .transientRemote
  | remote _ _ => .remote
  | unknownSession _ => .unknownSession
  | resourceExhausted _ _ => .resourceExhausted
  | circuitOpen _ => .circuitOpen
  | retriesExhausted _ _ _ => .retriesExhausted
  | malformedBatchResponse _ => .malformedBatchResponse
  | configuration _ => .configuration

/-- The wording of a failure. -/
def message : Failure → String
  | connectionFailure text => "Connection failure: " ++ text
  | transientRemote reason text => "Transient remote error (" ++ reason.phrase ++ "): " ++ text
  | remote code text => "Remote error " ++ code ++ ": " ++ text
  | unknownSession session => "Unknown session: " ++ session
  | resourceExhausted active max =>
    "Resource exhausted: " ++ toString active ++ " active sessions, limit " ++ toString max
  | circuitOpen key => "Circuit breaker open for " ++ key
  | retriesExhausted transaction attempts last =>
    "Transaction " ++ transaction ++ " failed after " ++ toString attempts ++ " attempts: " ++ last.message
  | malformedBatchResponse text => "Malformed batch response: " ++ text
  | configuration text => "Configuration error: " ++ text

/-- The failure behind a failure, if it reports one. -/
def source? : Failure → Option Failure
  | retriesExhausted _ _ last => some last
  | _ => none

/-- Whether a new connection may help. -/
def isConnectionRelated : Failure → Bool
  | connectionFailure _ => true
  | transientRemote _ _ => true
  | _ => false

end Failure

end QueryRelay
