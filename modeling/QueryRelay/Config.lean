import QueryRelay.Circuit
import QueryRelay.Codec.Place
import QueryRelay.Metric.Monitoring
import QueryRelay.ParameterBatch
import QueryRelay.Retry

/-!
# Configuration

The configuration of the whole executor.  Every field has a default, so a text only names what it changes; the session
limits stand among the other fields rather than in a part of their own.  `ExecutorConfig.ofText` reads a text and
checks it; `textOfBytes` gives the text that a file holds, or says why it has none.
-/

namespace QueryRelay

/-- How many sessions there may be, and when idle ones are closed. -/
structure SessionLimits where
  maxSessions : Nat := 100
  sessionTimeout : Duration := .ofWholeSeconds 300
  cleanupInterval : Duration := .ofWholeSeconds 60
deriving Repr, DecidableEq, Inhabited

namespace SessionLimits

/-- The limits as fields of an object. -/
def entries (l : SessionLimits) : List (String × Json) :=
  [("max_sessions", .ofNat l.maxSessions), ("session_timeout", Codec.duration.encode l.sessionTimeout),
    ("cleanup_interval", Codec.duration.encode l.cleanupInterval)]

def reader : RecordReader SessionLimits :=
  SessionLimits.mk <$> .field "max_sessions" .size (.default 100)
    <*> .field "session_timeout" .duration (.default (.ofWholeSeconds 300))
    <*> .field "cleanup_interval" .duration (.default (.ofWholeSeconds 60))

def codec : Codec SessionLimits :=
  reader.codec "SessionManagerConfig" fun l => .object l.entries

end SessionLimits

/-- The configuration of an executor. -/
structure ExecutorConfig where
  /-- The database of operations that do not name one. -/
  database : Option String := none
  /-- Items per chunk, on the client's side and on the engine's. -/
  chunkSize : Nat := 1000
  /-- Whether the engine may run the chunks of a bulk iteration in parallel. -/
  executeChunksInParallel : Bool := true
  /-- How often the engine retries a chunk of a bulk iteration. -/
  retriesPerChunk : Nat := 3
  protocolMode : ProtocolMode := .serverIterated
  sessions : SessionLimits := {}
  retry : RetryPolicy := {}
  circuit : CircuitConfig := {}
  monitoring : MonitoringConfig := .detailed
deriving Repr, DecidableEq

instance : Inhabited ExecutorConfig := ⟨{}⟩

namespace ExecutorConfig

/-- How the configuration cuts bulk iterations into chunks. -/
def batchOptions (c : ExecutorConfig) : BatchOptions :=
  ⟨c.chunkSize, c.executeChunksInParallel, c.retriesPerChunk⟩

/-- The first complaint about a configuration. -/
def complaint? (c : ExecutorConfig) : Option String :=
  if c.chunkSize = 0 then some "chunk_size must be at least 1"
  else if c.sessions.maxSessions = 0 then some "max_sessions must be at least 1"
  else if c.sessions.cleanupInterval.nanos = 0 then some "cleanup_interval must be positive"
  else if c.circuit.failureThreshold = 0 then some "failure_threshold must be at least 1"
  else c.retry.complaint?

/-- Passes a configuration that nothing is to be said against. -/
def validate (c : ExecutorConfig) : Except Failure ExecutorConfig :=
  match c.complaint? with
  | none => .ok c
  | some complaint => .error (.configuration complaint)

def encode (c : ExecutorConfig) : Json :=
  .object
    ([("database", .ofText? c.database), ("chunk_size", .ofNat c.chunkSize),
        ("execute_chunks_in_parallel", .bool c.executeChunksInParallel),
        ("retries_per_chunk", .ofNat c.retriesPerChunk),
        ("protocol_mode", ProtocolMode.codec.encode c.protocolMode)] ++
      c.sessions.entries ++
      [("retry", RetryPolicy.codec.encode c.retry), ("circuit_breaker", CircuitConfig.codec.encode c.circuit),
        ("monitoring", MonitoringConfig.codec.encode c.monitoring)])

/-- The fields other than the session limits. -/
def reader : RecordReader (SessionLimits → ExecutorConfig) :=
  (fun database chunkSize parallel retries mode retry circuit monitoring sessions =>
      ⟨database, chunkSize, parallel, retries, mode, sessions, retry, circuit, monitoring⟩)
    <$> .field "database" (.option .string) (.default none) <*> .field "chunk_size" .size (.default 1000)
    <*> .field "execute_chunks_in_parallel" .bool (.default true)
    <*> .field "retries_per_chunk" .unsigned32 (.default 3)
    <*> .field "protocol_mode" ProtocolMode.codec (.default .serverIterated)
    <*> .field "retry" RetryPolicy.codec (.default {}) <*> .field "circuit_breaker" CircuitConfig.codec (.default {})
    <*> .field "monitoring" MonitoringConfig.codec (.default .detailed)

/-- Reads a configuration from an object; the session limits are looked at after all other fields. -/
def decode : Decoder ExecutorConfig := fun source json =>
  match json with
  | .object entries => do
    let config ← reader.ofEntries source entries
    let sessions ← (SessionLimits.reader.ofEntries source entries).mapError .afterwards
    pure (config sessions)
  | other => .error (.invalidType other "struct ExecutorConfig")

/-- What is looked at of a text: everything but the unknown fields of the parts that are records. -/
def interest : Json.Interest := reader.interestBeside .whole

def codec : Codec ExecutorConfig := ⟨encode, decode, interest⟩

/-! ## Configuration texts -/

/-- Why a text is no usable configuration. -/
inductive TextFault where
  /-- The text cannot be read. -/
  | unreadable (flaw : Json.Flaw) (place : Json.Place)
  /-- A value does not decode. -/
  | undecodable (fault : DecodeFault) (place : Json.Place)
  /-- The values contradict the rules. -/
  | refused (complaint : String)
deriving Repr, Inhabited

namespace TextFault

/-- What is wrong. -/
def reason : TextFault → String
  | unreadable flaw _ => flaw.message
  | undecodable fault _ => fault.message
  | refused complaint => complaint

/-- Where it is wrong. -/
def place? : TextFault → Option Json.Place
  | unreadable _ place => some place
  | undecodable _ place => some place
  | refused _ => none

/-- The failure that an unusable text leads to. -/
def failure (fault : TextFault) : Failure :=
  .configuration (fault.reason ++ (fault.place?.map Json.Place.text).getD "")

/-- The fault of a text at which its reader halts. -/
def ofHalt (text : String) (halt : Json.Halt) : TextFault := .unreadable halt.flaw (halt.stand.place text)

end TextFault

/-- Reads a configuration from a text, and checks it.  The first fault is told. -/
def ofText (text : String) : Except TextFault ExecutorConfig :=
  match Json.scan interest text with
  | (json, halt) =>
    match decode .text json, halt with
    | .error fault, _ =>
      match fault.locate interest text with
      | .ok (fault, place) => .error (.undecodable fault place)
      | .error halt => .error (.ofHalt text halt)
    | .ok _, some halt => .error (.ofHalt text halt)
    | .ok config, none =>
      match config.complaint? with
      | none => .ok config
      | some complaint => .error (.refused complaint)

end ExecutorConfig

/-! ## Configuration files -/

/-- Why a file has no text. -/
inductive FileFault where
  | notFound
  | notUtf8
deriving Repr, DecidableEq, Inhabited

namespace FileFault

def message : FileFault → String
  | notFound => "No such file or directory (os error 2)"
  | notUtf8 => "stream did not contain valid UTF-8"

/-- The failure to read the file at a path. -/
def failure (path : String) (fault : FileFault) : Failure :=
  .configuration ("Failed to read " ++ path ++ ": " ++ fault.message)

end FileFault

/-- The text that the bytes of a file are. -/
def textOfBytes (bytes : ByteArray) : Except FileFault String :=
  match String.fromUTF8? bytes with
  | some text => .ok text
  | none => .error .notUtf8

end QueryRelay
