import QueryRelay.Codec.Record

/-!
# Results as the remote engine gives them

A raw result has rows, the names of their columns, and a summary with timings, write counters and notifications.
-/

namespace QueryRelay

/-- What a statement does to the data. -/
inductive QueryKind where
  | read
  | write
  | readWrite
  | schemaWrite
deriving Repr, DecidableEq, Inhabited

namespace QueryKind

def all : List QueryKind := [read, write, readWrite, schemaWrite]

def name : QueryKind → String
  | read => "read"
  | write => "write"
  | readWrite => "read_write"
  | schemaWrite => "schema_write"

def codec : Codec QueryKind := .choice all name

end QueryKind

/-- How serious a notification is. -/
inductive Severity where
  | information
  | warning
  | error
deriving Repr, DecidableEq, Inhabited

namespace Severity

def all : List Severity := [information, warning, error]

def name : Severity → String
  | information => "INFORMATION"
  | warning => "WARNING"
  | error => "ERROR"

def codec : Codec Severity := .choice all name

end Severity

/-- A remark of the engine on a statement. -/
structure Notification where
  code : String
  title : String
  description : String
  severity : Severity
deriving Repr, DecidableEq, Inhabited

namespace Notification

/-- Whether the remark is a warning or an error. -/
def isProblem (n : Notification) : Bool := n.severity ≠ .information

def codec : Codec Notification :=
  RecordReader.codec
    (Notification.mk <$> .field "code" .string .refused <*> .field "title" .string .refused
      <*> .field "description" .string (.default "") <*> .field "severity" Severity.codec .refused)
    "Notification"
    fun n =>
      .object
        [("code", .str n.code), ("title", .str n.title), ("description", .str n.description),
          ("severity", Severity.codec.encode n.severity)]

end Notification

/-- How much a statement wrote, by kind of change. -/
structure UpdateCounters where
  nodesCreated : Nat := 0
  nodesDeleted : Nat := 0
  relationshipsCreated : Nat := 0
  relationshipsDeleted : Nat := 0
  propertiesSet : Nat := 0
  labelsAdded : Nat := 0
  labelsRemoved : Nat := 0
  constraintsAdded : Nat := 0
  constraintsRemoved : Nat := 0
  indexesAdded : Nat := 0
  indexesRemoved : Nat := 0
deriving Repr, DecidableEq, Inhabited

namespace UpdateCounters

def encode (c : UpdateCounters) : Json :=
  .object
    [("nodes_created", .ofNat c.nodesCreated), ("nodes_deleted", .ofNat c.nodesDeleted),
      ("relationships_created", .ofNat c.relationshipsCreated),
      ("relationships_deleted", .ofNat c.relationshipsDeleted), ("properties_set", .ofNat c.propertiesSet),
      ("labels_added", .ofNat c.labelsAdded), ("labels_removed", .ofNat c.labelsRemoved),
      ("constraints_added", .ofNat c.constraintsAdded), ("constraints_removed", .ofNat c.constraintsRemoved),
      ("indexes_added", .ofNat c.indexesAdded), ("indexes_removed", .ofNat c.indexesRemoved)]

/-- Reads the counters; `missing` says what becomes of a counter that is not given. -/
def reader (missing : Missing Nat) : RecordReader UpdateCounters :=
  let counter := fun name => RecordReader.field name .unsigned64 missing
  UpdateCounters.mk <$> counter "nodes_created" <*> counter "nodes_deleted" <*> counter "relationships_created"
    <*> counter "relationships_deleted" <*> counter "properties_set" <*> counter "labels_added"
    <*> counter "labels_removed" <*> counter "constraints_added" <*> counter "constraints_removed"
    <*> counter "indexes_added" <*> counter "indexes_removed"

def codec : Codec UpdateCounters := (reader (.default 0)).codec "UpdateCounters" encode

end UpdateCounters

/-- What the engine says about a statement besides its rows. -/
structure ResultSummary where
  /-- Milliseconds until the first row was available. -/
  availableAfter : Nat := 0
  /-- Milliseconds until the last row was consumed. -/
  consumedAfter : Nat := 0
  counters : UpdateCounters := {}
  queryKind : QueryKind := .read
  database : Option String := none
  notifications : List Notification := []
deriving Repr, DecidableEq, Inhabited

namespace ResultSummary

def codec : Codec ResultSummary :=
  RecordReader.codec
    (ResultSummary.mk <$> .field "available_after" .unsigned64 (.default 0)
      <*> .field "consumed_after" .unsigned64 (.default 0) <*> .field "counters" UpdateCounters.codec (.default {})
      <*> .field "query_kind" QueryKind.codec (.default .read)
      <*> .field "database" (.option .string) (.default none)
      <*> .field "notifications" (.list Notification.codec) (.default []))
    "ResultSummary"
    fun s =>
      .object
        [("available_after", .ofNat s.availableAfter), ("consumed_after", .ofNat s.consumedAfter),
          ("counters", s.counters.encode), ("query_kind", QueryKind.codec.encode s.queryKind),
          ("database", .ofText? s.database), ("notifications", (Codec.list Notification.codec).encode s.notifications)]

end ResultSummary

/-- The outcome of one statement as the engine gives it. -/
structure RawResult where
  keys : List String := []
  records : List Fields := []
  summary : ResultSummary := {}
deriving Repr, Inhabited

namespace RawResult

/-- A result whose columns are the names of its first row. -/
def ofRecords (records : List Fields) (summary : ResultSummary) : RawResult where
  keys := (records.head?.getD []).map Prod.fst
  records := records
  summary := summary

def codec : Codec RawResult :=
  RecordReader.codec
    (RawResult.mk <$> .field "keys" (.list .string) .refused <*> .field "records" (.list .fields) .refused
      <*> .field "summary" ResultSummary.codec .refused)
    "RawResult"
    fun r =>
      .object
        [("keys", .ofTexts r.keys), ("records", .array (r.records.map .object)),
          ("summary", ResultSummary.codec.encode r.summary)]

end RawResult

end QueryRelay
