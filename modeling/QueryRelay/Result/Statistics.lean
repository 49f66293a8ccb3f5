import QueryRelay.Metric.Catalogue
import QueryRelay.Result.BatchResponse
import QueryRelay.Result.Raw
import QueryRelay.Statement

/-!
# Statistics of a statement

`QueryStatistics.ofResult` brings the two shapes of answer to one form: a bulk iteration is described by its aggregated
row, any other statement by its summary.  Timings always come from the summary.  `QueryStatistics.emissions` lists the
metric calls that report the statistics.
-/

namespace QueryRelay

/-- How long a statement took, in milliseconds. -/
structure TimingStatistics where
  planning : Nat := 0
  processing : Nat := 0
  total : Nat := 0
  /-- The time that a bulk iteration reports of itself. -/
  protocolTime : Nat := 0
deriving Repr, DecidableEq, Inhabited

namespace TimingStatistics

/-- The times of a summary.  The total is exact here; kept in 64 bits it wraps around, or breaks the run off, from
`2 ^ 64` milliseconds on. -/
def ofSummary (summary : ResultSummary) : TimingStatistics where
  planning := summary.availableAfter
  processing := summary.consumedAfter
  total := summary.availableAfter + summary.consumedAfter

def codec : Codec TimingStatistics :=
  let time := fun name => RecordReader.field name .unsigned64 .refused
  RecordReader.codec
    (TimingStatistics.mk <$> time "planning_time_ms" <*> time "processing_time_ms" <*> time "total_time_ms"
      <*> time "protocol_time_ms")
    "TimingStatistics"
    fun t =>
      .object
        [("planning_time_ms", .ofNat t.planning), ("processing_time_ms", .ofNat t.processing),
          ("total_time_ms", .ofNat t.total), ("protocol_time_ms", .ofNat t.protocolTime)]

end TimingStatistics

/-- How much a statement wrote.  In contrast to the counters of a summary, all of it has to be given when it is
read. -/
abbrev WriteStatistics := UpdateCounters

namespace WriteStatistics

/-- The writes of a bulk iteration, which touches neither constraints nor indexes. -/
def ofBatch (update : BatchUpdateStatistics) : WriteStatistics where
  nodesCreated := update.nodesCreated
  nodesDeleted := update.nodesDeleted
  relationshipsCreated := update.relationshipsCreated
  relationshipsDeleted := update.relationshipsDeleted
  propertiesSet := update.propertiesSet
  labelsAdded := update.labelsAdded
  labelsRemoved := update.labelsRemoved

def codec : Codec WriteStatistics :=
  (UpdateCounters.reader .refused).codec "WriteStatistics" UpdateCounters.encode

end WriteStatistics

/-- The outcome of a bulk iteration. -/
structure BatchStatistics where
  batches : Nat := 0
  total : Nat := 0
  failedBatches : Nat := 0
  committedOperations : Nat := 0
  failedOperations : Nat := 0
  retries : Nat := 0
  wasTerminated : Bool := false
  errorMessages : List String := []
deriving Repr, DecidableEq, Inhabited

namespace BatchStatistics

def ofResponse (response : BatchResponse) : BatchStatistics where
  batches := response.batches
  total := response.total
  failedBatches := response.failedBatches
  committedOperations := response.committedOperations
  failedOperations := response.failedOperations
  retries := response.retries
  wasTerminated := response.wasTerminated
  errorMessages := response.errorMessages.map Prod.fst

def codec : Codec BatchStatistics :=
  let counter := fun name => RecordReader.field name .unsigned64 .refused
  RecordReader.codec
    (BatchStatistics.mk <$> counter "batches" <*> counter "total" <*> counter "failed_batches"
      <*> counter "committed_operations" <*> counter "failed_operations" <*> counter "retries"
      <*> .field "was_terminated" .bool .refused <*> .field "error_messages" (.list .string) .refused)
    "BatchStatistics"
    fun s =>
      .object
        [("batches", .ofNat s.batches), ("total", .ofNat s.total), ("failed_batches", .ofNat s.failedBatches),
          ("committed_operations", .ofNat s.committedOperations), ("failed_operations", .ofNat s.failedOperations),
          ("retries", .ofNat s.retries), ("was_terminated", .bool s.wasTerminated),
          ("error_messages", .ofTexts s.errorMessages)]

end BatchStatistics

/-- What is known of one executed statement. -/
structure QueryStatistics where
  queryKind : QueryKind := .read
  timing : TimingStatistics := {}
  writes : WriteStatistics := {}
  /-- Present for bulk iterations only. -/
  batch : Option BatchStatistics := none
  /-- The codes of the notifications that are warnings or errors. -/
  notifications : List String := []
deriving Repr, DecidableEq, Inhabited

namespace QueryStatistics

/-- The statistics of a result that a statement gave. -/
def ofResult (statement : Statement) (raw : RawResult) : Except Failure QueryStatistics :=
  let common : QueryStatistics :=
    { queryKind := raw.summary.queryKind
      timing := .ofSummary raw.summary
      notifications := (raw.summary.notifications.filter Notification.isProblem).map Notification.code }
  match statement.isBatchProtocol, raw.records with
  | true, record :: _ =>
    (BatchResponse.ofRecord record).map fun response =>
      { common with
        timing := { common.timing with protocolTime := response.timeTaken }
        writes := (response.updateStatistics.map WriteStatistics.ofBatch).getD {}
        batch := some (.ofResponse response) }
  | true, [] => .ok { common with batch := some {} }
  | false, _ => .ok { common with writes := raw.summary.counters }

/-- The metrics of timings and writes with their values, in the order in which they are reported. -/
def counts (s : QueryStatistics) : List (Metric × Nat) :=
  [(.queryPlanningTime, s.timing.planning), (.queryProcessingTime, s.timing.processing),
    (.queryTotalTime, s.timing.total), (.queryProtocolTime, s.timing.protocolTime),
    (.nodesCreated, s.writes.nodesCreated), (.nodesDeleted, s.writes.nodesDeleted),
    (.relationshipsCreated, s.writes.relationshipsCreated),
    (.relationshipsDeleted, s.writes.relationshipsDeleted), (.propertiesSet, s.writes.propertiesSet),
    (.labelsAdded, s.writes.labelsAdded), (.labelsRemoved, s.writes.labelsRemoved),
    (.constraintsAdded, s.writes.constraintsAdded), (.constraintsRemoved, s.writes.constraintsRemoved),
    (.indexesAdded, s.writes.indexesAdded), (.indexesRemoved, s.writes.indexesRemoved)]

/-- The metrics of a bulk iteration with their values, in the order in which they are reported. -/
def batchCounts (b : BatchStatistics) : List (Metric × Nat) :=
  [(.batchesProcessed, b.batches), (.failedBatches, b.failedBatches),
    (.committedOperations, b.committedOperations), (.failedOperations, b.failedOperations),
    (.batchRetries, b.retries), (.batchTerminated, if b.wasTerminated then 1 else 0),
    (.batchErrorMessages, b.errorMessages.length)]

/-- The metric calls that report the statistics; the labels are on every one of them. -/
def emissions (s : QueryStatistics) (labels : Labels) : List Emission :=
  let counts := s.counts ++ (s.batch.map batchCounts).getD []
  counts.map (fun (metric, count) => EmissionVerb.increment.emit metric (.ofNat count) labels) ++
    s.notifications.map fun code => EmissionVerb.increment.emit .queryErrors .one (("error_type", code) :: labels)

def codec : Codec QueryStatistics :=
  RecordReader.codec
    (QueryStatistics.mk <$> .field "query_kind" QueryKind.codec .refused
      <*> .field "timing" TimingStatistics.codec .refused <*> .field "writes" WriteStatistics.codec .refused
      <*> .field "batch" (.option BatchStatistics.codec) .empty
      <*> .field "notifications" (.list .string) .refused)
    "QueryStatistics"
    fun s =>
      .object
        [("query_kind", QueryKind.codec.encode s.queryKind), ("timing", TimingStatistics.codec.encode s.timing),
          ("writes", UpdateCounters.encode s.writes),
          ("batch", (Codec.option BatchStatistics.codec).encode s.batch), ("notifications", .ofTexts s.notifications)]

end QueryStatistics

/-- The rows and statistics of one executed statement. -/
structure QueryResult where
  statement : Statement
  keys : List String
  records : List Fields
  summary : ResultSummary
  statistics : QueryStatistics
deriving Repr, Inhabited

/-- What a statement and the result that it gave amount to. -/
def QueryResult.ofRaw (statement : Statement) (raw : RawResult) : Except Failure QueryResult :=
  (QueryStatistics.ofResult statement raw).map fun statistics =>
    ⟨statement, raw.keys, raw.records, raw.summary, statistics⟩

end QueryRelay
