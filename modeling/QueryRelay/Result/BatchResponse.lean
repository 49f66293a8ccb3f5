import QueryRelay.Codec.Record
import QueryRelay.Failure

/-!
# The aggregated row of a bulk iteration

The engine answers a bulk iteration with one row, whose columns `BatchResponse.ofRecord` reads.  A row of another shape
is a malformed response.
-/

namespace QueryRelay

/-- How much a bulk iteration wrote. -/
structure BatchUpdateStatistics where
  nodesCreated : Nat := 0
  nodesDeleted : Nat := 0
  relationshipsCreated : Nat := 0
  relationshipsDeleted : Nat := 0
  propertiesSet : Nat := 0
  labelsAdded : Nat := 0
  labelsRemoved : Nat := 0
deriving Repr, DecidableEq, Inhabited

namespace BatchUpdateStatistics

def codec : Codec BatchUpdateStatistics :=
  let counter := fun name => RecordReader.field name .unsigned64 .refused
  RecordReader.codec
    (BatchUpdateStatistics.mk <$> counter "nodesCreated" <*> counter "nodesDeleted"
      <*> counter "relationshipsCreated" <*> counter "relationshipsDeleted" <*> counter "propertiesSet"
      <*> counter "labelsAdded" <*> counter "labelsRemoved")
    "BatchUpdateStatistics"
    fun s =>
      .object
        [("nodesCreated", .ofNat s.nodesCreated), ("nodesDeleted", .ofNat s.nodesDeleted),
          ("relationshipsCreated", .ofNat s.relationshipsCreated),
          ("relationshipsDeleted", .ofNat s.relationshipsDeleted), ("propertiesSet", .ofNat s.propertiesSet),
          ("labelsAdded", .ofNat s.labelsAdded), ("labelsRemoved", .ofNat s.labelsRemoved)]

end BatchUpdateStatistics

/-- The aggregated row. -/
structure BatchResponse where
  batches : Nat
  total : Nat
  timeTaken : Nat
  committedOperations : Nat
  failedOperations : Nat
  failedBatches : Nat
  retries : Nat
  /-- How often each error message came up, by message. -/
  errorMessages : Fields
  wasTerminated : Bool
  updateStatistics : Option BatchUpdateStatistics
deriving Repr, Inhabited

namespace BatchResponse

def codec : Codec BatchResponse :=
  let counter := fun name => RecordReader.field name .unsigned64 .refused
  RecordReader.codec
    (BatchResponse.mk <$> counter "batches" <*> counter "total" <*> counter "timeTaken"
      <*> counter "committedOperations" <*> counter "failedOperations" <*> counter "failedBatches"
      <*> counter "retries" <*> .field "errorMessages" .fields .refused
      <*> .field "wasTerminated" .bool .refused
      <*> .field "updateStatistics" (.option BatchUpdateStatistics.codec) (.default none))
    "BatchResponse"
    fun r =>
      .object
        [("batches", .ofNat r.batches), ("total", .ofNat r.total), ("timeTaken", .ofNat r.timeTaken),
          ("committedOperations", .ofNat r.committedOperations), ("failedOperations", .ofNat r.failedOperations),
          ("failedBatches", .ofNat r.failedBatches), ("retries", .ofNat r.retries),
          ("errorMessages", .object r.errorMessages), ("wasTerminated", .bool r.wasTerminated),
          ("updateStatistics", (Codec.option BatchUpdateStatistics.codec).encode r.updateStatistics)]

/-- Reads the aggregated row. -/
def ofRecord (record : Fields) : Except Failure BatchResponse :=
  match codec.decode .value (.object record) with
  | .ok response => .ok response
  | .error fault => .error (.malformedBatchResponse fault.message)

end BatchResponse

end QueryRelay
