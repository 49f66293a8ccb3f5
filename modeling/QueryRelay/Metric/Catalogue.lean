import QueryRelay.Binary64.Basic

/-!
# The catalogue of metrics

Every metric that the library emits is a value of `Metric`; the catalogue gives its exported name, its kind, the label
names that every call for it carries, and a description.  What belongs to a session carries a `database` label; gauges
describe the process and carry none.

A call to a metrics sink is an `Emission`.  Whoever makes one says which verb it has; `Metric.emit` is the call that the
catalogue asks for, whose verb follows from the kind.
-/

namespace QueryRelay

/-- How the calls for a metric add up. -/
inductive MetricKind where
  | counter
  | gauge
  | histogram
deriving Repr, DecidableEq, Inhabited

def MetricKind.name : MetricKind → String
  | .counter => "counter"
  | .gauge => "gauge"
  | .histogram => "histogram"

/-- The catalogue entry of a metric. -/
structure MetricDefinition where
  name : String
  kind : MetricKind
  labels : List String
  description : String
deriving Repr, DecidableEq, Inhabited

/-- The metrics of the library. -/
inductive Metric where
  | queryPlanningTime
  | queryProcessingTime
  | queryTotalTime
  | queryProtocolTime
  | queryExecutionTime
  | nodesCreated
  | nodesDeleted
  | relationshipsCreated
  | relationshipsDeleted
  | propertiesSet
  | labelsAdded
  | labelsRemoved
  | constraintsAdded
  | constraintsRemoved
  | indexesAdded
  | indexesRemoved
  | queriesExecuted
  | batchesProcessed
  | failedBatches
  | committedOperations
  | failedOperations
  | batchRetries
  | batchTerminated
  | batchErrorMessages
  | queryErrors
  | failedQueries
  | transactionsStarted
  | transactionCommits
  | transactionRollbacks
  | transactionsActive
  | queryRetries
  | retryDelay
  | sessionsActive
  | sessionsCreated
  | sessionsClosed
  | connectionRecreated
deriving Repr, DecidableEq, Inhabited

namespace Metric

/-- All metrics, in catalogue order. -/
def all : List Metric :=
  [queryPlanningTime, queryProcessingTime, queryTotalTime, queryProtocolTime, queryExecutionTime, nodesCreated,
    nodesDeleted, relationshipsCreated, relationshipsDeleted, propertiesSet, labelsAdded, labelsRemoved,
    constraintsAdded, constraintsRemoved, indexesAdded, indexesRemoved, queriesExecuted, batchesProcessed,
    failedBatches, committedOperations, failedOperations, batchRetries, batchTerminated, batchErrorMessages,
    queryErrors, failedQueries, transactionsStarted, transactionCommits, transactionRollbacks, transactionsActive,
    queryRetries, retryDelay, sessionsActive, sessionsCreated, sessionsClosed, connectionRecreated]

/-- The catalogue entry of each metric. -/
def definition : Metric → MetricDefinition
  | queryPlanningTime =>
    ⟨"query_planning_time_ms", .counter, ["database"], "Time until the first result was available"⟩
  | queryProcessingTime => ⟨"query_processing_time_ms", .counter, ["database"], "Time taken to consume the result"⟩
  | queryTotalTime => ⟨"query_total_time_ms", .counter, ["database"], "Planning plus processing time"⟩
  | queryProtocolTime =>
    ⟨"query_protocol_time_ms", .counter, ["database"], "Time reported by the bulk-iteration procedure"⟩
  | queryExecutionTime =>
    ⟨"query_execution_time_seconds", .histogram, ["operation", "database"],
      "Wall-clock time of one executor operation"⟩
  | nodesCreated => ⟨"nodes_created_total", .counter, ["database"], "Nodes created"⟩
  | nodesDeleted => ⟨"nodes_deleted_total", .counter, ["database"], "Nodes deleted"⟩
  | relationshipsCreated => ⟨"relationships_created_total", .counter, ["database"], "Relationships created"⟩
  | relationshipsDeleted => ⟨"relationships_deleted_total", .counter, ["database"], "Relationships deleted"⟩
  | propertiesSet => ⟨"properties_set_total", .counter, ["database"], "Properties set"⟩
  | labelsAdded => ⟨"labels_added_total", .counter, ["database"], "Labels added"⟩
  | labelsRemoved => ⟨"labels_removed_total", .counter, ["database"], "Labels removed"⟩
  | constraintsAdded => ⟨"constraints_added_total", .counter, ["database"], "Constraints added"⟩
  | constraintsRemoved => ⟨"constraints_removed_total", .counter, ["database"], "Constraints removed"⟩
  | indexesAdded => ⟨"indexes_added_total", .counter, ["database"], "Indexes added"⟩
  | indexesRemoved => ⟨"indexes_removed_total", .counter, ["database"], "Indexes removed"⟩
  | queriesExecuted =>
    ⟨"queries_executed_total", .counter, ["database"], "Statements executed inside transactions"⟩
  | batchesProcessed => ⟨"batches_processed_total", .counter, ["database"], "Server-side batches processed"⟩
  | failedBatches => ⟨"batches_failed_total", .counter, ["database"], "Server-side batches that failed"⟩
  | committedOperations =>
    ⟨"committed_operations_total", .counter, ["database"], "Operations committed by bulk iteration"⟩
  | failedOperations => ⟨"failed_operations_total", .counter, ["database"], "Operations failed by bulk iteration"⟩
  | batchRetries =>
    ⟨"batches_retried_total", .counter, ["database"], "Retries performed by the bulk-iteration procedure"⟩
  | batchTerminated =>
    ⟨"batches_terminated_total", .counter, ["database"], "Bulk iterations terminated before completion"⟩
  | batchErrorMessages =>
    ⟨"batches_error_messages_total", .counter, ["database"],
      "Distinct error messages reported by bulk iteration"⟩
  | queryErrors =>
    ⟨"query_errors_total", .counter, ["error_type", "database"],
      "Errors and warnings raised while running statements"⟩
  | failedQueries =>
    ⟨"failed_queries_total", .counter, ["operation", "database"], "Executor operations that returned an error"⟩
  | transactionsStarted => ⟨"transactions_started_total", .counter, ["database"], "Remote transactions begun"⟩
  | transactionCommits => ⟨"transaction_commits_total", .counter, ["database"], "Transactions committed"⟩
  | transactionRollbacks =>
    ⟨"transaction_rollbacks_total", .counter, ["reason", "database"], "Transactions rolled back"⟩
  | transactionsActive => ⟨"transactions_active", .gauge, [], "Transactions currently tracked"⟩
  | queryRetries => ⟨"query_retries_total", .counter, ["error_type", "database"], "Transaction retries"⟩
  | retryDelay => ⟨"retry_delay_seconds", .histogram, ["error_type", "database"], "Backoff slept before a retry"⟩
  | sessionsActive => ⟨"sessions_active", .gauge, [], "Sessions currently tracked"⟩
  | sessionsCreated => ⟨"sessions_created_total", .counter, ["database"], "Sessions opened"⟩
  | sessionsClosed => ⟨"sessions_closed_total", .counter, ["outcome", "database"], "Sessions closed"⟩
  | connectionRecreated => ⟨"connection_recreated_total", .counter, [], "Client handle replacements"⟩

/-- The exported name. -/
def name (m : Metric) : String := m.definition.name

/-- The whole catalogue. -/
def catalogue : List MetricDefinition := all.map definition

/-- The catalogue entry of an exported name. -/
def find? (name : String) : Option MetricDefinition := catalogue.find? fun d => d.name = name

end Metric

/-- What a call asks of a metrics sink. -/
inductive EmissionVerb where
  | increment
  | observe
  | set
deriving Repr, DecidableEq, Inhabited

/-- The verb that fits a kind of metric. -/
def MetricKind.verb : MetricKind → EmissionVerb
  | .counter => .increment
  | .gauge => .set
  | .histogram => .observe

/-- Label names with their values, in the order of a call. -/
abbrev Labels := List (String × String)

/-- One call to a metrics sink. -/
structure Emission where
  verb : EmissionVerb
  name : String
  value : Binary64
  labels : Labels
deriving Repr, DecidableEq, Inhabited

/-- The call that reports a value of a metric in the way of a verb. -/
def EmissionVerb.emit (verb : EmissionVerb) (m : Metric) (value : Binary64) (labels : Labels) : Emission :=
  ⟨verb, m.name, value, labels⟩

/-- The call that the catalogue asks for to report a value of a metric. -/
def Metric.emit (m : Metric) (value : Binary64) (labels : Labels) : Emission :=
  m.definition.kind.verb.emit m value labels

end QueryRelay
