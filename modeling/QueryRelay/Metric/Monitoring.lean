import QueryRelay.Codec.Record
import QueryRelay.Metric.Catalogue

/-!
# Monitoring configuration

A monitoring configuration decides which emissions reach a sink and what labels they carry there.  A name is collected
when monitoring is on, the include list (if there is one) has it, the exclude list does not, and a family that the
configuration switches on has a stem with which the name starts.  The error family goes before all others.
`MonitoringConfig.forward?` is the filter that stands in front of a sink.
-/

namespace QueryRelay

/-- How much is monitored; a word for people, the switches decide. -/
inductive MonitoringLevel where
  | none
  | basic
  | detailed
  | debug
deriving Repr, DecidableEq, Inhabited

namespace MonitoringLevel

def all : List MonitoringLevel := [none, basic, detailed, debug]

def name : MonitoringLevel → String
  | none => "none"
  | basic => "basic"
  | detailed => "detailed"
  | debug => "debug"

def codec : Codec MonitoringLevel := .choice all name

end MonitoringLevel

/-- The families of metrics that are switched together. -/
inductive MetricFamily where
  | query
  | session
  | transaction
  | batch
  | error
  | connection
deriving Repr, DecidableEq, Inhabited

/-- Which emissions reach the sink, and with which labels besides their own. -/
structure MonitoringConfig where
  enabled : Bool
  level : MonitoringLevel
  collectQuery : Bool
  collectSession : Bool
  collectTransaction : Bool
  collectBatch : Bool
  collectError : Bool
  collectConnection : Bool
  /-- When present, only these names are collected. -/
  included : Option TextSet
  /-- Names that are never collected. -/
  excluded : Option TextSet
  /-- Labels put on every emission. -/
  additionalLabels : Option TextMap
deriving Repr, DecidableEq

namespace MonitoringConfig

/-- Nothing is collected. -/
def disabled : MonitoringConfig :=
  ⟨false, .none, false, false, false, false, false, false, Option.none, Option.none, Option.none⟩

/-- Query timings, write counters and errors. -/
def basic : MonitoringConfig :=
  { disabled with enabled := true, level := .basic, collectQuery := true, collectError := true }

/-- Every family. -/
def detailed : MonitoringConfig :=
  { disabled with
    enabled := true, level := .detailed, collectQuery := true, collectSession := true, collectTransaction := true,
    collectBatch := true, collectError := true, collectConnection := true }

/-- Every family, at the highest level. -/
def debug : MonitoringConfig := { detailed with level := .debug }

instance : Inhabited MonitoringConfig := ⟨detailed⟩

/-- Whether a family is switched on. -/
def collects (config : MonitoringConfig) : MetricFamily → Bool
  | .query => config.collectQuery
  | .session => config.collectSession
  | .transaction => config.collectTransaction
  | .batch => config.collectBatch
  | .error => config.collectError
  | .connection => config.collectConnection

/-- Whether a name starts with a stem. -/
def startsWith (name stem : String) : Bool := stem.toList.isPrefixOf name.toList

/-- The stems of the error family. -/
def errorStems : List String := ["query_errors", "failed_queries"]

/-- The stems of the other families. -/
def stems : List (String × MetricFamily) :=
  [("query_planning", .query),
    ("query_processing", .query),
    ("query_total", .query),
    ("query_protocol", .query),
    ("query_execution", .query),
    ("queries_executed", .query),
    ("nodes_", .query),
    ("relationships_", .query),
    ("properties_", .query),
    ("labels_", .query),
    ("indexes_", .query),
    ("constraints_", .query),
    ("sessions_", .session),
    ("transaction", .transaction),
    ("query_retries", .transaction),
    ("retry_delay", .transaction),
    ("batches_", .batch),
    ("committed_operations", .batch),
    ("failed_operations", .batch),
    ("connection_", .connection)]

/-- Whether the include and exclude lists let a name through. -/
def admits (config : MonitoringConfig) (name : String) : Bool :=
  (match config.included with
    | Option.none => true
    | some names => names.contains name) &&
  (match config.excluded with
    | Option.none => true
    | some names => !names.contains name)

/-- Whether a family that is switched on claims the name. -/
def familyCollects (config : MonitoringConfig) (name : String) : Bool :=
  if errorStems.any (startsWith name) then config.collectError
  else stems.any fun (stem, family) => config.collects family && startsWith name stem

/-- Whether emissions of this name reach the sink. -/
def shouldCollect (config : MonitoringConfig) (name : String) : Bool :=
  config.enabled && config.admits name && config.familyCollects name

/-- The labels of a call with the configured ones added; each takes the place of the labels of its name. -/
def labels (config : MonitoringConfig) (base : Labels) : Labels :=
  (config.additionalLabels.getD .empty).entries.foldl
    (fun labels (name, value) => labels.filter (fun l => l.1 ≠ name) ++ [(name, value)]) base

/-- What the sink receives for an emission. -/
def forward? (config : MonitoringConfig) (e : Emission) : Option Emission :=
  if config.shouldCollect e.name then some { e with labels := config.labels e.labels } else Option.none

def reader : RecordReader MonitoringConfig :=
  let collect := fun name => RecordReader.field name .bool (.default true)
  MonitoringConfig.mk <$> collect "enabled" <*> .field "level" MonitoringLevel.codec (.default .detailed)
    <*> collect "collect_query_metrics" <*> collect "collect_session_metrics"
    <*> collect "collect_transaction_metrics" <*> collect "collect_batch_metrics"
    <*> collect "collect_error_metrics" <*> collect "collect_connection_metrics"
    <*> .field "included_metrics" (.option .textSet) (.default Option.none)
    <*> .field "excluded_metrics" (.option .textSet) (.default Option.none)
    <*> .field "additional_labels" (.option .textMap) (.default Option.none)

def codec : Codec MonitoringConfig :=
  reader.codec "MonitoringConfig" fun c =>
    .object
      [("enabled", .bool c.enabled), ("level", MonitoringLevel.codec.encode c.level),
        ("collect_query_metrics", .bool c.collectQuery), ("collect_session_metrics", .bool c.collectSession),
        ("collect_transaction_metrics", .bool c.collectTransaction), ("collect_batch_metrics", .bool c.collectBatch),
        ("collect_error_metrics", .bool c.collectError), ("collect_connection_metrics", .bool c.collectConnection),
        ("included_metrics", (Codec.option .textSet).encode c.included),
        ("excluded_metrics", (Codec.option .textSet).encode c.excluded),
        ("additional_labels", (Codec.option .textMap).encode c.additionalLabels)]

end MonitoringConfig

end QueryRelay
