import QueryRelay.Config
import QueryRelay.Proofs.Codec.Restore
import QueryRelay.Remote
import QueryRelay.Result.Statistics
import QueryRelay.Session.State
import QueryRelay.Transaction.State

/-!
# Data that survives being written

Statements, results, statistics, policies and configurations are written as JSON and read back.

* `DataKind` — the kinds of such data, each with its codec (`DataKind.codec`), with the ranges of its values
  (`DataKind.Sound`), and with what a value may be written as (`DataKind.Writes`).
* `written_data_is_read_back` — **every value of every kind** is read back, all fields included, and a configuration
  that nothing is to be said against survives being written to a text.
-/

namespace QueryRelay

/-! ## Numbers, spans and texts -/

/-- A number of at most 64 bits. -/
def Fits64 (n : Nat) : Prop := n < Nat.pow 2 64

/-- A number of at most 32 bits. -/
def Fits32 (n : Nat) : Prop := n < Nat.pow 2 32

/-- A span that the conversion to seconds and back leaves as it is. -/
def Duration.Faithful (d : Duration) : Prop := Duration.ofSeconds? d.toSeconds = .ok d

namespace Codec

theorem restores_unsigned64 {n : Nat} (h : Fits64 n) : unsigned64.Restores n := restores_natBelow h "u64"

theorem restores_unsigned32 {n : Nat} (h : Fits32 n) : unsigned32.Restores n := restores_natBelow h "u32"

theorem restores_size {n : Nat} (h : Fits64 n) : size.Restores n := restores_natBelow h "usize"

theorem reads_ofText? (text? : Option String) : (option string).Reads (.ofText? text?) text? := by
  have hrestores : (option string).Restores text? :=
    restores_option fun text _ => ⟨restores_string text, Json.noConfusion⟩
  cases text? with
  | none => exact hrestores
  | some text => exact hrestores

theorem restores_texts (texts : List String) : (list string).Restores texts :=
  restores_list fun text _ => restores_string text

end Codec

/-- A field that is one of several counts. -/
theorem RecordReader.Reads.count {counts : List Nat} (h : ∀ n ∈ counts, Fits64 n) {n : Nat} (hn : n ∈ counts)
    (name : String) (missing : Missing Nat) :
    (RecordReader.field name Codec.unsigned64 missing).Reads [(name, .ofNat n)] n :=
  .field (Codec.restores_unsigned64 (h n hn)) name missing

open RecordReader (Reads)
open Codec

/-! ## Statements -/

/-- The parameters travel in canonical form. -/
def Statement.Sound (s : Statement) : Prop := s.parameters.IsCanonical

theorem Statement.restores {s : Statement} (h : s.Sound) : codec.Restores s :=
  (Reads.field (restores_string s.text) _ _).map Statement.mk
    |>.seq (.field (restores_fields h) _ _)
    |>.seq (.field (restores_bool s.isBatchProtocol) _ _)
    |>.codec _ _ (by decide)

theorem ProtocolMode.restores (mode : ProtocolMode) : codec.Restores mode := restores_choice (by cases mode <;> rfl)

def BatchOptions.Sound (o : BatchOptions) : Prop := Fits64 o.batchSize ∧ Fits32 o.maxRetries

theorem BatchOptions.restores {o : BatchOptions} (h : o.Sound) : codec.Restores o :=
  (Reads.field (restores_size h.1) _ _).map BatchOptions.mk
    |>.seq (.field (restores_bool o.parallel) _ _)
    |>.seq (.field (restores_unsigned32 h.2) _ _)
    |>.codec _ _ (by decide)

/-- Every set of parameters travels in canonical form. -/
def ParameterBatch.Sound (b : ParameterBatch) : Prop := ∀ set ∈ b.parameterSets, set.IsCanonical

theorem ParameterBatch.restores {b : ParameterBatch} (h : b.Sound) : codec.Restores b :=
  (Reads.field (restores_string b.templateText) _ _).map ParameterBatch.mk
    |>.seq (.field (restores_list fun set hset => restores_fields (h set hset)) _ _)
    |>.codec _ _ (by decide)

/-! ## Results -/

theorem QueryKind.restores (kind : QueryKind) : codec.Restores kind := restores_choice (by cases kind <;> rfl)

theorem Severity.restores (severity : Severity) : codec.Restores severity :=
  restores_choice (by cases severity <;> rfl)

theorem Notification.restores (n : Notification) : codec.Restores n :=
  (Reads.field (restores_string n.code) _ _).map Notification.mk
    |>.seq (.field (restores_string n.title) _ _)
    |>.seq (.field (restores_string n.description) _ _)
    |>.seq (.field n.severity.restores _ _)
    |>.codec _ _ (by decide)

namespace UpdateCounters

/-- All counters. -/
def counts (c : UpdateCounters) : List Nat :=
  [c.nodesCreated, c.nodesDeleted, c.relationshipsCreated, c.relationshipsDeleted, c.propertiesSet, c.labelsAdded,
    c.labelsRemoved, c.constraintsAdded, c.constraintsRemoved, c.indexesAdded, c.indexesRemoved]

def Sound (c : UpdateCounters) : Prop := ∀ n ∈ c.counts, Fits64 n

/-- The fields that are written are read, whatever becomes of those that are not given. -/
theorem exists_reads {c : UpdateCounters} (h : c.Sound) (missing : Missing Nat) :
    ∃ written, c.encode = .object written ∧ (reader missing).Reads written c := by
  refine ⟨_, rfl, (Reads.count h ?_ _ _).map UpdateCounters.mk |>.seq (.count h ?_ _ _) |>.seq (.count h ?_ _ _)
    |>.seq (.count h ?_ _ _) |>.seq (.count h ?_ _ _) |>.seq (.count h ?_ _ _) |>.seq (.count h ?_ _ _)
    |>.seq (.count h ?_ _ _) |>.seq (.count h ?_ _ _) |>.seq (.count h ?_ _ _) |>.seq (.count h ?_ _ _)⟩
  all_goals simp [counts]

theorem restores {c : UpdateCounters} (h : c.Sound) : codec.Restores c := by
  obtain ⟨written, hencode, hreads⟩ := exists_reads h (.default 0)
  have hcodec : codec.Reads (encode c) c := by
    rw [hencode]
    exact hreads.codec _ _ (by decide)
  exact hcodec

end UpdateCounters

def ResultSummary.Sound (s : ResultSummary) : Prop :=
  Fits64 s.availableAfter ∧ Fits64 s.consumedAfter ∧ s.counters.Sound

theorem ResultSummary.restores {s : ResultSummary} (h : s.Sound) : codec.Restores s :=
  (Reads.field (restores_unsigned64 h.1) _ _).map ResultSummary.mk
    |>.seq (.field (restores_unsigned64 h.2.1) _ _)
    |>.seq (.field (UpdateCounters.restores h.2.2) _ _)
    |>.seq (.field s.queryKind.restores _ _)
    |>.seq (.field (reads_ofText? s.database) _ _)
    |>.seq (.field (restores_list fun n _ => n.restores) _ _)
    |>.codec _ _ (by decide)

/-- Every row travels in canonical form. -/
def RawResult.Sound (r : RawResult) : Prop := (∀ record ∈ r.records, record.IsCanonical) ∧ r.summary.Sound

theorem RawResult.restores {r : RawResult} (h : r.Sound) : codec.Restores r :=
  (Reads.field (restores_texts r.keys) _ _).map RawResult.mk
    |>.seq (.field (restores_list fun record hrecord => restores_fields (h.1 record hrecord)) _ _)
    |>.seq (.field (ResultSummary.restores h.2) _ _)
    |>.codec _ _ (by decide)

/-! ## Bulk iterations -/

namespace BatchUpdateStatistics

/-- All counters. -/
def counts (s : BatchUpdateStatistics) : List Nat :=
  [s.nodesCreated, s.nodesDeleted, s.relationshipsCreated, s.relationshipsDeleted, s.propertiesSet, s.labelsAdded,
    s.labelsRemoved]

def Sound (s : BatchUpdateStatistics) : Prop := ∀ n ∈ s.counts, Fits64 n

theorem restores {s : BatchUpdateStatistics} (h : s.Sound) : codec.Restores s := by
  refine (Reads.count h ?_ _ _).map BatchUpdateStatistics.mk |>.seq (.count h ?_ _ _) |>.seq (.count h ?_ _ _)
    |>.seq (.count h ?_ _ _) |>.seq (.count h ?_ _ _) |>.seq (.count h ?_ _ _) |>.seq (.count h ?_ _ _)
    |>.codec _ _ (by decide)
  all_goals simp [counts]

end BatchUpdateStatistics

namespace BatchResponse

/-- All counters. -/
def counts (r : BatchResponse) : List Nat :=
  [r.batches, r.total, r.timeTaken, r.committedOperations, r.failedOperations, r.failedBatches, r.retries]

/-- The counts by error message travel in canonical form. -/
def Sound (r : BatchResponse) : Prop :=
  (∀ n ∈ r.counts, Fits64 n) ∧ r.errorMessages.IsCanonical ∧ ∀ update ∈ r.updateStatistics, update.Sound

theorem restores {r : BatchResponse} (h : r.Sound) : codec.Restores r := by
  have hupdate : (Codec.option BatchUpdateStatistics.codec).Restores r.updateStatistics :=
    restores_option fun update hmem => ⟨BatchUpdateStatistics.restores (h.2.2 update hmem), Json.noConfusion⟩
  refine (Reads.count h.1 ?_ _ _).map BatchResponse.mk |>.seq (.count h.1 ?_ _ _) |>.seq (.count h.1 ?_ _ _)
    |>.seq (.count h.1 ?_ _ _) |>.seq (.count h.1 ?_ _ _) |>.seq (.count h.1 ?_ _ _) |>.seq (.count h.1 ?_ _ _)
    |>.seq (.field (restores_fields h.2.1) _ _)
    |>.seq (.field (restores_bool r.wasTerminated) _ _)
    |>.seq (.field hupdate _ _)
    |>.codec _ _ (by decide)
  all_goals simp [counts]

end BatchResponse

/-! ## Statistics -/

def TimingStatistics.Sound (t : TimingStatistics) : Prop :=
  Fits64 t.planning ∧ Fits64 t.processing ∧ Fits64 t.total ∧ Fits64 t.protocolTime

theorem TimingStatistics.restores {t : TimingStatistics} (h : t.Sound) : codec.Restores t :=
  (Reads.field (restores_unsigned64 h.1) _ _).map TimingStatistics.mk
    |>.seq (.field (restores_unsigned64 h.2.1) _ _)
    |>.seq (.field (restores_unsigned64 h.2.2.1) _ _)
    |>.seq (.field (restores_unsigned64 h.2.2.2) _ _)
    |>.codec _ _ (by decide)

theorem WriteStatistics.restores {c : WriteStatistics} (h : UpdateCounters.Sound c) : codec.Restores c := by
  obtain ⟨written, hencode, hreads⟩ := UpdateCounters.exists_reads h .refused
  have hcodec : codec.Reads (UpdateCounters.encode c) c := by
    rw [hencode]
    exact hreads.codec _ _ (by decide)
  exact hcodec

namespace BatchStatistics

/-- All counters. -/
def counts (s : BatchStatistics) : List Nat :=
  [s.batches, s.total, s.failedBatches, s.committedOperations, s.failedOperations, s.retries]

def Sound (s : BatchStatistics) : Prop := ∀ n ∈ s.counts, Fits64 n

theorem restores {s : BatchStatistics} (h : s.Sound) : codec.Restores s := by
  refine (Reads.count h ?_ _ _).map BatchStatistics.mk |>.seq (.count h ?_ _ _) |>.seq (.count h ?_ _ _)
    |>.seq (.count h ?_ _ _) |>.seq (.count h ?_ _ _) |>.seq (.count h ?_ _ _)
    |>.seq (.field (restores_bool s.wasTerminated) _ _)
    |>.seq (.field (restores_texts s.errorMessages) _ _)
    |>.codec _ _ (by decide)
  all_goals simp [counts]

end BatchStatistics

def QueryStatistics.Sound (s : QueryStatistics) : Prop :=
  s.timing.Sound ∧ UpdateCounters.Sound s.writes ∧ ∀ batch ∈ s.batch, batch.Sound

theorem QueryStatistics.restores {s : QueryStatistics} (h : s.Sound) : codec.Restores s := by
  have hbatch : (Codec.option BatchStatistics.codec).Restores s.batch :=
    restores_option fun batch hmem => ⟨BatchStatistics.restores (h.2.2 batch hmem), Json.noConfusion⟩
  exact (Reads.field s.queryKind.restores _ _).map QueryStatistics.mk
    |>.seq (.field (TimingStatistics.restores h.1) _ _)
    |>.seq (.field (WriteStatistics.restores h.2.1) _ _)
    |>.seq (.field hbatch _ _)
    |>.seq (.field (restores_texts s.notifications) _ _)
    |>.codec _ _ (by decide)

/-! ## Sessions -/

def SessionCounters.Sound (c : SessionCounters) : Prop :=
  Fits64 c.queriesExecuted ∧ Fits64 c.transactionsStarted ∧ Fits64 c.transactionsCommitted ∧
    Fits64 c.transactionsRolledBack

theorem SessionCounters.restores {c : SessionCounters} (h : c.Sound) : codec.Restores c :=
  (Reads.field (restores_unsigned64 h.1) _ _).map SessionCounters.mk
    |>.seq (.field (restores_unsigned64 h.2.1) _ _)
    |>.seq (.field (restores_unsigned64 h.2.2.1) _ _)
    |>.seq (.field (restores_unsigned64 h.2.2.2) _ _)
    |>.codec _ _ (by decide)

theorem AccessMode.restores (mode : AccessMode) : codec.Restores mode := restores_choice (by cases mode <;> rfl)

def SessionOptions.Sound (o : SessionOptions) : Prop := ∀ n ∈ o.fetchSize, Fits64 n

theorem SessionOptions.restores {o : SessionOptions} (h : o.Sound) : codec.Restores o := by
  have hsize : (Codec.option .size).Restores o.fetchSize :=
    restores_option fun n hmem => ⟨restores_size (h n hmem), Json.noConfusion⟩
  exact (Reads.field hsize _ _).map SessionOptions.mk
    |>.seq (.field o.accessMode.restores _ _)
    |>.seq (.field (restores_texts o.bookmarks) _ _)
    |>.seq (.field (reads_ofText? o.impersonatedUser) _ _)
    |>.codec _ _ (by decide)

/-! ## Circuits and monitoring -/

def CircuitConfig.Sound (c : CircuitConfig) : Prop :=
  Fits64 c.failureThreshold ∧ c.resetTimeout.Faithful ∧ c.halfOpenTimeout.Faithful

theorem CircuitConfig.restores {c : CircuitConfig} (h : c.Sound) : codec.Restores c :=
  (Reads.field (restores_size h.1) _ _).map CircuitConfig.mk
    |>.seq (.field (restores_duration h.2.1) _ _)
    |>.seq (.field (restores_duration h.2.2) _ _)
    |>.codec _ _ (by decide)

theorem MonitoringLevel.restores (level : MonitoringLevel) : codec.Restores level :=
  restores_choice (by cases level <;> rfl)

theorem MonitoringConfig.restores (c : MonitoringConfig) : codec.Restores c := by
  have switch : ∀ (b : Bool) name missing, (RecordReader.field name .bool missing).Reads [(name, .bool b)] b :=
    fun b name missing => .field (restores_bool b) name missing
  have hset : ∀ set? : Option TextSet, (Codec.option .textSet).Restores set? :=
    fun set? => restores_option fun set _ => ⟨restores_textSet set, Json.noConfusion⟩
  have hlabels : (Codec.option .textMap).Restores c.additionalLabels :=
    restores_option fun map _ => ⟨restores_textMap map, Json.noConfusion⟩
  exact (switch c.enabled _ _).map MonitoringConfig.mk
    |>.seq (.field c.level.restores _ _)
    |>.seq (switch c.collectQuery _ _) |>.seq (switch c.collectSession _ _)
    |>.seq (switch c.collectTransaction _ _) |>.seq (switch c.collectBatch _ _)
    |>.seq (switch c.collectError _ _) |>.seq (switch c.collectConnection _ _)
    |>.seq (.field (hset c.included) _ _)
    |>.seq (.field (hset c.excluded) _ _)
    |>.seq (.field hlabels _ _)
    |>.codec _ _ (by decide)

/-! ## Retry policies -/

theorem FailureKind.restores (kind : FailureKind) : codec.Restores kind := restores_choice (by cases kind <;> rfl)

theorem RetryStrategy.restores (strategy : RetryStrategy) : codec.Restores strategy :=
  restores_choice (by cases strategy <;> rfl)

namespace FailureKinds

/-- Some kinds, in any order and as often as it may be, are those of a set. -/
def ListedAs (s : FailureKinds) (kinds : List FailureKind) : Prop := ∀ kind, kind ∈ kinds ↔ kind ∈ s.members

theorem listedAs_members (s : FailureKinds) : s.ListedAs s.members := fun _ => Iff.rfl

theorem ofList_of_listedAs {s : FailureKinds} {kinds : List FailureKind} (h : s.ListedAs kinds) : ofList kinds = s := by
  rw [← s.ofList_members]
  unfold ofList
  congr 1
  exact List.filter_congr fun kind _ => by simp [h kind]

/-- A set is read from any list of its members. -/
theorem reads {s : FailureKinds} {kinds : List FailureKind} (h : s.ListedAs kinds) :
    codec.Reads (.array (kinds.map FailureKind.codec.encode)) s := by
  intro source form
  have hlist : (Codec.list FailureKind.codec).decode source
      (form.apply (.array (kinds.map FailureKind.codec.encode))) = .ok kinds :=
    restores_list (fun kind _ => kind.restores) source form
  simp only [codec, hlist, Except.map, ofList_of_listedAs h]

end FailureKinds

namespace RetryPolicy

def Sound (p : RetryPolicy) : Prop := Fits32 p.maxRetries ∧ p.initialDelay.Faithful ∧ p.maxDelay.Faithful

/-- A policy as it is written when its kinds are listed in some order. -/
def listed (p : RetryPolicy) (kinds : List FailureKind) : Json :=
  .object
    [("strategy", RetryStrategy.codec.encode p.strategy), ("max_retries", .ofNat p.maxRetries),
      ("initial_delay", Codec.duration.encode p.initialDelay), ("max_delay", Codec.duration.encode p.maxDelay),
      ("retryable_error_kinds", .array (kinds.map FailureKind.codec.encode)),
      ("retryable_error_substrings", .ofTexts p.retryableSubstrings)]

theorem encode_eq_listed (p : RetryPolicy) : codec.encode p = p.listed p.retryableKinds.members := rfl

/-- What a policy may be written as: its kinds are a set, and may be listed in any order. -/
def Writes (p : RetryPolicy) (json : Json) : Prop :=
  ∃ kinds, p.retryableKinds.ListedAs kinds ∧ json = p.listed kinds

theorem reads {p : RetryPolicy} (h : p.Sound) {kinds : List FailureKind} (hkinds : p.retryableKinds.ListedAs kinds) :
    codec.Reads (p.listed kinds) p :=
  (Reads.field p.strategy.restores _ _).map RetryPolicy.mk
    |>.seq (.field (restores_unsigned32 h.1) _ _)
    |>.seq (.field (restores_duration h.2.1) _ _)
    |>.seq (.field (restores_duration h.2.2) _ _)
    |>.seq (.field (FailureKinds.reads hkinds) _ _)
    |>.seq (.field (restores_texts p.retryableSubstrings) _ _)
    |>.codec _ _ (by decide)

end RetryPolicy

/-! ## Configurations -/

namespace SessionLimits

def Sound (l : SessionLimits) : Prop := Fits64 l.maxSessions ∧ l.sessionTimeout.Faithful ∧ l.cleanupInterval.Faithful

theorem reads {l : SessionLimits} (h : l.Sound) : reader.Reads l.entries l :=
  (Reads.field (restores_size h.1) _ _).map SessionLimits.mk
    |>.seq (.field (restores_duration h.2.1) _ _)
    |>.seq (.field (restores_duration h.2.2) _ _)

theorem restores {l : SessionLimits} (h : l.Sound) : codec.Restores l := (reads h).codec _ _ (by decide)

end SessionLimits

namespace ExecutorConfig

def Sound (c : ExecutorConfig) : Prop :=
  Fits64 c.chunkSize ∧ Fits32 c.retriesPerChunk ∧ c.sessions.Sound ∧ c.retry.Sound ∧ c.circuit.Sound

/-- The fields before the session limits. -/
def earlierEntries (c : ExecutorConfig) : List (String × Json) :=
  [("database", .ofText? c.database), ("chunk_size", .ofNat c.chunkSize),
    ("execute_chunks_in_parallel", .bool c.executeChunksInParallel), ("retries_per_chunk", .ofNat c.retriesPerChunk),
    ("protocol_mode", ProtocolMode.codec.encode c.protocolMode)]

/-- The fields behind the session limits, with the kinds of the retry policy listed in some order. -/
def laterEntries (c : ExecutorConfig) (kinds : List FailureKind) : List (String × Json) :=
  [("retry", c.retry.listed kinds), ("circuit_breaker", CircuitConfig.codec.encode c.circuit),
    ("monitoring", MonitoringConfig.codec.encode c.monitoring)]

/-- A configuration as it is written when the kinds of the retry policy are listed in some order. -/
def listed (c : ExecutorConfig) (kinds : List FailureKind) : Json :=
  .object (c.earlierEntries ++ c.sessions.entries ++ c.laterEntries kinds)

theorem encode_eq_listed (c : ExecutorConfig) : c.encode = c.listed c.retry.retryableKinds.members := rfl

/-- What a configuration may be written as: the kinds of its retry policy are a set, and may be listed in any order. -/
def Writes (c : ExecutorConfig) (json : Json) : Prop :=
  ∃ kinds, c.retry.retryableKinds.ListedAs kinds ∧ json = c.listed kinds

theorem reader_reads {c : ExecutorConfig} (h : c.Sound) {kinds : List FailureKind}
    (hkinds : c.retry.retryableKinds.ListedAs kinds) :
    reader.Reads (c.earlierEntries ++ c.laterEntries kinds) fun sessions => { c with sessions := sessions } :=
  (Reads.field (reads_ofText? c.database) _ _).map _
    |>.seq (.field (restores_size h.1) _ _)
    |>.seq (.field (restores_bool c.executeChunksInParallel) _ _)
    |>.seq (.field (restores_unsigned32 h.2.1) _ _)
    |>.seq (.field c.protocolMode.restores _ _)
    |>.seq (.field (RetryPolicy.reads h.2.2.2.1 hkinds) _ _)
    |>.seq (.field (CircuitConfig.restores h.2.2.2.2) _ _)
    |>.seq (.field c.monitoring.restores _ _)

/-- **A configuration is read back**, the session limits from among its other fields. -/
theorem reads {c : ExecutorConfig} (h : c.Sound) {kinds : List FailureKind}
    (hkinds : c.retry.retryableKinds.ListedAs kinds) : codec.Reads (c.listed kinds) c := by
  intro source form
  have hnames : ((c.earlierEntries ++ c.sessions.entries ++ c.laterEntries kinds).map Prod.fst).Nodup := by
    show ["database", "chunk_size", "execute_chunks_in_parallel", "retries_per_chunk", "protocol_mode", "max_sessions",
      "session_timeout", "cleanup_interval", "retry", "circuit_breaker", "monitoring"].Nodup
    decide
  have hearlier : c.earlierEntries ++ c.sessions.entries ⊆
      c.earlierEntries ++ c.sessions.entries ++ c.laterEntries kinds := List.subset_append_left _ _
  have hownEntries := List.append_subset.2 ⟨List.Subset.trans (List.subset_append_left _ _) hearlier,
    List.subset_append_right (c.earlierEntries ++ c.sessions.entries) (c.laterEntries kinds)⟩
  have hown := (reader_reads h hkinds).ofEntries hnames hownEntries source form
  have hlimits := List.Subset.trans (List.subset_append_right _ _) hearlier
  have hsessions := (SessionLimits.reads h.2.2.1).ofEntries hnames hlimits source form
  show decode source (form.apply (c.listed kinds)) = .ok c
  rw [listed, form.apply_object]
  simp only [decode, hown, hsessions]
  rfl

/-- A text whose value decodes to a configuration that nothing is to be said against is that configuration. -/
theorem ofText_of_scan {c : ExecutorConfig} {text : String} {json : Json}
    (hscan : Json.scan interest text = (json, none)) (hdecode : decode .text json = .ok c)
    (hvalid : c.complaint? = none) : ofText text = .ok c := by
  simp only [ofText, hscan, hdecode, hvalid]

end ExecutorConfig

/-! ## All kinds of data -/

/-- A kind of data that is written as JSON and read back. -/
structure DataKind where
  Value : Type
  codec : Codec Value
  /-- What is taken for granted of a value: its numbers are in the ranges of their types, its maps are in the form in
  which they travel, and its spans are left as they are by the conversion to seconds and back. -/
  Sound : Value → Prop
  /-- What a value may be written as. -/
  Writes : Value → Json → Prop

namespace DataKind

/-- A kind of data that its codec writes in one way. -/
def ofCodec {α : Type} (codec : Codec α) (Sound : α → Prop) : DataKind :=
  ⟨α, codec, Sound, fun value json => json = codec.encode value⟩

/-- Names, and texts, of which nothing is taken for granted. -/
def plain {α : Type} (codec : Codec α) : DataKind := ofCodec codec fun _ => True

/-- All kinds.  The kinds of failures of a retry policy are a set, and may be listed in any order; identifiers travel as
their texts. -/
def all : List DataKind :=
  [⟨_, ExecutorConfig.codec, ExecutorConfig.Sound, ExecutorConfig.Writes⟩,
    ⟨_, RetryPolicy.codec, RetryPolicy.Sound, RetryPolicy.Writes⟩,
    ofCodec CircuitConfig.codec CircuitConfig.Sound,
    plain MonitoringConfig.codec,
    ofCodec SessionLimits.codec SessionLimits.Sound,
    ofCodec Statement.codec Statement.Sound,
    ofCodec ParameterBatch.codec ParameterBatch.Sound,
    ofCodec BatchOptions.codec BatchOptions.Sound,
    ofCodec RawResult.codec RawResult.Sound,
    ofCodec ResultSummary.codec ResultSummary.Sound,
    ofCodec UpdateCounters.codec UpdateCounters.Sound,
    plain Notification.codec,
    ofCodec BatchResponse.codec BatchResponse.Sound,
    ofCodec BatchUpdateStatistics.codec BatchUpdateStatistics.Sound,
    ofCodec QueryStatistics.codec QueryStatistics.Sound,
    ofCodec TimingStatistics.codec TimingStatistics.Sound,
    ofCodec WriteStatistics.codec UpdateCounters.Sound,
    ofCodec BatchStatistics.codec BatchStatistics.Sound,
    ofCodec SessionCounters.codec SessionCounters.Sound,
    ofCodec SessionOptions.codec SessionOptions.Sound,
    plain ProtocolMode.codec, plain QueryKind.codec, plain Severity.codec, plain FailureKind.codec,
    plain RetryStrategy.codec, plain MonitoringLevel.codec, plain AccessMode.codec, plain TransientReason.codec,
    plain CircuitState.codec, plain SessionStatus.codec, plain SessionCounter.codec, plain TransactionStatus.codec,
    plain RoutingMode.codec, plain Codec.string]

theorem writes_encode : ∀ kind ∈ all, ∀ value : kind.Value, kind.Writes value (kind.codec.encode value) := by
  simp only [all, List.forall_mem_cons]
  refine ⟨fun config => ⟨_, FailureKinds.listedAs_members _, config.encode_eq_listed⟩,
    fun policy => ⟨_, FailureKinds.listedAs_members _, policy.encode_eq_listed⟩, ?_⟩
  simp [plain, ofCodec]

/-- What its values may be written as is read as these values. -/
def IsReadBack (kind : DataKind) : Prop :=
  ∀ value json, kind.Sound value → kind.Writes value json → kind.codec.Reads json value

theorem isReadBack_ofCodec {α : Type} {codec : Codec α} {Sound : α → Prop}
    (h : ∀ {value}, Sound value → codec.Restores value) : (ofCodec codec Sound).IsReadBack := by
  rintro value json hsound rfl
  exact h hsound

theorem isReadBack_plain {α : Type} {codec : Codec α} (h : ∀ value, codec.Restores value) :
    (plain codec).IsReadBack :=
  isReadBack_ofCodec fun _ => h _

/-- An enumeration whose members have names of their own. -/
theorem isReadBack_choice {α : Type} {members : List α} {name : α → String}
    (h : ∀ a, members.find? (fun b => name b = name a) = some a) : (plain (.choice members name)).IsReadBack :=
  isReadBack_plain fun a => restores_choice (h a)

theorem isReadBack_of_mem_all : ∀ kind ∈ all, kind.IsReadBack := by
  simp only [all, List.forall_mem_cons]
  refine ⟨?executorConfig, ?retryPolicy, isReadBack_ofCodec CircuitConfig.restores,
    isReadBack_plain MonitoringConfig.restores, isReadBack_ofCodec SessionLimits.restores,
    isReadBack_ofCodec Statement.restores, isReadBack_ofCodec ParameterBatch.restores,
    isReadBack_ofCodec BatchOptions.restores, isReadBack_ofCodec RawResult.restores,
    isReadBack_ofCodec ResultSummary.restores, isReadBack_ofCodec UpdateCounters.restores,
    isReadBack_plain Notification.restores, isReadBack_ofCodec BatchResponse.restores,
    isReadBack_ofCodec BatchUpdateStatistics.restores, isReadBack_ofCodec QueryStatistics.restores,
    isReadBack_ofCodec TimingStatistics.restores, isReadBack_ofCodec WriteStatistics.restores,
    isReadBack_ofCodec BatchStatistics.restores, isReadBack_ofCodec SessionCounters.restores,
    isReadBack_ofCodec SessionOptions.restores, isReadBack_plain ProtocolMode.restores,
    isReadBack_plain QueryKind.restores, isReadBack_plain Severity.restores, isReadBack_plain FailureKind.restores,
    isReadBack_plain RetryStrategy.restores, isReadBack_plain MonitoringLevel.restores,
    isReadBack_plain AccessMode.restores, isReadBack_choice ?transientReason, isReadBack_choice ?circuitState,
    isReadBack_choice ?sessionStatus, isReadBack_choice ?sessionCounter, isReadBack_choice ?transactionStatus,
    isReadBack_choice ?routingMode, isReadBack_plain restores_string, fun _ hnone => absurd hnone List.not_mem_nil⟩
  case executorConfig =>
    rintro config json hsound ⟨kinds, hkinds, rfl⟩
    exact ExecutorConfig.reads hsound hkinds
  case retryPolicy =>
    rintro policy json hsound ⟨kinds, hkinds, rfl⟩
    exact RetryPolicy.reads hsound hkinds
  all_goals
    intro a
    cases a <;> rfl

end DataKind

/-! ## Reading back -/

/-- **What was written is read back.**  A value of any kind of data is read, with all its fields, from what its codec
writes for it, whether that comes from a text or from a value, as it was written or in canonical form.  And a
configuration that nothing is to be said against is what is read from every text that has as its value what the
configuration may be written as. -/
theorem written_data_is_read_back :
    (∀ kind ∈ DataKind.all, ∀ value : kind.Value,
        kind.Writes value (kind.codec.encode value) ∧
          (kind.Sound value → ∀ json, kind.Writes value json → ∀ (source : Source) (form : Json.Form),
            kind.codec.decode source (form.apply json) = .ok value)) ∧
      ∀ (config : ExecutorConfig) (json : Json) (form : Json.Form) (text : String),
        config.Sound → config.complaint? = none → config.Writes json →
          Json.scan ExecutorConfig.interest text = (form.apply json, none) →
          ExecutorConfig.ofText text = .ok config := by
  refine ⟨fun kind hkind value => ⟨?_, fun hsound json hwrites => ?_⟩, ?_⟩
  · exact DataKind.writes_encode kind hkind value
  · exact DataKind.isReadBack_of_mem_all kind hkind value json hsound hwrites
  · rintro config json form text hsound hvalid ⟨kinds, hkinds, rfl⟩ hscan
    exact ExecutorConfig.ofText_of_scan hscan (ExecutorConfig.reads hsound hkinds .text form) hvalid

/-- A configuration with values of its own in every part. -/
def exampleConfig : ExecutorConfig where
  database := some "graph"
  chunkSize := 7
  executeChunksInParallel := false
  retriesPerChunk := 5
  protocolMode := .clientUnwound
  sessions := ⟨2, .ofMillis 1500, .ofWholeSeconds 9⟩
  retry := ⟨.linear, 4, .ofMillis 250, .ofWholeSeconds 2, .ofList [.transientRemote, .remote], ["gone"]⟩
  circuit := ⟨6, .ofMillis 500, .ofWholeSeconds 3⟩
  monitoring := { MonitoringConfig.disabled with included := some (.ofList ["b", "a"]) }

/-- A text of that configuration, with the two retryable kinds in the other order. -/
def exampleText : String :=
  "\x7b\"database\":\"graph\",\"chunk_size\":7,\"execute_chunks_in_parallel\":false,\"retries_per_chunk\":5,
  \"protocol_mode\":\"client_unwound\",\"max_sessions\":2,\"session_timeout\":1.5,\"cleanup_interval\":9.0,
  \"retry\":\x7b\"strategy\":\"linear\",\"max_retries\":4,\"initial_delay\":0.25,\"max_delay\":2.0,
  \"retryable_error_kinds\":[\"remote\",\"transient_remote\"],\"retryable_error_substrings\":[\"gone\"]\x7d,
  \"circuit_breaker\":\x7b\"failure_threshold\":6,\"reset_timeout\":0.5,\"half_open_timeout\":3.0\x7d,
  \"monitoring\":\x7b\"enabled\":false,\"level\":\"none\",\"collect_query_metrics\":false,
  \"collect_session_metrics\":false,\"collect_transaction_metrics\":false,\"collect_batch_metrics\":false,
  \"collect_error_metrics\":false,\"collect_connection_metrics\":false,\"included_metrics\":[\"a\",\"b\"],
  \"excluded_metrics\":null,\"additional_labels\":null\x7d\x7d"

set_option maxRecDepth 10000 in
theorem scan_exampleText :
    Json.scan ExecutorConfig.interest exampleText = (exampleConfig.listed [.remote, .transientRemote], none) := by
  -- The characters of the text are taken from the literal: the kernel would decode its bytes one after the other.
  have hscan : (Json.scan ExecutorConfig.interest exampleText).1 = exampleConfig.listed [.remote, .transientRemote] ∧
      (Json.scan ExecutorConfig.interest exampleText).2.isNone := by
    rw [Json.scan, show exampleText.toList = _ from String.toList_ofList]
    decide +kernel
  exact Prod.ext hscan.1 (Option.isNone_iff_eq_none.1 hscan.2)

theorem written_data_is_read_back_of_exampleConfig :
    exampleConfig.Sound ∧ exampleConfig.complaint? = none ∧
      ExecutorConfig.codec.decode .value (exampleConfig.encode.canonical) = .ok exampleConfig ∧
      ExecutorConfig.ofText exampleText = .ok exampleConfig := by
  have hsound : exampleConfig.Sound := by
    simp only [ExecutorConfig.Sound, SessionLimits.Sound, RetryPolicy.Sound, CircuitConfig.Sound, Fits64, Fits32,
      Duration.Faithful]
    decide +kernel
  have hvalid : exampleConfig.complaint? = none := by decide +kernel
  have hkinds : exampleConfig.retry.retryableKinds.ListedAs [.remote, .transientRemote] := by
    intro kind
    cases kind <;> decide
  obtain ⟨hdata, htext⟩ := written_data_is_read_back
  obtain ⟨hwrites, hread⟩ := hdata _ List.mem_cons_self exampleConfig
  exact ⟨hsound, hvalid, hread hsound _ hwrites .value .canonical,
    htext exampleConfig _ .written exampleText hsound hvalid ⟨_, hkinds, rfl⟩ scan_exampleText⟩

end QueryRelay
