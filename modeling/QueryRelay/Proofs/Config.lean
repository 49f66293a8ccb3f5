import QueryRelay.Proofs.Codec.Field

/-!
# Configuration texts

A configuration text only changes what it names.

* `ExecutorConfig.settings` — everything that a text may name: fields of the configuration, the session limits among
  them, and fields of its parts.
* `ExecutorConfig.Fits` — an object that can be taken for a configuration, whatever else stands in it.
* `ExecutorConfig.decode_eq_ok_iff` — a configuration is read exactly if each of its settings is the value that is
  named, or the default.
* `text_changes_what_it_names` — **a text that fits** gives the defaults with what it names replaced, in whichever order
  it does so, and it is refused exactly if that breaks a rule.
-/

namespace QueryRelay

open RecordReader (Forgiving)
open Codec

/-! ## The parts of a configuration -/

namespace SessionLimits

def fields : List (RecordField SessionLimits) :=
  [⟨"max_sessions", .size, maxSessions⟩, ⟨"session_timeout", .duration, sessionTimeout⟩,
    ⟨"cleanup_interval", .duration, cleanupInterval⟩]

theorem fills : reader.Fills {} fields where
  forgiving := (Forgiving.field _ _ _).map _ |>.seq (.field _ _ _) |>.seq (.field _ _ _)
  slots := rfl
  thorough := by
    simp only [fields, List.forall_mem_cons]
    exact ⟨thorough_size, thorough_duration, thorough_duration, nofun⟩
  build_iff := by
    intro given limits
    simp only [RecordReader.build_eq_ok_iff, reader, RecordReader.yields_seq, RecordReader.yields_map,
      RecordReader.yields_field_default, fields, List.forall_mem_cons, RecordField.takes_iff]
    constructor
    · rintro ⟨_, hsessions, _, htimeout, _, hcleanup, rfl⟩
      exact ⟨hsessions, htimeout, hcleanup, nofun⟩
    · rintro ⟨hsessions, htimeout, hcleanup, -⟩
      exact ⟨_, hsessions, _, htimeout, _, hcleanup, rfl⟩

end SessionLimits

namespace RetryPolicy

def fields : List (RecordField RetryPolicy) :=
  [⟨"strategy", RetryStrategy.codec, strategy⟩, ⟨"max_retries", .unsigned32, maxRetries⟩,
    ⟨"initial_delay", .duration, initialDelay⟩, ⟨"max_delay", .duration, maxDelay⟩,
    ⟨"retryable_error_kinds", FailureKinds.codec, retryableKinds⟩,
    ⟨"retryable_error_substrings", .list .string, retryableSubstrings⟩]

theorem fills : reader.Fills {} fields where
  forgiving := (Forgiving.field _ _ _).map _ |>.seq (.field _ _ _) |>.seq (.field _ _ _) |>.seq (.field _ _ _)
    |>.seq (.field _ _ _) |>.seq (.field _ _ _)
  slots := rfl
  thorough := by
    simp only [fields, List.forall_mem_cons]
    exact ⟨thorough_choice _ _, thorough_unsigned32, thorough_duration, thorough_duration, thorough_failureKinds,
      thorough_list thorough_string, nofun⟩
  build_iff := by
    intro given policy
    simp only [RecordReader.build_eq_ok_iff, reader, RecordReader.yields_seq, RecordReader.yields_map,
      RecordReader.yields_field_default, fields, List.forall_mem_cons, RecordField.takes_iff]
    constructor
    · rintro ⟨_, hstrategy, _, hretries, _, hinitial, _, hmax, _, hkinds, _, htexts, rfl⟩
      exact ⟨hstrategy, hretries, hinitial, hmax, hkinds, htexts, nofun⟩
    · rintro ⟨hstrategy, hretries, hinitial, hmax, hkinds, htexts, -⟩
      exact ⟨_, hstrategy, _, hretries, _, hinitial, _, hmax, _, hkinds, _, htexts, rfl⟩

end RetryPolicy

namespace CircuitConfig

def fields : List (RecordField CircuitConfig) :=
  [⟨"failure_threshold", .size, failureThreshold⟩, ⟨"reset_timeout", .duration, resetTimeout⟩,
    ⟨"half_open_timeout", .duration, halfOpenTimeout⟩]

theorem fills : reader.Fills {} fields where
  forgiving := (Forgiving.field _ _ _).map _ |>.seq (.field _ _ _) |>.seq (.field _ _ _)
  slots := rfl
  thorough := by
    simp only [fields, List.forall_mem_cons]
    exact ⟨thorough_size, thorough_duration, thorough_duration, nofun⟩
  build_iff := by
    intro given circuit
    simp only [RecordReader.build_eq_ok_iff, reader, RecordReader.yields_seq, RecordReader.yields_map,
      RecordReader.yields_field_default, fields, List.forall_mem_cons, RecordField.takes_iff]
    constructor
    · rintro ⟨_, hthreshold, _, hreset, _, hhalfOpen, rfl⟩
      exact ⟨hthreshold, hreset, hhalfOpen, nofun⟩
    · rintro ⟨hthreshold, hreset, hhalfOpen, -⟩
      exact ⟨_, hthreshold, _, hreset, _, hhalfOpen, rfl⟩

end CircuitConfig

namespace MonitoringConfig

def fields : List (RecordField MonitoringConfig) :=
  [⟨"enabled", .bool, enabled⟩, ⟨"level", MonitoringLevel.codec, level⟩, ⟨"collect_query_metrics", .bool, collectQuery⟩,
    ⟨"collect_session_metrics", .bool, collectSession⟩, ⟨"collect_transaction_metrics", .bool, collectTransaction⟩,
    ⟨"collect_batch_metrics", .bool, collectBatch⟩, ⟨"collect_error_metrics", .bool, collectError⟩,
    ⟨"collect_connection_metrics", .bool, collectConnection⟩, ⟨"included_metrics", .option .textSet, included⟩,
    ⟨"excluded_metrics", .option .textSet, excluded⟩, ⟨"additional_labels", .option .textMap, additionalLabels⟩]

theorem fills : reader.Fills .detailed fields where
  forgiving := (Forgiving.field _ _ _).map _ |>.seq (.field _ _ _) |>.seq (.field _ _ _) |>.seq (.field _ _ _)
    |>.seq (.field _ _ _) |>.seq (.field _ _ _) |>.seq (.field _ _ _) |>.seq (.field _ _ _) |>.seq (.field _ _ _)
    |>.seq (.field _ _ _) |>.seq (.field _ _ _)
  slots := rfl
  thorough := by
    simp only [fields, List.forall_mem_cons]
    exact ⟨thorough_bool, thorough_choice _ _, thorough_bool, thorough_bool, thorough_bool, thorough_bool,
      thorough_bool, thorough_bool, thorough_option thorough_textSet, thorough_option thorough_textSet,
      thorough_option thorough_textMap, nofun⟩
  build_iff := by
    intro given monitoring
    simp only [RecordReader.build_eq_ok_iff, reader, RecordReader.yields_seq, RecordReader.yields_map,
      RecordReader.yields_field_default, fields, List.forall_mem_cons, RecordField.takes_iff]
    constructor
    · rintro ⟨_, henabled, _, hlevel, _, hquery, _, hsession, _, htransaction, _, hbatch, _, herror, _, hconnection, _,
        hincluded, _, hexcluded, _, hlabels, rfl⟩
      exact ⟨henabled, hlevel, hquery, hsession, htransaction, hbatch, herror, hconnection, hincluded, hexcluded,
        hlabels, nofun⟩
    · rintro ⟨henabled, hlevel, hquery, hsession, htransaction, hbatch, herror, hconnection, hincluded, hexcluded,
        hlabels, -⟩
      exact ⟨_, henabled, _, hlevel, _, hquery, _, hsession, _, htransaction, _, hbatch, _, herror, _, hconnection, _,
        hincluded, _, hexcluded, _, hlabels, rfl⟩

end MonitoringConfig

/-! ## Settings -/

/-- A setting of the configuration: a field, and the names that lead to where it is named. -/
structure Setting where
  parts : List String
  field : RecordField ExecutorConfig

namespace Setting

/-- Where the setting is named. -/
def path (s : Setting) : List String := s.parts ++ [s.field.name]

/-- A configuration has the value that is named for the setting; if none is, it has the default. -/
def Takes (s : Setting) (json : Json) (config : ExecutorConfig) : Prop :=
  s.field.Takes {} (json.at? s.path) config

/-- What is named for the setting decodes. -/
def Decodes (s : Setting) (json : Json) : Prop := s.field.Decodes (json.at? s.path)

variable {entries : List (String × Json)} {config : ExecutorConfig}

theorem at?_field (entries : List (String × Json)) (f : RecordField ExecutorConfig) :
    (Json.object entries).at? (path ⟨[], f⟩) = entries.lookup f.name := by
  simp [path, Json.at?]

theorem takes_field_iff {f : RecordField ExecutorConfig} :
    Takes ⟨[], f⟩ (.object entries) config ↔
      (entries.lookup f.name = none ∧ f.get config = f.get {}) ∨
        ∃ json, entries.lookup f.name = some json ∧ f.codec.decode .text json = .ok (f.get config) := by
  rw [Takes, at?_field, RecordField.takes_iff]

end Setting

namespace ExecutorConfig

/-- The fields that are no parts with fields of their own. -/
def ownFields : List (RecordField ExecutorConfig) :=
  [⟨"database", .option .string, database⟩, ⟨"chunk_size", .size, chunkSize⟩,
    ⟨"execute_chunks_in_parallel", .bool, executeChunksInParallel⟩,
    ⟨"retries_per_chunk", .unsigned32, retriesPerChunk⟩, ⟨"protocol_mode", ProtocolMode.codec, protocolMode⟩]

/-- The parts that are named as a whole. -/
def partFields : List (RecordField ExecutorConfig) :=
  [⟨"retry", RetryPolicy.codec, retry⟩, ⟨"circuit_breaker", CircuitConfig.codec, circuit⟩,
    ⟨"monitoring", MonitoringConfig.codec, monitoring⟩]

/-- Everything that can be set.  The session limits stand among the fields of the configuration, the fields of its other
parts under the names of these. -/
def settings : List Setting :=
  ownFields.map (⟨[], ·⟩) ++ SessionLimits.fields.map (fun f => ⟨[], f.of sessions⟩) ++
    RetryPolicy.fields.map (fun f => ⟨["retry"], f.of retry⟩) ++
    CircuitConfig.fields.map (fun f => ⟨["circuit_breaker"], f.of circuit⟩) ++
    MonitoringConfig.fields.map fun f => ⟨["monitoring"], f.of monitoring⟩

theorem forall_settings {P : Setting → Prop} :
    (∀ s ∈ settings, P s) ↔
      (∀ f ∈ ownFields, P ⟨[], f⟩) ∧ (∀ f ∈ SessionLimits.fields, P ⟨[], f.of sessions⟩) ∧
        (∀ f ∈ RetryPolicy.fields, P ⟨["retry"], f.of retry⟩) ∧
        (∀ f ∈ CircuitConfig.fields, P ⟨["circuit_breaker"], f.of circuit⟩) ∧
        ∀ f ∈ MonitoringConfig.fields, P ⟨["monitoring"], f.of monitoring⟩ := by
  simp only [settings, List.forall_mem_append, List.forall_mem_map, and_assoc]

/-- No name stands twice, neither in the object nor in its parts, and the parts are objects. -/
structure Shaped (entries : List (String × Json)) : Prop where
  names : (entries.map Prod.fst).Nodup
  retry : IsPart (entries.lookup "retry")
  circuit : IsPart (entries.lookup "circuit_breaker")
  monitoring : IsPart (entries.lookup "monitoring")

variable {entries : List (String × Json)} {config : ExecutorConfig}

theorem forgiving_reader : reader.Forgiving :=
  (Forgiving.field _ _ _).map _ |>.seq (.field _ _ _) |>.seq (.field _ _ _) |>.seq (.field _ _ _)
    |>.seq (.field _ _ _) |>.seq (.field _ _ _) |>.seq (.field _ _ _) |>.seq (.field _ _ _)

theorem slots_reader : reader.slots = (ownFields ++ partFields).map RecordField.slot := rfl

/-- A configuration is put together from what is read of its fields and of the session limits. -/
theorem decode_eq_ok_iff_yields (hnames : (entries.map Prod.fst).Nodup) :
    decode .text (.object entries) = .ok config ↔
      reader.Yields .text .object (fun name => entries.lookup name) fun make =>
        ∃ limits, SessionLimits.reader.ofEntries .text entries = .ok limits ∧ make limits = config := by
  simp only [decode, RecordReader.Yields, ← forgiving_reader.attentive.ofEntries_eq_ok_iff hnames]
  cases reader.ofEntries .text entries with
  | error fault => simp [bind, Except.bind]
  | ok make =>
    cases SessionLimits.reader.ofEntries .text entries with
    | error fault => simp [bind, Except.bind, Except.mapError]
    | ok limits => simp [bind, Except.bind, pure, Except.pure, Except.mapError]

/-- **A configuration is read exactly if it takes every setting.** -/
theorem decode_eq_ok_iff (h : Shaped entries) :
    decode .text (.object entries) = .ok config ↔ ∀ s ∈ settings, s.Takes (.object entries) config := by
  rw [decode_eq_ok_iff_yields h.names, forall_settings]
  simp only [reader, RecordReader.yields_seq, RecordReader.yields_map, RecordReader.yields_field_default, ownFields,
    List.forall_mem_cons, Setting.takes_field_iff]
  have hlimits_iff {limits : SessionLimits} : SessionLimits.reader.ofEntries .text entries = .ok limits ↔
      ∀ f ∈ SessionLimits.fields, (entries.lookup f.name = none ∧ f.get limits = f.get {}) ∨
        ∃ json, entries.lookup f.name = some json ∧ f.codec.decode .text json = .ok (f.get limits) := by
    simp only [SessionLimits.fills.ofEntries_eq_ok_iff h.names, RecordField.takes_iff]
  constructor
  · rintro ⟨_, hdatabase, _, hsize, _, hparallel, _, hretries, _, hmode, _, hretry, _, hcircuit, _, hmonitoring, _,
      hlimits, rfl⟩
    exact ⟨⟨hdatabase, hsize, hparallel, hretries, hmode, nofun⟩, hlimits_iff.1 hlimits,
      (RetryPolicy.fills.part_iff h.retry).1 hretry, (CircuitConfig.fills.part_iff h.circuit).1 hcircuit,
      (MonitoringConfig.fills.part_iff h.monitoring).1 hmonitoring⟩
  · rintro ⟨⟨hdatabase, hsize, hparallel, hretries, hmode, -⟩, hlimits, hretry, hcircuit, hmonitoring⟩
    exact ⟨_, hdatabase, _, hsize, _, hparallel, _, hretries, _, hmode,
      _, (RetryPolicy.fills.part_iff h.retry).2 hretry, _, (CircuitConfig.fills.part_iff h.circuit).2 hcircuit,
      _, (MonitoringConfig.fills.part_iff h.monitoring).2 hmonitoring, _, hlimits_iff.2 hlimits, rfl⟩

/-- What is named decodes, so that a configuration is read. -/
theorem exists_decode (h : Shaped entries) (hdecodes : ∀ s ∈ settings, s.Decodes (.object entries)) :
    ∃ config, decode .text (.object entries) = .ok config := by
  obtain ⟨hown, hlimits, hretry, hcircuit, hmonitoring⟩ := forall_settings.1 hdecodes
  have hparts : ∀ f ∈ partFields, f.Decodes (entries.lookup f.name) := by
    simp only [partFields, List.forall_mem_cons]
    exact ⟨RetryPolicy.fills.exists_part h.retry hretry _ _, CircuitConfig.fills.exists_part h.circuit hcircuit _ _,
      MonitoringConfig.fills.exists_part h.monitoring hmonitoring _ _, nofun⟩
  have hfaultless : ∀ slot ∈ reader.slots, ∀ json ∈ entries.lookup slot.1, slot.2.fault? .text json = none := by
    rw [slots_reader, List.forall_mem_map, List.forall_mem_append]
    refine ⟨fun f hf json hjson => Decoder.fault?_eq_none_iff.2 ?_,
      fun f hf json hjson => Decoder.fault?_eq_none_iff.2 (hparts f hf json hjson)⟩
    exact hown f hf json ((Setting.at?_field entries f).trans hjson)
  obtain ⟨make, hmake⟩ := forgiving_reader.builds (fun name => entries.lookup name) hfaultless
  obtain ⟨limits, hread⟩ : ∃ limits, SessionLimits.reader.ofEntries .text entries = .ok limits := by
    refine SessionLimits.fills.exists_ofEntries h.names fun f hf json hjson => ?_
    exact hlimits f hf json ((Setting.at?_field entries (f.of sessions)).trans hjson)
  exact ⟨make limits, (decode_eq_ok_iff_yields h.names).2 ⟨make, hmake, limits, hread, rfl⟩⟩

/-! ## Reading the text -/

theorem thorough_ownFields : ∀ f ∈ ownFields, f.codec.Thorough := by
  simp only [ownFields, List.forall_mem_cons]
  exact ⟨thorough_option thorough_string, thorough_size, thorough_bool, thorough_unsigned32, thorough_choice _ _, nofun⟩

theorem thorough_settings : ∀ s ∈ settings, s.field.codec.Thorough :=
  forall_settings.2 ⟨thorough_ownFields, SessionLimits.fills.thorough, RetryPolicy.fills.thorough,
    CircuitConfig.fills.thorough, MonitoringConfig.fills.thorough⟩

/-- Along the path of a setting, the text is looked at as its value needs it. -/
theorem interest_along : ∀ s ∈ settings, interest.along s.path = s.field.codec.interest :=
  List.map_inj_left.1 rfl

/-- What is passed over does not matter to a setting. -/
theorem takes_seen_iff {s : Setting} (hs : s ∈ settings) {json : Json} :
    s.Takes (json.seen interest) config ↔ s.Takes json config := by
  have hfull : (interest.along s.path).IsFull := (interest_along s hs).symm ▸ (thorough_settings s hs).full
  have hmap : (json.at? s.path).map (Json.seen (interest.along s.path)) = json.at? s.path := by
    rw [show Json.seen (interest.along s.path) = id from funext hfull, Option.map_id_fun, id]
  rw [Setting.Takes, Json.at?_seen hfull.isKept, hmap]
  rfl

theorem Shaped.seen (h : Shaped entries) : Shaped (Json.seenFields interest entries) := by
  have hkept : interest.isKept = true := rfl
  have hpart {name : String} (hpart : IsPart (entries.lookup name)) (hname : (interest.field name).isKept = true) :
      IsPart ((Json.seenFields interest entries).lookup name) := by
    rw [Json.lookup_seenFields hkept]
    exact hpart.seen hname
  refine ⟨?_, hpart h.retry rfl, hpart h.circuit rfl, hpart h.monitoring rfl⟩
  rw [Json.map_fst_seenFields hkept]
  exact h.names

theorem careful_reader : reader.Careful := by
  refine RecordReader.careful_of_slots slots_reader (List.forall_mem_append.2 ⟨fun f hf => ?_, ?_⟩)
  · exact (thorough_ownFields f hf).careful
  · simp only [partFields, List.forall_mem_cons]
    exact ⟨RetryPolicy.fills.careful.codec _ _, CircuitConfig.fills.careful.codec _ _,
      MonitoringConfig.fills.careful.codec _ _, nofun⟩

/-- **The outcome of a text is that of the object that it holds**, though unknown fields of its parts are passed
over. -/
theorem ofText_of_read? {text : String} (htext : Json.read? text = some (.object entries)) (h : Shaped entries)
    (hdecode : decode .text (.object entries) = .ok config) :
    ofText text = match config.complaint? with
      | none => .ok config
      | some complaint => .error (.refused complaint) := by
  have hlegible : Json.Legible interest (.object entries) := by
    obtain ⟨make, hmake, -⟩ := (decode_eq_ok_iff_yields h.names).1 hdecode
    exact careful_reader.legible_object .whole
      ((forgiving_reader.attentive.ofEntries_eq_ok_iff h.names).2 hmake)
  have hseen : decode .text (Json.seen interest (.object entries)) = .ok config := by
    refine (decode_eq_ok_iff h.seen).2 fun s hs => ?_
    exact (takes_seen_iff hs).2 ((decode_eq_ok_iff h).1 hdecode s hs)
  have hscan := Json.scan_of_read? htext hlegible
  cases hcomplaint : config.complaint? with
  | none => simp only [ofText, hscan, hseen, hcomplaint]
  | some complaint => simp only [ofText, hscan, hseen, hcomplaint]

/-! ## The rules -/

/-- A configuration that keeps the rules. -/
structure Usable (c : ExecutorConfig) : Prop where
  chunkSize : 1 ≤ c.chunkSize
  maxSessions : 1 ≤ c.sessions.maxSessions
  failureThreshold : 1 ≤ c.circuit.failureThreshold
  cleanupInterval : 0 < c.sessions.cleanupInterval.nanos
  delays : c.retry.initialDelay ≤ c.retry.maxDelay

theorem complaint?_eq_none_iff : config.complaint? = none ↔ config.Usable := by
  rw [complaint?, RetryPolicy.complaint?]
  split_ifs with hsize hsessions hcleanup hthreshold hdelays
  · exact iff_of_false nofun fun h => absurd hsize (Nat.one_le_iff_ne_zero.1 h.chunkSize)
  · exact iff_of_false nofun fun h => absurd hsessions (Nat.one_le_iff_ne_zero.1 h.maxSessions)
  · exact iff_of_false nofun fun h => absurd hcleanup (Nat.pos_iff_ne_zero.1 h.cleanupInterval)
  · exact iff_of_false nofun fun h => absurd hthreshold (Nat.one_le_iff_ne_zero.1 h.failureThreshold)
  · exact iff_of_true rfl ⟨Nat.one_le_iff_ne_zero.2 hsize, Nat.one_le_iff_ne_zero.2 hsessions,
      Nat.one_le_iff_ne_zero.2 hthreshold, Nat.pos_of_ne_zero hcleanup, hdelays⟩
  · exact iff_of_false nofun fun h => absurd h.delays hdelays

/-! ## The order of the fields -/

/-- A setting finds the same value in canonical form. -/
theorem at?_canonical (h : Shaped entries) : ∀ s ∈ settings,
    (Json.object entries).canonical.at? s.path = ((Json.object entries).at? s.path).map Json.canonical :=
  forall_settings.2
    ⟨fun _ _ => Json.at?_canonical_cons h.names fun _ _ => rfl,
      fun _ _ => Json.at?_canonical_cons h.names fun _ _ => rfl,
      fun f _ => Json.at?_canonical_cons h.names (h.retry.at?_canonical f.name),
      fun f _ => Json.at?_canonical_cons h.names (h.circuit.at?_canonical f.name),
      fun f _ => Json.at?_canonical_cons h.names (h.monitoring.at?_canonical f.name)⟩

theorem takes_canonical (h : Shaped entries) {s : Setting} (hs : s ∈ settings)
    (htakes : s.Takes (.object entries) config) : s.Takes (Json.object entries).canonical config := by
  rw [Setting.Takes, at?_canonical h s hs]
  exact htakes.canonical (thorough_settings s hs)

/-- Objects that differ in the order of their fields only are read as the same configuration. -/
theorem eq_of_canonical {others : List (String × Json)} (h : Shaped entries) (hothers : Shaped others)
    (hsame : (Json.object others).canonical = (Json.object entries).canonical) {other : ExecutorConfig}
    (hdecode : decode .text (.object entries) = .ok config) (hother : decode .text (.object others) = .ok other) :
    other = config := by
  have hget : ∀ s ∈ settings, s.field.get other = s.field.get config := by
    intro s hs
    have htakes := takes_canonical h hs ((decode_eq_ok_iff h).1 hdecode s hs)
    have htakesOther := takes_canonical hothers hs ((decode_eq_ok_iff hothers).1 hother s hs)
    rw [hsame] at htakesOther
    exact htakesOther.get_eq htakes
  have hread : decode .text (.object entries) = .ok other :=
    (decode_eq_ok_iff h).2 fun s hs => (RecordField.takes_congr (hget s hs)).2 ((decode_eq_ok_iff h).1 hdecode s hs)
  exact Except.ok.inj (hread.symm.trans hdecode)

/-- An object that can be taken for a configuration: no name stands twice in it, its parts are objects, and whatever is
named for a setting decodes.  Nothing is said of what else stands there. -/
structure Fits (entries : List (String × Json)) : Prop extends Shaped entries where
  decodes : ∀ s ∈ settings, s.Decodes (.object entries)

theorem fits_of_decode (h : Shaped entries) (hdecode : decode .text (.object entries) = .ok config) : Fits entries where
  toShaped := h
  decodes := fun s hs => ((decode_eq_ok_iff h).1 hdecode s hs).decodes

end ExecutorConfig

open ExecutorConfig in
/-- **A configuration text only changes what it names.**  The object of a text that fits is taken for exactly one
configuration: where a value is named for a setting, it is that value, decoded, and every other setting has its default.
The text gives this configuration if it keeps the rules, and a configuration failure otherwise.  A text whose fields
stand in another order, at whatever depth, comes to the same. -/
theorem text_changes_what_it_names {text : String} {entries : List (String × Json)}
    (htext : Json.read? text = some (.object entries)) (h : Fits entries) :
    ∃ config : ExecutorConfig,
      (∀ other, (∀ s ∈ settings, s.Takes (.object entries) other) ↔ other = config) ∧
        (ofText text = .ok config ↔ config.Usable) ∧
        (¬config.Usable → ∃ fault, ofText text = .error fault ∧ fault.failure.kind = .configuration) ∧
        ∀ (reordered : String) (others : List (String × Json)), Json.read? reordered = some (.object others) →
          Fits others → (Json.object others).canonical = (Json.object entries).canonical →
            ofText reordered = ofText text ∧ ∀ s ∈ settings, s.Takes (.object others) config := by
  obtain ⟨config, hdecode⟩ := exists_decode h.toShaped h.decodes
  have htext := ofText_of_read? htext h.toShaped hdecode
  refine ⟨config, fun other => ?_, ?_, ?_, fun reordered others hreordered hothers hsame => ?_⟩
  · rw [← decode_eq_ok_iff h.toShaped, hdecode, Except.ok.injEq, eq_comm]
  · rw [htext, ← complaint?_eq_none_iff]
    cases config.complaint? <;> simp
  · intro hunusable
    rw [← complaint?_eq_none_iff] at hunusable
    obtain ⟨complaint, hcomplaint⟩ := Option.ne_none_iff_exists'.1 hunusable
    exact ⟨.refused complaint, by rw [htext, hcomplaint], rfl⟩
  · obtain ⟨other, hother⟩ := exists_decode hothers.toShaped hothers.decodes
    obtain rfl := eq_of_canonical h.toShaped hothers.toShaped hsame hdecode hother
    refine ⟨?_, (decode_eq_ok_iff hothers.toShaped).1 hother⟩
    rw [htext, ofText_of_read? hreordered hothers.toShaped hother]

/-- A text that names some settings, among fields that mean nothing. -/
def partialText : String :=
  "\x7b\"cleanup_interval\":15,\"extension\":[\x7b\"chunk_size\":0\x7d],\"chunk_size\":7,
  \"retry\":\x7b\"jitter\":null,\"strategy\":\"linear\",\"max_delay\":20.0\x7d,
  \"monitoring\":\x7b\"additional_labels\":\x7b\"zone\":\"b\",\"rack\":\"a\"\x7d\x7d\x7d"

/-- The object of that text. -/
def partialEntries : List (String × Json) :=
  [("cleanup_interval", .int 15), ("extension", .array [.object [("chunk_size", .int 0)]]), ("chunk_size", .int 7),
    ("retry", .object [("jitter", .null), ("strategy", .str "linear"), ("max_delay", .float (.ofInt 20))]),
    ("monitoring", .object [("additional_labels", .object [("zone", .str "b"), ("rack", .str "a")])])]

/-- The defaults with what is named there in their place. -/
def partialConfig : ExecutorConfig where
  chunkSize := 7
  sessions := { cleanupInterval := .ofWholeSeconds 15 }
  retry := { strategy := .linear, maxDelay := .ofWholeSeconds 20 }
  monitoring := { MonitoringConfig.detailed with additionalLabels := some (.ofList [("rack", "a"), ("zone", "b")]) }

set_option maxRecDepth 10000 in
theorem read?_partialText : Json.read? partialText = some (.object partialEntries) := by
  rw [Json.read?, Json.scan, show partialText.toList = _ from String.toList_ofList]
  decide +kernel

theorem decode_partialEntries : ExecutorConfig.decode .text (.object partialEntries) = .ok partialConfig := by
  have hread : (ExecutorConfig.decode .text (.object partialEntries)).toOption = some partialConfig := by decide +kernel
  revert hread
  cases ExecutorConfig.decode .text (.object partialEntries) <;> simp [Except.toOption]

theorem fits_partialEntries : ExecutorConfig.Fits partialEntries := by
  refine ExecutorConfig.fits_of_decode ⟨by decide, ?retry, nofun, ?monitoring⟩ decode_partialEntries
  all_goals
    rintro _ ⟨⟩
    exact ⟨_, rfl, by decide⟩

theorem text_changes_what_it_names_of_partialText :
    Json.read? partialText = some (.object partialEntries) ∧ ExecutorConfig.Fits partialEntries ∧
      ExecutorConfig.ofText partialText = .ok partialConfig := by
  obtain ⟨config, hunique, hok, -⟩ := text_changes_what_it_names read?_partialText fits_partialEntries
  have htakes := (ExecutorConfig.decode_eq_ok_iff fits_partialEntries.toShaped).1 decode_partialEntries
  obtain rfl := (hunique partialConfig).1 htakes
  refine ⟨read?_partialText, fits_partialEntries, hok.2 ⟨?_, ?_, ?_, ?_, ?_⟩⟩
  all_goals decide

end QueryRelay
