import QueryRelay.ParameterBatch
import QueryRelay.Proofs.Codec.Accept

/-!
# Rows of bulk iterations

The engine answers a bulk iteration with one row.  This module says which rows are read as such an answer, and as what.

* `Json.isUnsigned64`, `BatchUpdateStatistics.isWritten`, `BatchResponse.isRow` — the grammar of these rows, said
  without the decoder.
* `BatchUpdateStatistics.IsReadFrom`, `BatchResponse.IsReadFrom` — which entry each part of a response is read from.
* `batch_row_read_iff` — **a row is read exactly if it follows the grammar**, every part of the response from the entry
  of its name, whatever else the row holds; and the response survives being written.
-/

namespace QueryRelay

open RecordReader (Attentive build_eq_ok_iff yields_seq yields_map yields_count yields_bool yields_fields
  yields_field_default)

/-! ## The grammar -/

namespace Json

/-- Whether a value is an integer of 64 bits without sign. -/
def isUnsigned64 : Json → Bool
  | .int i => 0 ≤ i && i < Nat.pow 2 64
  | _ => false

def isBool : Json → Bool
  | .bool _ => true
  | _ => false

def isObject : Json → Bool
  | .object _ => true
  | _ => false

end Json

/-- Whether a field is there and its value passes a test. -/
def Fields.has (fields : Fields) (name : String) (test : Json → Bool) : Bool := (fields.get? name).any test

namespace BatchUpdateStatistics

/-- The names of the counters, in the order of their declaration. -/
def columns : List String :=
  ["nodesCreated", "nodesDeleted", "relationshipsCreated", "relationshipsDeleted", "propertiesSet", "labelsAdded",
    "labelsRemoved"]

/-- What the writes of a bulk iteration may be given as: as null, by name among other entries, or as the list of all
counters. -/
def isWritten : Json → Bool
  | .null => true
  | .object entries => columns.all fun name => Fields.has entries name Json.isUnsigned64
  | .array items => items.length = 7 && items.all Json.isUnsigned64
  | _ => false

end BatchUpdateStatistics

namespace BatchResponse

/-- The names of the counters. -/
def countColumns : List String :=
  ["batches", "total", "timeTaken", "committedOperations", "failedOperations", "failedBatches", "retries"]

/-- Whether a row is the aggregated row of a bulk iteration; the writes may be left out of it. -/
def isRow (row : Fields) : Bool :=
  countColumns.all (fun name => row.has name Json.isUnsigned64) && row.has "errorMessages" Json.isObject &&
    row.has "wasTerminated" Json.isBool && (row.get? "updateStatistics").all BatchUpdateStatistics.isWritten

end BatchResponse

/-! ## What a response is read from -/

/-- Each counter is what is given under its name. -/
structure BatchUpdateStatistics.IsReadFrom (given : String → Option Json) (s : BatchUpdateStatistics) : Prop where
  nodesCreated : IsCount s.nodesCreated (given "nodesCreated")
  nodesDeleted : IsCount s.nodesDeleted (given "nodesDeleted")
  relationshipsCreated : IsCount s.relationshipsCreated (given "relationshipsCreated")
  relationshipsDeleted : IsCount s.relationshipsDeleted (given "relationshipsDeleted")
  propertiesSet : IsCount s.propertiesSet (given "propertiesSet")
  labelsAdded : IsCount s.labelsAdded (given "labelsAdded")
  labelsRemoved : IsCount s.labelsRemoved (given "labelsRemoved")

/-- The writes that an entry stands for, and there are none unless it says so. -/
inductive BatchUpdateStatistics.StandsFor : Option Json → Option BatchUpdateStatistics → Prop where
  | absent : StandsFor none none
  | null : StandsFor (some .null) none
  | object {entries : Fields} {s : BatchUpdateStatistics} (h : s.IsReadFrom fun name => entries.get? name) :
      StandsFor (some (.object entries)) (some s)
  | list {s : BatchUpdateStatistics} (h : s.Sound) : StandsFor (some (.array (s.counts.map .ofNat))) (some s)

/-- Each part of a response is what is given under its name. -/
structure BatchResponse.IsReadFrom (given : String → Option Json) (r : BatchResponse) : Prop where
  batches : IsCount r.batches (given "batches")
  total : IsCount r.total (given "total")
  timeTaken : IsCount r.timeTaken (given "timeTaken")
  committedOperations : IsCount r.committedOperations (given "committedOperations")
  failedOperations : IsCount r.failedOperations (given "failedOperations")
  failedBatches : IsCount r.failedBatches (given "failedBatches")
  retries : IsCount r.retries (given "retries")
  errorMessages : given "errorMessages" = some (.object r.errorMessages)
  wasTerminated : given "wasTerminated" = some (.bool r.wasTerminated)
  updateStatistics : BatchUpdateStatistics.StandsFor (given "updateStatistics") r.updateStatistics

/-! ## Counts -/

theorem isUnsigned64_iff {json : Json} : json.isUnsigned64 = true ↔ ∃ n, json = .ofNat n ∧ Fits64 n := by
  constructor
  · intro h
    cases json with
    | int i =>
      simp only [Json.isUnsigned64, Bool.and_eq_true, decide_eq_true_eq] at h
      exact ⟨i.toNat, congrArg Json.int (Int.toNat_of_nonneg h.1).symm, (Int.toNat_lt h.1).2 h.2⟩
    | _ => cases h
  · rintro ⟨n, rfl, hfits⟩
    simp only [Json.ofNat, Json.isUnsigned64, Bool.and_eq_true, decide_eq_true_eq]
    exact ⟨Int.natCast_nonneg n, Int.ofNat_lt.2 hfits⟩

theorem any_isUnsigned64_iff {json? : Option Json} : json?.any Json.isUnsigned64 = true ↔ ∃ n, IsCount n json? := by
  cases json? with
  | none => simp [IsCount]
  | some json => simp [isUnsigned64_iff, IsCount]

/-! ## The writes -/

namespace BatchUpdateStatistics

/-- The reader behind the codec, and what it builds. -/
theorem exists_reader :
    ∃ reader : RecordReader BatchUpdateStatistics, codec.decode = reader.decode "BatchUpdateStatistics" ∧
      reader.Attentive ∧ reader.slots.map Prod.fst = columns ∧
      ∀ (source : Source) (shape : RecordShape) (given : String → Option Json) (s : BatchUpdateStatistics),
        reader.build source shape given = .ok s ↔ s.IsReadFrom given := by
  refine ⟨_, rfl, ?attentive, rfl, fun source shape given s => ?build⟩
  case attentive =>
    exact (Attentive.field _ _ _).map _ |>.seq (.field _ _ _) |>.seq (.field _ _ _) |>.seq (.field _ _ _)
      |>.seq (.field _ _ _) |>.seq (.field _ _ _) |>.seq (.field _ _ _)
  case build =>
    simp only [build_eq_ok_iff, yields_seq, yields_map, yields_count]
    constructor
    · rintro ⟨_, h1, _, h2, _, h3, _, h4, _, h5, _, h6, _, h7, rfl⟩
      exact ⟨h1, h2, h3, h4, h5, h6, h7⟩
    · rintro ⟨h1, h2, h3, h4, h5, h6, h7⟩
      exact ⟨_, h1, _, h2, _, h3, _, h4, _, h5, _, h6, _, h7, rfl⟩

theorem IsReadFrom.sound {given : String → Option Json} {s : BatchUpdateStatistics} (h : s.IsReadFrom given) :
    s.Sound := by
  simp only [Sound, counts, List.forall_mem_cons]
  exact ⟨h.nodesCreated.2, h.nodesDeleted.2, h.relationshipsCreated.2, h.relationshipsDeleted.2, h.propertiesSet.2,
    h.labelsAdded.2, h.labelsRemoved.2, by simp⟩

/-- The counters are read from a list exactly if it is the list of them. -/
theorem isReadFrom_list_iff {items : List Json} {s : BatchUpdateStatistics} :
    items.length ≤ columns.length ∧ s.IsReadFrom (fun name => (columns.zip items).lookup name) ↔
      items = s.counts.map .ofNat ∧ s.Sound := by
  constructor
  · rintro ⟨hlength, hread⟩
    refine ⟨?_, hread.sound⟩
    match items, hlength, hread with
    | [a, b, c, d, e, f, g], _, h =>
      obtain rfl : a = .ofNat s.nodesCreated := Option.some.inj h.nodesCreated.1
      obtain rfl : b = .ofNat s.nodesDeleted := Option.some.inj h.nodesDeleted.1
      obtain rfl : c = .ofNat s.relationshipsCreated := Option.some.inj h.relationshipsCreated.1
      obtain rfl : d = .ofNat s.relationshipsDeleted := Option.some.inj h.relationshipsDeleted.1
      obtain rfl : e = .ofNat s.propertiesSet := Option.some.inj h.propertiesSet.1
      obtain rfl : f = .ofNat s.labelsAdded := Option.some.inj h.labelsAdded.1
      obtain rfl : g = .ofNat s.labelsRemoved := Option.some.inj h.labelsRemoved.1
      rfl
    -- A shorter list has nothing in the last place.
    | [], _, h | [_], _, h | [_, _], _, h | [_, _, _], _, h | [_, _, _, _], _, h | [_, _, _, _, _], _, h
    | [_, _, _, _, _, _], _, h => exact nomatch h.labelsRemoved.1
  · rintro ⟨rfl, hsound⟩
    simp only [Sound, counts, List.forall_mem_cons] at hsound
    obtain ⟨h1, h2, h3, h4, h5, h6, h7, -⟩ := hsound
    exact ⟨Nat.le_refl 7, ⟨rfl, h1⟩, ⟨rfl, h2⟩, ⟨rfl, h3⟩, ⟨rfl, h4⟩, ⟨rfl, h5⟩, ⟨rfl, h6⟩, ⟨rfl, h7⟩⟩

theorem decode_object_eq_ok_iff {source : Source} {entries : Fields} (h : entries.IsCanonical)
    {s : BatchUpdateStatistics} :
    codec.decode source (.object entries) = .ok s ↔ s.IsReadFrom fun name => entries.get? name := by
  obtain ⟨reader, hdecode, hreader, -, hbuild⟩ := exists_reader
  rw [hdecode]
  exact (hreader.ofEntries_eq_ok_iff h.nodup).trans (hbuild source .object _ s)

theorem decode_array_eq_ok_iff {source : Source} {items : List Json} {s : BatchUpdateStatistics} :
    codec.decode source (.array items) = .ok s ↔ items = s.counts.map .ofNat ∧ s.Sound := by
  obtain ⟨reader, hdecode, hreader, hnames, hbuild⟩ := exists_reader
  rw [hdecode, ← isReadFrom_list_iff, ← hnames]
  refine (hreader.ofItems_eq_ok_iff ?_).trans (and_congr_right fun _ => hbuild source .list _ s)
  rw [hnames]
  decide

/-- An entry is decoded as the writes that it stands for. -/
theorem decode_option_eq_ok_iff {source : Source} {json : Json} (h : json.canonical = json)
    {s? : Option BatchUpdateStatistics} :
    (Codec.option codec).decode source json = .ok s? ↔ StandsFor (some json) s? := by
  rw [Codec.decode_option_eq_ok_iff]
  constructor
  · rintro (⟨rfl, rfl⟩ | ⟨hnull, s, hdecode, rfl⟩)
    · exact .null
    · cases json with
      | object entries => exact .object ((decode_object_eq_ok_iff (Json.object.inj h)).1 hdecode)
      | array items =>
        obtain ⟨rfl, hsound⟩ := decode_array_eq_ok_iff.1 hdecode
        exact .list hsound
      | null => exact absurd rfl hnull
      | _ => exact nomatch hdecode
  · intro hstands
    cases hstands with
    | null => exact Or.inl ⟨rfl, rfl⟩
    | object hread => exact Or.inr ⟨Json.noConfusion, _, (decode_object_eq_ok_iff (Json.object.inj h)).2 hread, rfl⟩
    | list hsound => exact Or.inr ⟨Json.noConfusion, _, decode_array_eq_ok_iff.2 ⟨rfl, hsound⟩, rfl⟩

theorem yields_updateStatistics {source : Source} {shape : RecordShape} {given : String → Option Json} {name : String}
    (hcanonical : ∀ json ∈ given name, json.canonical = json) {wanted : Option BatchUpdateStatistics → Prop} :
    (RecordReader.field name (Codec.option codec) (.default none)).Yields source shape given wanted ↔
      ∃ s?, StandsFor (given name) s? ∧ wanted s? := by
  rw [yields_field_default]
  refine exists_congr fun s? => and_congr_left fun _ => ?_
  cases hjson : given name with
  | none =>
    constructor
    · rintro (⟨-, rfl⟩ | ⟨_, hnone, -⟩)
      · exact .absent
      · exact nomatch hnone
    · intro hstands
      cases hstands
      exact Or.inl ⟨rfl, rfl⟩
  | some json =>
    have hdecode : (Codec.option codec).decode source json = .ok s? ↔ StandsFor (some json) s? :=
      decode_option_eq_ok_iff (hcanonical json hjson)
    rw [← hdecode]
    simp

theorem StandsFor.sound {json? : Option Json} {s : BatchUpdateStatistics} (h : StandsFor json? (some s)) :
    s.Sound := by
  cases h with
  | object hread => exact hread.sound
  | list hsound => exact hsound

theorem exists_isReadFrom_iff {given : String → Option Json} :
    (∃ s : BatchUpdateStatistics, s.IsReadFrom given) ↔ ∀ name ∈ columns, ∃ n, IsCount n (given name) := by
  simp only [columns, List.forall_mem_cons]
  constructor
  · rintro ⟨s, h⟩
    exact ⟨⟨_, h.nodesCreated⟩, ⟨_, h.nodesDeleted⟩, ⟨_, h.relationshipsCreated⟩, ⟨_, h.relationshipsDeleted⟩,
      ⟨_, h.propertiesSet⟩, ⟨_, h.labelsAdded⟩, ⟨_, h.labelsRemoved⟩, by simp⟩
  · rintro ⟨⟨a, ha⟩, ⟨b, hb⟩, ⟨c, hc⟩, ⟨d, hd⟩, ⟨e, he⟩, ⟨f, hf⟩, ⟨g, hg⟩, -⟩
    exact ⟨⟨a, b, c, d, e, f, g⟩, ha, hb, hc, hd, he, hf, hg⟩

theorem exists_counts_iff {items : List Json} :
    (∃ s : BatchUpdateStatistics, items = s.counts.map .ofNat ∧ s.Sound) ↔
      items.length = 7 ∧ ∀ item ∈ items, item.isUnsigned64 = true := by
  constructor
  · rintro ⟨s, rfl, hsound⟩
    refine ⟨rfl, List.forall_mem_map.2 fun n hn => ?_⟩
    exact isUnsigned64_iff.2 ⟨n, rfl, hsound n hn⟩
  · rintro ⟨hlength, hitems⟩
    match items, hlength with
    | [_, _, _, _, _, _, _], _ =>
      simp only [List.forall_mem_cons, isUnsigned64_iff] at hitems
      obtain ⟨⟨a, rfl, ha⟩, ⟨b, rfl, hb⟩, ⟨c, rfl, hc⟩, ⟨d, rfl, hd⟩, ⟨e, rfl, he⟩, ⟨f, rfl, hf⟩, ⟨g, rfl, hg⟩, -⟩ :=
        hitems
      refine ⟨⟨a, b, c, d, e, f, g⟩, rfl, ?_⟩
      simp only [Sound, counts, List.forall_mem_cons]
      exact ⟨ha, hb, hc, hd, he, hf, hg, by simp⟩

/-- The entries that stand for something are those of the grammar. -/
theorem exists_standsFor_iff {json? : Option Json} :
    (∃ s?, StandsFor json? s?) ↔ json?.all isWritten = true := by
  cases json? with
  | none => simpa using ⟨none, StandsFor.absent⟩
  | some json =>
    rw [Option.all_some]
    cases json with
    | null => exact iff_of_true ⟨none, .null⟩ rfl
    | object entries =>
      have hwritten : isWritten (.object entries) = true ↔
          ∀ name ∈ columns, ∃ n, IsCount n (Fields.get? name entries) := by
        simp only [isWritten, Fields.has, List.all_eq_true, any_isUnsigned64_iff]
      rw [hwritten, ← exists_isReadFrom_iff]
      constructor
      · rintro ⟨_, _ | _ | hread⟩
        exact ⟨_, hread⟩
      · rintro ⟨s, hread⟩
        exact ⟨some s, .object hread⟩
    | array items =>
      have hwritten : isWritten (.array items) = true ↔
          items.length = 7 ∧ ∀ item ∈ items, item.isUnsigned64 = true := by
        simp [isWritten]
      rw [hwritten, ← exists_counts_iff]
      constructor
      · rintro ⟨_, _ | _ | _ | hsound⟩
        exact ⟨_, rfl, hsound⟩
      · rintro ⟨s, rfl, hsound⟩
        exact ⟨some s, .list hsound⟩
    | _ => exact iff_of_false (fun ⟨_, hstands⟩ => nomatch hstands) Bool.false_ne_true

end BatchUpdateStatistics

/-! ## The row -/

namespace BatchResponse

/-- The reader behind the codec, and what it builds from values in canonical form. -/
theorem exists_reader :
    ∃ reader : RecordReader BatchResponse, codec.decode = reader.decode "BatchResponse" ∧ reader.Attentive ∧
      reader.slots.map Prod.fst = BulkIteration.responseColumns ∧
      ∀ (source : Source) (shape : RecordShape) (given : String → Option Json) (r : BatchResponse),
        (∀ name, ∀ json ∈ given name, json.canonical = json) →
          (reader.build source shape given = .ok r ↔ r.IsReadFrom given) := by
  refine ⟨_, rfl, ?attentive, rfl, fun source shape given r hgiven => ?build⟩
  case attentive =>
    exact (Attentive.field _ _ _).map _ |>.seq (.field _ _ _) |>.seq (.field _ _ _) |>.seq (.field _ _ _)
      |>.seq (.field _ _ _) |>.seq (.field _ _ _) |>.seq (.field _ _ _) |>.seq (.field _ _ _) |>.seq (.field _ _ _)
      |>.seq (.field _ _ _)
  case build =>
    simp only [build_eq_ok_iff, yields_seq, yields_map, yields_count, yields_bool, yields_fields (hgiven _),
      BatchUpdateStatistics.yields_updateStatistics (hgiven _)]
    constructor
    · rintro ⟨_, h1, _, h2, _, h3, _, h4, _, h5, _, h6, _, h7, _, h8, _, h9, _, h10, rfl⟩
      exact ⟨h1, h2, h3, h4, h5, h6, h7, h8, h9, h10⟩
    · rintro ⟨h1, h2, h3, h4, h5, h6, h7, h8, h9, h10⟩
      exact ⟨_, h1, _, h2, _, h3, _, h4, _, h5, _, h6, _, h7, _, h8, _, h9, _, h10, rfl⟩

theorem ofRecord_eq_mapError (row : Fields) :
    ofRecord row =
      ((codec.decode .value (.object row)).mapError DecodeFault.message).mapError Failure.malformedBatchResponse := by
  rw [ofRecord]
  cases codec.decode .value (.object row) <;> rfl

/-- A row is read as a response exactly if each part of the response is the entry of its name. -/
theorem ofRecord_eq_ok_iff {row : Fields} (h : row.IsCanonical) {response : BatchResponse} :
    ofRecord row = .ok response ↔ response.IsReadFrom fun name => row.get? name := by
  obtain ⟨reader, hdecode, hreader, -, hbuild⟩ := exists_reader
  have hread : ofRecord row = .ok response ↔ reader.ofEntries .value row = .ok response := by
    rw [ofRecord_eq_mapError, hdecode]
    show ((reader.ofEntries .value row).mapError DecodeFault.message).mapError _ = _ ↔ _
    cases reader.ofEntries .value row <;> simp [Except.mapError]
  exact hread.trans
    ((hreader.ofEntries_eq_ok_iff h.nodup).trans (hbuild .value .object _ response h.canonical_of_lookup))

/-- Entries of other names do not matter, whether the row is read or refused. -/
theorem ofRecord_congr {row other : Fields} (h : row.IsCanonical) (hother : other.IsCanonical)
    (hsame : ∀ column ∈ BulkIteration.responseColumns, row.get? column = other.get? column) :
    ofRecord row = ofRecord other := by
  obtain ⟨reader, hdecode, hreader, hnames, -⟩ := exists_reader
  have hslots : ∀ slot ∈ reader.slots, row.lookup slot.1 = other.lookup slot.1 := by
    intro slot hslot
    refine hsame slot.1 ?_
    rw [← hnames]
    exact List.mem_map_of_mem hslot
  have htold : RecordReader.told (reader.ofEntries .value row) = RecordReader.told (reader.ofEntries .value other) :=
    hreader.ofEntries_congr h.ascending hother.ascending hslots
  rw [ofRecord_eq_mapError, ofRecord_eq_mapError, hdecode]
  exact congrArg (Except.mapError Failure.malformedBatchResponse) htold

theorem IsReadFrom.sound {given : String → Option Json} {response : BatchResponse}
    (hgiven : ∀ name, ∀ json ∈ given name, json.canonical = json) (h : response.IsReadFrom given) :
    response.Sound := by
  refine ⟨?counts, Json.object.inj (hgiven _ _ h.errorMessages), ?update⟩
  case counts =>
    simp only [counts, List.forall_mem_cons]
    exact ⟨h.batches.2, h.total.2, h.timeTaken.2, h.committedOperations.2, h.failedOperations.2, h.failedBatches.2,
      h.retries.2, by simp⟩
  case update =>
    intro update hupdate
    have hstands := h.updateStatistics
    rw [Option.mem_def.1 hupdate] at hstands
    exact hstands.sound

theorem exists_isReadFrom_iff {row : Fields} :
    (∃ response : BatchResponse, response.IsReadFrom fun name => row.get? name) ↔ isRow row = true := by
  have hmessages : row.has "errorMessages" Json.isObject = true ↔
      ∃ entries, row.get? "errorMessages" = some (.object entries) := by
    rw [Fields.has]
    cases row.get? "errorMessages" with
    | none => simp
    | some json => cases json <;> simp [Json.isObject]
  have hterminated : row.has "wasTerminated" Json.isBool = true ↔ ∃ b, row.get? "wasTerminated" = some (.bool b) := by
    rw [Fields.has]
    cases row.get? "wasTerminated" with
    | none => simp
    | some json => cases json <;> simp [Json.isBool]
  rw [isRow, Bool.and_eq_true, Bool.and_eq_true, Bool.and_eq_true, hmessages, hterminated,
    ← BatchUpdateStatistics.exists_standsFor_iff]
  simp only [countColumns, List.all_eq_true, Fields.has, any_isUnsigned64_iff, List.forall_mem_cons]
  constructor
  · rintro ⟨r, h⟩
    exact ⟨⟨⟨⟨⟨_, h.batches⟩, ⟨_, h.total⟩, ⟨_, h.timeTaken⟩, ⟨_, h.committedOperations⟩, ⟨_, h.failedOperations⟩,
      ⟨_, h.failedBatches⟩, ⟨_, h.retries⟩, by simp⟩, ⟨_, h.errorMessages⟩⟩, ⟨_, h.wasTerminated⟩⟩,
      ⟨_, h.updateStatistics⟩⟩
  · rintro ⟨⟨⟨⟨⟨a, ha⟩, ⟨b, hb⟩, ⟨c, hc⟩, ⟨d, hd⟩, ⟨e, he⟩, ⟨f, hf⟩, ⟨g, hg⟩, -⟩, ⟨entries, hentries⟩⟩,
      ⟨terminated, hterminated⟩⟩, ⟨s?, hstands⟩⟩
    exact ⟨⟨a, b, c, d, e, f, g, entries, terminated, s?⟩, ha, hb, hc, hd, he, hf, hg, hentries, hterminated, hstands⟩

end BatchResponse

/-- **The rows that are read.**  A row of an answer is read as the aggregated row of a bulk iteration exactly if it
follows the grammar, and as the response whose parts are the entries of their names.  Entries of other names matter
neither to the response nor to the failure, and a response that was read is read again from what is written for it. -/
theorem batch_row_read_iff (row : Fields) (hrow : row.IsCanonical) :
    ((∃ response, BatchResponse.ofRecord row = .ok response) ↔ BatchResponse.isRow row = true) ∧
      (∀ response, BatchResponse.ofRecord row = .ok response ↔ response.IsReadFrom fun name => row.get? name) ∧
      (∀ other : Fields, other.IsCanonical →
        (∀ column ∈ BulkIteration.responseColumns, other.get? column = row.get? column) →
          BatchResponse.ofRecord other = BatchResponse.ofRecord row) ∧
      ∀ response, BatchResponse.ofRecord row = .ok response → ∀ (source : Source) (form : Json.Form),
        BatchResponse.codec.decode source (form.apply (BatchResponse.codec.encode response)) = .ok response := by
  refine ⟨?_, fun response => BatchResponse.ofRecord_eq_ok_iff hrow, fun other hother hsame => ?_,
    fun response hread => ?_⟩
  · simp only [BatchResponse.ofRecord_eq_ok_iff hrow]
    exact BatchResponse.exists_isReadFrom_iff
  · exact BatchResponse.ofRecord_congr hother hrow hsame
  · have hsound : response.Sound := ((BatchResponse.ofRecord_eq_ok_iff hrow).1 hread).sound hrow.canonical_of_lookup
    exact BatchResponse.restores hsound

/-- A row with the largest count that there is, with the writes as a list, and with an entry that nobody asked for. -/
def exampleRow (total : Json) : Fields :=
  [("batches", .int 3), ("committedOperations", .int 248),
    ("errorMessages", .object [("constraint violated", .int 2), ("deadlock", .null)]), ("failedBatches", .int 1),
    ("failedOperations", .int 2), ("remark", .bool true), ("retries", .int 4), ("timeTaken", .ofNat (Nat.pow 2 64 - 1)),
    ("total", total), ("updateStatistics", .array [.int 248, .int 0, .int 5, .int 0, .int 496, .int 248, .int 0]),
    ("wasTerminated", .bool false)]

/-- The row is read if the total is an integer, and is refused if it is the same number as a floating-point one. -/
theorem batch_row_read_iff_of_total :
    (exampleRow (.int 250)).IsCanonical ∧ (exampleRow (.float (.ofNat 250))).IsCanonical ∧
      (∃ response, BatchResponse.ofRecord (exampleRow (.int 250)) = .ok response) ∧
      ¬ ∃ response, BatchResponse.ofRecord (exampleRow (.float (.ofNat 250))) = .ok response := by
  have hinteger : (exampleRow (.int 250)).IsCanonical := by
    unfold Fields.IsCanonical
    decide
  have hfloat : (exampleRow (.float (.ofNat 250))).IsCanonical := by
    rfl
  refine ⟨hinteger, hfloat, (batch_row_read_iff _ hinteger).1.2 ?_, fun hread => ?_⟩
  · decide
  · exact nomatch (batch_row_read_iff _ hfloat).1.1 hread

end QueryRelay
