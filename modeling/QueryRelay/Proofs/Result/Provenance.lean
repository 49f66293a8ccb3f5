import QueryRelay.Proofs.Result.BatchRow

/-!
# Where statistics come from

Three schemas feed the statistics of a statement: the summary of the result, the counters in it, and the row of a bulk
iteration.  Many of their fields have nearly the same name.

* `QueryStatistics.FollowsSummary`, `QueryStatistics.FollowsRow` — what statistics take from a summary, and what they
  take from the entries of a row.
* `QueryStatistics.Provenance` — which statistics come from where: a plain statement is described by its summary, a
  bulk iteration by its first row and by what the summary says besides its counters, and nothing else has a part in it.
* `statistics_provenance` — **this holds of every statement and result**.
-/

namespace QueryRelay

/-! ## The three sources -/

/-- Kind, timings and notifications are those of a summary. -/
structure QueryStatistics.FollowsSummary (s : QueryStatistics) (summary : ResultSummary) : Prop where
  queryKind : s.queryKind = summary.queryKind
  planning : s.timing.planning = summary.availableAfter
  processing : s.timing.processing = summary.consumedAfter
  total : s.timing.total = summary.availableAfter + summary.consumedAfter
  /-- The codes of the warnings and errors, in their order. -/
  notifications : s.notifications =
    (summary.notifications.filter fun n => n.severity = .warning ∨ n.severity = .error).map Notification.code

/-- The writes are those of a bulk iteration: none unless it names them, and never any on constraints or indexes. -/
structure WriteStatistics.FollowsUpdate (writes : WriteStatistics) (update? : Option BatchUpdateStatistics) :
    Prop where
  nodesCreated : writes.nodesCreated = update?.elim 0 (·.nodesCreated)
  nodesDeleted : writes.nodesDeleted = update?.elim 0 (·.nodesDeleted)
  relationshipsCreated : writes.relationshipsCreated = update?.elim 0 (·.relationshipsCreated)
  relationshipsDeleted : writes.relationshipsDeleted = update?.elim 0 (·.relationshipsDeleted)
  propertiesSet : writes.propertiesSet = update?.elim 0 (·.propertiesSet)
  labelsAdded : writes.labelsAdded = update?.elim 0 (·.labelsAdded)
  labelsRemoved : writes.labelsRemoved = update?.elim 0 (·.labelsRemoved)
  constraintsAdded : writes.constraintsAdded = 0
  constraintsRemoved : writes.constraintsRemoved = 0
  indexesAdded : writes.indexesAdded = 0
  indexesRemoved : writes.indexesRemoved = 0

/-- The figures of a bulk iteration are the entries of its row. -/
structure BatchStatistics.FollowsRow (b : BatchStatistics) (row : Fields) : Prop where
  batches : IsCount b.batches (row.get? "batches")
  total : IsCount b.total (row.get? "total")
  failedBatches : IsCount b.failedBatches (row.get? "failedBatches")
  committedOperations : IsCount b.committedOperations (row.get? "committedOperations")
  failedOperations : IsCount b.failedOperations (row.get? "failedOperations")
  retries : IsCount b.retries (row.get? "retries")
  wasTerminated : row.get? "wasTerminated" = some (.bool b.wasTerminated)
  /-- The messages are the names under which something is counted. -/
  errorMessages : ∃ entries, row.get? "errorMessages" = some (.object entries) ∧ b.errorMessages = entries.map Prod.fst
  ascending : b.errorMessages.Pairwise (· < ·)

/-- What statistics of a bulk iteration take from its row. -/
structure QueryStatistics.FollowsRow (s : QueryStatistics) (row : Fields) : Prop where
  protocolTime : IsCount s.timing.protocolTime (row.get? "timeTaken")
  writes : ∃ update?, BatchUpdateStatistics.StandsFor (row.get? "updateStatistics") update? ∧
    WriteStatistics.FollowsUpdate s.writes update?
  batch : ∃ b, s.batch = some b ∧ b.FollowsRow row

/-! ## What is made of a response -/

/-- The problems are the warnings and the errors. -/
theorem Notification.isProblem_eq :
    isProblem = fun n => decide (n.severity = .warning ∨ n.severity = .error) := by
  funext n
  unfold isProblem
  cases n.severity <;> rfl

theorem fits64_zero : Fits64 0 := Nat.two_pow_pos 64

namespace WriteStatistics

theorem followsUpdate_getD (update? : Option BatchUpdateStatistics) :
    FollowsUpdate ((update?.map ofBatch).getD {}) update? := by
  cases update? <;> exact ⟨rfl, rfl, rfl, rfl, rfl, rfl, rfl, rfl, rfl, rfl, rfl⟩

theorem sound_none : UpdateCounters.Sound {} := by
  intro n hn
  rw [List.eq_of_mem_replicate (show n ∈ List.replicate 11 0 from hn)]
  exact fits64_zero

theorem sound_getD {update? : Option BatchUpdateStatistics} (h : ∀ update ∈ update?, update.Sound) :
    UpdateCounters.Sound ((update?.map ofBatch).getD {}) := by
  cases update? with
  | none => exact sound_none
  | some update =>
    have hupdate := h update rfl
    simp only [BatchUpdateStatistics.Sound, BatchUpdateStatistics.counts, List.forall_mem_cons] at hupdate
    obtain ⟨h1, h2, h3, h4, h5, h6, h7, -⟩ := hupdate
    show ∀ n ∈ (ofBatch update).counts, Fits64 n
    simp only [UpdateCounters.counts, ofBatch, List.forall_mem_cons]
    exact ⟨h1, h2, h3, h4, h5, h6, h7, fits64_zero, fits64_zero, fits64_zero, fits64_zero, by simp⟩

end WriteStatistics

namespace BatchStatistics

theorem sound_none : Sound {} := by
  intro n hn
  rw [List.eq_of_mem_replicate (show n ∈ List.replicate 6 0 from hn)]
  exact fits64_zero

theorem sound_ofResponse {response : BatchResponse} (h : response.Sound) : (ofResponse response).Sound := by
  have hcounts := h.1
  simp only [BatchResponse.counts, List.forall_mem_cons] at hcounts
  obtain ⟨hbatches, htotal, -, hcommitted, hfailed, hfailedBatches, hretries, -⟩ := hcounts
  simp only [Sound, counts, ofResponse, List.forall_mem_cons]
  exact ⟨hbatches, htotal, hfailedBatches, hcommitted, hfailed, hretries, by simp⟩

theorem followsRow_ofResponse {row : Fields} (hrow : row.IsCanonical) {response : BatchResponse}
    (h : response.IsReadFrom fun name => row.get? name) : (ofResponse response).FollowsRow row where
  batches := h.batches
  total := h.total
  failedBatches := h.failedBatches
  committedOperations := h.committedOperations
  failedOperations := h.failedOperations
  retries := h.retries
  wasTerminated := h.wasTerminated
  errorMessages := ⟨_, h.errorMessages, rfl⟩
  ascending := List.pairwise_map.2 (hrow.of_lookup_object h.errorMessages).ascending

end BatchStatistics

namespace QueryStatistics

/-! ## Three kinds of answers -/

variable {statement : Statement} {raw : RawResult} {summary : ResultSummary} {protocolTime : Nat}
  {writes : WriteStatistics} {batch : Option BatchStatistics}

/-- Statistics of which everything but these three parts is taken from a summary. -/
def ofParts (summary : ResultSummary) (protocolTime : Nat) (writes : WriteStatistics)
    (batch : Option BatchStatistics) : QueryStatistics where
  queryKind := summary.queryKind
  timing := { TimingStatistics.ofSummary summary with protocolTime := protocolTime }
  writes := writes
  batch := batch
  notifications := (summary.notifications.filter Notification.isProblem).map Notification.code

theorem followsSummary_ofParts : (ofParts summary protocolTime writes batch).FollowsSummary summary where
  queryKind := rfl
  planning := rfl
  processing := rfl
  total := rfl
  notifications := by
    rw [ofParts, Notification.isProblem_eq]

/-- Nothing is out of range if neither the parts nor the sum of the timings are. -/
theorem sound_ofParts (h : summary.Sound) (htotal : Fits64 (summary.availableAfter + summary.consumedAfter))
    (htime : Fits64 protocolTime) (hwrites : UpdateCounters.Sound writes) (hbatch : ∀ b ∈ batch, b.Sound) :
    (ofParts summary protocolTime writes batch).Sound :=
  ⟨⟨h.1, h.2.1, htotal, htime⟩, hwrites, hbatch⟩

theorem ofResult_of_plain (hplain : statement.isBatchProtocol = false) :
    ofResult statement raw = .ok (ofParts raw.summary 0 raw.summary.counters none) := by
  simp only [ofResult, hplain]
  rfl

theorem ofResult_of_no_row (hbatch : statement.isBatchProtocol = true) (hrecords : raw.records = []) :
    ofResult statement raw = .ok (ofParts raw.summary 0 {} (some {})) := by
  simp only [ofResult, hbatch, hrecords]
  rfl

/-- The statistics of a bulk iteration, from its response. -/
def ofResponse (summary : ResultSummary) (response : BatchResponse) : QueryStatistics :=
  ofParts summary response.timeTaken ((response.updateStatistics.map WriteStatistics.ofBatch).getD {})
    (some (.ofResponse response))

theorem ofResult_of_row (hbatch : statement.isBatchProtocol = true) {row : Fields}
    (hrow : raw.records.head? = some row) :
    ofResult statement raw = (BatchResponse.ofRecord row).map (ofResponse raw.summary) := by
  obtain ⟨rest, hrecords⟩ := List.head?_eq_some_iff.1 hrow
  simp only [ofResult, hbatch, hrecords]
  rfl

theorem sound_ofResponse (h : summary.Sound) (htotal : Fits64 (summary.availableAfter + summary.consumedAfter))
    {response : BatchResponse} (hresponse : response.Sound) : (ofResponse summary response).Sound := by
  have htime : Fits64 response.timeTaken := hresponse.1 _ (by simp [BatchResponse.counts])
  refine sound_ofParts h htotal htime (WriteStatistics.sound_getD hresponse.2.2) ?_
  rintro _ ⟨⟩
  exact BatchStatistics.sound_ofResponse hresponse

theorem followsRow_ofResponse (summary : ResultSummary) {row : Fields} (hrow : row.IsCanonical)
    {response : BatchResponse} (h : response.IsReadFrom fun name => row.get? name) :
    (ofResponse summary response).FollowsRow row where
  protocolTime := h.timeTaken
  writes := ⟨_, h.updateStatistics, WriteStatistics.followsUpdate_getD _⟩
  batch := ⟨_, rfl, BatchStatistics.followsRow_ofResponse hrow h⟩

/-- A bulk iteration with a row has statistics exactly if the row is read, and they are those of the response. -/
theorem ofResult_eq_ok_iff (hbatch : statement.isBatchProtocol = true) {row : Fields}
    (hrow : raw.records.head? = some row) (hcanonical : row.IsCanonical) {s : QueryStatistics} :
    ofResult statement raw = .ok s ↔
      ∃ response : BatchResponse, response.IsReadFrom (fun name => row.get? name) ∧
        ofResponse raw.summary response = s := by
  simp only [ofResult_of_row hbatch hrow, ← BatchResponse.ofRecord_eq_ok_iff hcanonical]
  cases BatchResponse.ofRecord row <;> simp [Except.map]

theorem ofResult_eq_error_iff (hbatch : statement.isBatchProtocol = true) {row : Fields}
    (hrow : raw.records.head? = some row) {failure : Failure} :
    ofResult statement raw = .error failure ↔
      ∃ fault, BatchResponse.codec.decode .value (.object row) = .error fault ∧
        failure = .malformedBatchResponse fault.message := by
  rw [ofResult_of_row hbatch hrow, BatchResponse.ofRecord]
  cases BatchResponse.codec.decode .value (.object row) with
  | ok response => simp [Except.map]
  | error fault => simp [Except.map, eq_comm]

/-! ## All statements and results -/

/-- Which statistics come from where, for a statement and the result that it gave. -/
structure Provenance (statement : Statement) (raw : RawResult) : Prop where
  /-- Kind, timings and notifications always come from the summary, and no figure is out of range. -/
  summary : ∀ s, ofResult statement raw = .ok s → s.FollowsSummary raw.summary ∧ s.Sound
  /-- A plain statement always has statistics; its writes are the counters of the summary, and the rows have no part in
  it. -/
  plain : statement.isBatchProtocol = false → ∃ s, ofResult statement raw = .ok s ∧
    s.writes = raw.summary.counters ∧ s.timing.protocolTime = 0 ∧ s.batch = none ∧
    ∀ other : RawResult, other.summary = raw.summary → ofResult statement other = .ok s
  /-- A bulk iteration without a row did nothing. -/
  noRow : statement.isBatchProtocol = true → raw.records = [] → ∃ s, ofResult statement raw = .ok s ∧
    s.writes = {} ∧ s.timing.protocolTime = 0 ∧ s.batch = some {}
  /-- A bulk iteration fails exactly if its first row does not follow the grammar, and tells why it cannot be read. -/
  failure : statement.isBatchProtocol = true → ∀ row, raw.records.head? = some row →
    ((∃ failure, ofResult statement raw = .error failure) ↔ BatchResponse.isRow row = false) ∧
    ∀ failure, ofResult statement raw = .error failure ↔
      ∃ fault, BatchResponse.codec.decode .value (.object row) = .error fault ∧
        failure = .malformedBatchResponse fault.message
  /-- Writes, figures and the time of the iteration come from the first row; the other rows and the counters of the
  summary have no part in it. -/
  row : statement.isBatchProtocol = true → ∀ row, raw.records.head? = some row →
    (∀ s, ofResult statement raw = .ok s → s.FollowsRow row) ∧
    ∀ other : RawResult, other.records.head? = some row →
      { other.summary with counters := raw.summary.counters } = raw.summary →
        ofResult statement other = ofResult statement raw

end QueryStatistics

open QueryStatistics in
/-- **Which statistics come from where**: the answer holds of every statement and every result whose numbers are in
their ranges. -/
theorem statistics_provenance (statement : Statement) (raw : RawResult) (hraw : raw.Sound)
    (htotal : Fits64 (raw.summary.availableAfter + raw.summary.consumedAfter)) :
    QueryStatistics.Provenance statement raw := by
  have hcanonical : ∀ row, raw.records.head? = some row → row.IsCanonical :=
    fun row hrow => hraw.1 row (List.mem_of_head? hrow)
  refine ⟨fun s hs => ?summary, fun hplain => ?plain, fun hbatch hrecords => ?noRow,
    fun hbatch row hrow => ⟨?refused, fun failure => ofResult_eq_error_iff hbatch hrow⟩,
    fun hbatch row hrow => ⟨fun s hs => ?read, fun other hother hsame => ?others⟩⟩
  case summary =>
    cases hbatch : statement.isBatchProtocol with
    | false =>
      rw [ofResult_of_plain hbatch, Except.ok.injEq] at hs
      subst hs
      exact ⟨followsSummary_ofParts, sound_ofParts hraw.2 htotal fits64_zero hraw.2.2.2 (by simp)⟩
    | true =>
      cases hrow : raw.records.head? with
      | none =>
        rw [ofResult_of_no_row hbatch (List.head?_eq_none_iff.1 hrow), Except.ok.injEq] at hs
        subst hs
        refine ⟨followsSummary_ofParts, sound_ofParts hraw.2 htotal fits64_zero WriteStatistics.sound_none ?_⟩
        rintro _ ⟨⟩
        exact BatchStatistics.sound_none
      | some row =>
        obtain ⟨response, hread, rfl⟩ := (ofResult_eq_ok_iff hbatch hrow (hcanonical row hrow)).1 hs
        have hresponse : response.Sound := hread.sound (hcanonical row hrow).canonical_of_lookup
        exact ⟨followsSummary_ofParts, sound_ofResponse hraw.2 htotal hresponse⟩
  case plain =>
    refine ⟨_, ofResult_of_plain hplain, rfl, rfl, rfl, fun other hother => ?_⟩
    rw [ofResult_of_plain hplain, hother]
  case noRow => exact ⟨_, ofResult_of_no_row hbatch hrecords, rfl, rfl, rfl⟩
  case refused =>
    rw [← Bool.not_eq_true, ← BatchResponse.exists_isReadFrom_iff]
    cases hresult : ofResult statement raw with
    | ok s =>
      obtain ⟨response, hread, -⟩ := (ofResult_eq_ok_iff hbatch hrow (hcanonical row hrow)).1 hresult
      exact iff_of_false (fun ⟨_, herror⟩ => nomatch herror) (fun hnone => hnone ⟨response, hread⟩)
    | error failure =>
      refine iff_of_true ⟨failure, rfl⟩ fun ⟨response, hread⟩ => ?_
      have hok := (ofResult_eq_ok_iff hbatch hrow (hcanonical row hrow)).2 ⟨response, hread, rfl⟩
      exact nomatch hresult.symm.trans hok
  case read =>
    obtain ⟨response, hread, rfl⟩ := (ofResult_eq_ok_iff hbatch hrow (hcanonical row hrow)).1 hs
    exact followsRow_ofResponse _ (hcanonical row hrow) hread
  case others =>
    have hsummary : ofResponse other.summary = ofResponse raw.summary := by
      rw [← hsame]
      rfl
    rw [ofResult_of_row hbatch hrow, ofResult_of_row hbatch hother, hsummary]

/-- The result of a bulk iteration, with a warning and a hint in its summary. -/
def exampleResult (rows : List Fields) (counters : UpdateCounters) : RawResult where
  keys := BulkIteration.responseColumns
  records := exampleRow (.int 250) :: rows
  summary :=
    { availableAfter := 7
      consumedAfter := 12
      counters := counters
      queryKind := .write
      notifications := [⟨"Deprecated", "", "", .warning⟩, ⟨"Hint", "", "", .information⟩] }

/-- A second row, which would be refused, and counters that say something else change nothing. -/
theorem statistics_provenance_of_bulk_iteration :
    let raw := exampleResult [exampleRow .null] { nodesCreated := 3, indexesAdded := 1 }
    raw.Sound ∧ Fits64 (raw.summary.availableAfter + raw.summary.consumedAfter) ∧
      ∃ s, QueryStatistics.ofResult (.batchProtocol "" []) raw = .ok s ∧
        QueryStatistics.ofResult (.batchProtocol "" []) (exampleResult [] {}) = .ok s ∧
        s.timing.protocolTime = Nat.pow 2 64 - 1 ∧ s.timing.total = 19 ∧ s.notifications = ["Deprecated"] := by
  intro raw
  have hfits : ∀ n ≤ 19, Fits64 n := fun n hn => Nat.lt_of_le_of_lt hn (by decide)
  have hsound : raw.Sound := by
    refine ⟨?records, hfits 7 (by decide), hfits 12 (by decide), fun n hn => hfits n ?counters⟩
    case records =>
      simp only [raw, exampleResult, List.forall_mem_cons]
      refine ⟨?_, ?_, by simp⟩
      all_goals
        unfold Fields.IsCanonical
        decide
    case counters =>
      revert n
      decide
  have hprovenance := statistics_provenance (.batchProtocol "" []) raw hsound (hfits 19 (by decide))
  have hrow := hprovenance.row rfl _ rfl
  refine ⟨hsound, hfits 19 (by decide), ?_⟩
  cases hs : QueryStatistics.ofResult (.batchProtocol "" []) raw with
  | error failure => exact nomatch (hprovenance.failure rfl _ rfl).1.1 ⟨failure, hs⟩
  | ok s =>
    have hsummary := (hprovenance.summary s hs).1
    have htime : some (Json.ofNat (Nat.pow 2 64 - 1)) = some (.ofNat s.timing.protocolTime) :=
      (hrow.1 s hs).protocolTime.1
    refine ⟨s, rfl, (hrow.2 (exampleResult [] {}) rfl rfl).trans hs, ?_, hsummary.total, ?_⟩
    · exact (Int.ofNat_inj.1 (Json.int.inj (Option.some.inj htime))).symm
    · rw [hsummary.notifications]
      rfl

end QueryRelay
