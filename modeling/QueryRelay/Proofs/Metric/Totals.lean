import QueryRelay.Proofs.Metric.Series
import QueryRelay.Result.Statistics

/-!
# What recorded statistics add up to

Every field of the statistics of a statement has a counter of its own, which many reports share whatever their labels.

* `QueryStatistics.figures` — the names, and the field that each of them counts.
* `QueryStatistics.sumWhere_amounts` — one report adds to every name what the field says, in however many calls.
* `recorded_totals` — **the counters are the sums of the fields** over all reports, whatever the labels and whatever
  the order, and there is nothing under any other name.
-/

namespace QueryRelay

namespace QueryStatistics

/-! ## Fields and their names -/

/-- The counters of timings and writes. -/
def timingsAndWrites : List (String × (QueryStatistics → Nat)) :=
  [("query_planning_time_ms", fun s => s.timing.planning), ("query_processing_time_ms", fun s => s.timing.processing),
    ("query_total_time_ms", fun s => s.timing.total), ("query_protocol_time_ms", fun s => s.timing.protocolTime),
    ("nodes_created_total", fun s => s.writes.nodesCreated), ("nodes_deleted_total", fun s => s.writes.nodesDeleted),
    ("relationships_created_total", fun s => s.writes.relationshipsCreated),
    ("relationships_deleted_total", fun s => s.writes.relationshipsDeleted),
    ("properties_set_total", fun s => s.writes.propertiesSet), ("labels_added_total", fun s => s.writes.labelsAdded),
    ("labels_removed_total", fun s => s.writes.labelsRemoved),
    ("constraints_added_total", fun s => s.writes.constraintsAdded),
    ("constraints_removed_total", fun s => s.writes.constraintsRemoved),
    ("indexes_added_total", fun s => s.writes.indexesAdded),
    ("indexes_removed_total", fun s => s.writes.indexesRemoved)]

/-- The counters of bulk iterations. -/
def batchFigures : List (String × (BatchStatistics → Nat)) :=
  [("batches_processed_total", fun b => b.batches), ("batches_failed_total", fun b => b.failedBatches),
    ("committed_operations_total", fun b => b.committedOperations),
    ("failed_operations_total", fun b => b.failedOperations), ("batches_retried_total", fun b => b.retries),
    ("batches_terminated_total", fun b => if b.wasTerminated then 1 else 0),
    ("batches_error_messages_total", fun b => b.errorMessages.length)]

/-- All counters; those of bulk iterations count nothing for a statement that is none. -/
def figures : List (String × (QueryStatistics → Nat)) :=
  timingsAndWrites ++ batchFigures.map (fun figure => (figure.1, fun s => s.batch.elim 0 figure.2)) ++
    [("query_errors_total", fun s => s.notifications.length)]

/-- The names under which statistics are recorded: all counters of timings and writes, those of bulk iterations if it
is one, and the last one if there is a notification. -/
def names (s : QueryStatistics) : List String :=
  timingsAndWrites.map Prod.fst ++ (if s.batch.isSome then batchFigures.map Prod.fst else []) ++
    if s.notifications = [] then [] else ["query_errors_total"]

/-- What is recorded, call by call. -/
def amounts (s : QueryStatistics) : List (String × Nat) :=
  timingsAndWrites.map (fun figure => (figure.1, figure.2 s)) ++
    s.batch.elim [] (fun b => batchFigures.map fun figure => (figure.1, figure.2 b)) ++
    s.notifications.map fun _ => ("query_errors_total", 1)

theorem names_nodup : (figures.map Prod.fst).Nodup := by decide

/-! ## One report -/

variable {s : QueryStatistics} {labels : Labels}

theorem verb_of_mem_emissions {e : Emission} (h : e ∈ s.emissions labels) : e.verb = .increment := by
  rcases List.mem_append.1 h with hcount | hnotification
  · obtain ⟨count, -, rfl⟩ := List.mem_map.1 hcount
    rfl
  · obtain ⟨code, -, rfl⟩ := List.mem_map.1 hnotification
    rfl

/-- The calls, by name and value. -/
theorem map_emissions (s : QueryStatistics) (labels : Labels) :
    (s.emissions labels).map (fun e => (e.name, e.value)) =
      s.amounts.map fun amount => (amount.1, Binary64.ofNat amount.2) := by
  have hone : Binary64.one = Binary64.ofNat 1 := by
    rw [Binary64.ofNat_eq_exactly (by decide), Binary64.exactly_one]
  have hcounts : (s.counts ++ (s.batch.map batchCounts).getD []).map (fun count => (count.1.name, count.2)) =
      timingsAndWrites.map (fun figure => (figure.1, figure.2 s)) ++
        s.batch.elim [] (fun b => batchFigures.map fun figure => (figure.1, figure.2 b)) := by
    cases s.batch <;> rfl
  rw [amounts, ← hcounts, emissions, hone]
  simp only [List.map_append, List.map_map]
  rfl

/-- Together the calls add to every name what the field says. -/
theorem sumWhere_amounts (s : QueryStatistics) (name : String) :
    sumWhere (fun given => given = name) s.amounts =
      sumWhere (fun given => given = name) (figures.map fun figure => (figure.1, figure.2 s)) := by
  have hbatch : sumWhere (fun given => decide (given = name))
      (s.batch.elim [] fun b => batchFigures.map fun figure => (figure.1, figure.2 b)) =
      sumWhere (fun given => decide (given = name))
        (batchFigures.map fun figure => (figure.1, s.batch.elim 0 figure.2)) := by
    cases s.batch with
    | none => exact (sumWhere_eq_zero (List.forall_mem_map.2 fun _ _ _ => rfl)).symm
    | some b => rfl
  rw [amounts, figures, List.map_append, List.map_append, List.map_map, sumWhere_append, sumWhere_append,
    sumWhere_append, sumWhere_append, hbatch, sumWhere_ones]
  rfl

theorem sumWhere_amounts_of_mem {figure : String × (QueryStatistics → Nat)} (h : figure ∈ figures)
    (s : QueryStatistics) : sumWhere (fun given => given = figure.1) s.amounts = figure.2 s := by
  have hnodup : ((figures.map fun figure => (figure.1, figure.2 s)).map Prod.fst).Nodup := by
    rw [List.map_map]
    exact names_nodup
  rw [sumWhere_amounts]
  exact sumWhere_of_nodup hnodup (List.mem_map_of_mem h)

theorem sumWhere_amounts_of_not_mem {name : String} (h : ∀ figure ∈ figures, figure.1 ≠ name) (s : QueryStatistics) :
    sumWhere (fun given => given = name) s.amounts = 0 := by
  rw [sumWhere_amounts]
  refine sumWhere_eq_zero (List.forall_mem_map.2 fun figure hfigure heq => ?_)
  exact absurd (of_decide_eq_true heq) (h figure hfigure)

theorem mem_names_iff {name : String} : name ∈ s.names ↔ name ∈ s.amounts.map Prod.fst := by
  have hbatch : (s.batch.elim [] fun b => batchFigures.map fun figure => (figure.1, figure.2 b)).map Prod.fst =
      if s.batch.isSome then batchFigures.map Prod.fst else [] := by
    cases s.batch <;> rfl
  have herrors : name ∈ (if s.notifications = [] then [] else ["query_errors_total"]) ↔
      name ∈ (s.notifications.map fun _ => ("query_errors_total", 1)).map Prod.fst := by
    cases s.notifications <;> simp
  rw [names, amounts, List.map_append, List.map_append, hbatch, List.mem_append, List.mem_append, List.mem_append,
    List.mem_append, herrors, List.map_map]
  rfl

/-- The names of the calls. -/
theorem exists_mem_emissions_iff {name : String} (labels : Labels) :
    (∃ e ∈ s.emissions labels, e.name = name) ↔ name ∈ s.names := by
  have hnames : (s.emissions labels).map Emission.name = s.amounts.map Prod.fst := by
    have hmap := congrArg (List.map Prod.fst) (map_emissions s labels)
    rw [List.map_map, List.map_map] at hmap
    exact hmap
  rw [mem_names_iff, ← hnames, List.mem_map]

theorem exists_figure_of_mem_names {name : String} (h : name ∈ s.names) : ∃ figure ∈ figures, figure.1 = name := by
  have hname : name ∈ timingsAndWrites.map Prod.fst ++ batchFigures.map Prod.fst ++ ["query_errors_total"] := by
    simp only [names, List.mem_append] at h ⊢
    refine h.imp (Or.imp_right fun hbatch => ?_) fun herrors => ?_
    · split at hbatch
      · exact hbatch
      · exact nomatch hbatch
    · split at herrors
      · exact nomatch herrors
      · exact herrors
  have hall : name ∈ figures.map Prod.fst := hname
  exact List.mem_map.1 hall

section Exact

variable (hexact : ∀ figure ∈ figures, figure.2 s < 2 ^ 53)

include hexact

theorem amount_lt {amount : String × Nat} (h : amount ∈ s.amounts) : amount.2 < 2 ^ 53 := by
  obtain ⟨figure, hfigure, hname⟩ := exists_figure_of_mem_names (mem_names_iff.2 (List.mem_map_of_mem h))
  calc amount.2 ≤ sumWhere (fun given => given = figure.1) s.amounts := le_sumWhere_of_mem h (decide_eq_true hname.symm)
    _ = figure.2 s := sumWhere_amounts_of_mem hfigure s
    _ < 2 ^ 53 := hexact figure hfigure

theorem isWhole_of_mem_emissions {e : Emission} (h : e ∈ s.emissions labels) : e.value.IsWhole := by
  have hmem : (e.name, e.value) ∈ (s.emissions labels).map fun e => (e.name, e.value) := List.mem_map_of_mem h
  rw [map_emissions] at hmem
  obtain ⟨amount, hamount, heq⟩ := List.mem_map.1 hmem
  have hvalue : Binary64.ofNat amount.2 = e.value := congrArg Prod.snd heq
  rw [← hvalue, Binary64.ofNat_eq_exactly (amount_lt hexact hamount)]
  exact Binary64.isWhole_exactly _

theorem added_emissions (name : String) :
    SeriesStore.added (s.emissions labels) (fun key => key.name = name) =
      sumWhere (fun given => given = name) s.amounts := by
  have hamounts : (s.emissions labels).map (fun e => (e.name, e.value.wholePart)) = s.amounts := by
    have hmap := congrArg (List.map fun given => (given.1, given.2.wholePart)) (map_emissions s labels)
    rw [List.map_map, List.map_map] at hmap
    refine hmap.trans ((List.map_congr_left fun amount hamount => ?_).trans (List.map_id _))
    simp [Binary64.ofNat_eq_exactly (amount_lt hexact hamount)]
  rw [SeriesStore.added_name_of_increments fun e he => verb_of_mem_emissions he, hamounts]

end Exact

/-! ## Many reports -/

/-- What a field comes to over some reports. -/
def total (figure : QueryStatistics → Nat) (reports : List (QueryStatistics × Labels)) : Nat :=
  (reports.map fun report => figure report.1).sum

/-- What an empty sink keeps of some reports, each recorded with its labels. -/
def recordAll (reports : List (QueryStatistics × Labels)) : SeriesStore :=
  reports.foldl (fun store report => (report.1.emissions report.2).foldl SeriesStore.record store) SeriesStore.empty

/-- All calls for some reports. -/
def calls (reports : List (QueryStatistics × Labels)) : List Emission :=
  reports.flatMap fun report => report.1.emissions report.2

theorem recordAll_eq (reports : List (QueryStatistics × Labels)) : recordAll reports = .ofCalls (calls reports) :=
  List.foldl_flatMap.symm

/-- The sum of a field over the bulk iterations leaves out what is none. -/
theorem total_batch (figure : BatchStatistics → Nat) (reports : List (QueryStatistics × Labels)) :
    total (fun s => s.batch.elim 0 figure) reports =
      ((reports.filterMap fun report => report.1.batch).map figure).sum := by
  induction reports with
  | nil => rfl
  | cons report rest ih =>
    rw [total] at ih
    rw [total, List.map_cons, List.sum_cons, ih, List.filterMap_cons]
    cases report.1.batch with
    | none => exact Nat.zero_add _
    | some b => rfl

section Reports

variable {reports : List (QueryStatistics × Labels)} (hexact : ∀ figure ∈ figures, total figure.2 reports < 2 ^ 53)

include hexact

theorem figure_lt_of_mem {report : QueryStatistics × Labels} (h : report ∈ reports) :
    ∀ figure ∈ figures, figure.2 report.1 < 2 ^ 53 := by
  intro figure hfigure
  have hle : figure.2 report.1 ≤ total figure.2 reports := List.le_sum_of_mem (List.mem_map.2 ⟨report, h, rfl⟩)
  exact Nat.lt_of_le_of_lt hle (hexact figure hfigure)

theorem added_calls (name : String) :
    SeriesStore.added (calls reports) (fun key => key.name = name) =
      total (fun s => sumWhere (fun given => given = name) s.amounts) reports := by
  rw [calls, SeriesStore.added_flatMap, total]
  refine congrArg List.sum (List.map_congr_left fun report hreport => ?_)
  exact added_emissions (figure_lt_of_mem hexact hreport) name

theorem added_calls_of_mem {figure : String × (QueryStatistics → Nat)} (h : figure ∈ figures) :
    SeriesStore.added (calls reports) (fun key => key.name = figure.1) = total figure.2 reports := by
  simp only [added_calls hexact, sumWhere_amounts_of_mem h]

theorem exact_calls : SeriesStore.Exact (calls reports) where
  whole e he _ := by
    obtain ⟨report, hreport, he⟩ := List.mem_flatMap.1 he
    exact isWhole_of_mem_emissions (figure_lt_of_mem hexact hreport) he
  bound name := by
    by_cases hname : ∃ figure ∈ figures, figure.1 = name
    · obtain ⟨figure, hfigure, rfl⟩ := hname
      rw [added_calls_of_mem hexact hfigure]
      exact hexact figure hfigure
    · have hnone : ∀ figure ∈ figures, figure.1 ≠ name := fun figure hfigure heq => hname ⟨figure, hfigure, heq⟩
      simp [added_calls hexact, sumWhere_amounts_of_not_mem hnone, total]

theorem counter_recordAll {figure : String × (QueryStatistics → Nat)} (h : figure ∈ figures) :
    (recordAll reports).counter figure.1 = .exactly (total figure.2 reports) := by
  rw [recordAll_eq, SeriesStore.counter_ofCalls (exact_calls hexact), added_calls_of_mem hexact h]

end Reports

theorem contains_recordAll (reports : List (QueryStatistics × Labels)) (name : String) :
    (recordAll reports).contains name = true ↔ ∃ report ∈ reports, name ∈ report.1.names := by
  rw [recordAll_eq, SeriesStore.contains_ofCalls]
  simp only [calls, List.any_flatMap, List.any_eq_true, decide_eq_true_eq, exists_mem_emissions_iff]

/-- What an empty sink shows when it has taken in some reports. -/
structure Recorded (reports : List (QueryStatistics × Labels)) : Prop where
  /-- Under the names of timings and writes stands the sum of the field. -/
  fields : ∀ figure ∈ timingsAndWrites, (recordAll reports).counter figure.1 = .exactly (total figure.2 reports)
  /-- Under those of bulk iterations stands the sum over the reports that are of one. -/
  batches : ∀ figure ∈ batchFigures, (recordAll reports).counter figure.1 =
    .exactly ((reports.filterMap fun report => report.1.batch).map figure.2).sum
  errors : (recordAll reports).counter "query_errors_total" =
    .exactly (reports.map fun report => report.1.notifications.length).sum
  /-- It does not matter in which order the series of a name are added up. -/
  anyOrder : ∀ figure ∈ figures, ∀ values : List Binary64,
    values.Perm (SeriesStore.named (recordAll reports).counters figure.1) →
      values.foldl (· + ·) .zero = .exactly (total figure.2 reports)
  names : ∀ name, (recordAll reports).contains name = true ↔ ∃ report ∈ reports, name ∈ report.1.names
  noOtherName : ∀ name, (recordAll reports).contains name = true → ∃ figure ∈ figures, figure.1 = name
  onlyCounters : (recordAll reports).gauges = Table.empty ∧ (recordAll reports).observations = Table.empty
  /-- It does not matter in which order the reports came. -/
  perm : ∀ other, other.Perm reports → ∀ name, (recordAll other).counter name = (recordAll reports).counter name ∧
    (recordAll other).contains name = (recordAll reports).contains name ∧
    ∀ labels, (recordAll other).counterWith name labels = (recordAll reports).counterWith name labels

end QueryStatistics

open QueryStatistics in
/-- **What was recorded is the sum of the reports**, whatever their labels and their order, as long as no sum is too
large to be exact. -/
theorem recorded_totals (reports : List (QueryStatistics × Labels))
    (hexact : ∀ figure ∈ figures, total figure.2 reports < 2 ^ 53) : Recorded reports where
  fields figure hfigure := counter_recordAll hexact (List.mem_append_left _ (List.mem_append_left _ hfigure))
  batches figure hfigure := by
    rw [← total_batch]
    exact counter_recordAll hexact
      (List.mem_append_left _ (List.mem_append_right _ (List.mem_map_of_mem hfigure)))
  errors := counter_recordAll hexact (List.mem_append_right _ List.mem_cons_self)
  anyOrder figure hfigure values hvalues := by
    rw [recordAll_eq] at hvalues
    rw [SeriesStore.foldl_named_ofCalls (exact_calls hexact) _ hvalues, added_calls_of_mem hexact hfigure]
  names := contains_recordAll reports
  noOtherName name hname := by
    obtain ⟨report, -, hmem⟩ := (contains_recordAll reports name).1 hname
    exact exists_figure_of_mem_names hmem
  onlyCounters := by
    rw [recordAll_eq]
    refine SeriesStore.ofCalls_of_increments fun e he => ?_
    obtain ⟨report, -, he⟩ := List.mem_flatMap.1 he
    exact verb_of_mem_emissions he
  perm other hperm name := by
    have hcalls : (calls other).Perm (calls reports) := hperm.flatMap_right _
    have hreports : SeriesStore.Exact (calls reports) := exact_calls hexact
    have hother : SeriesStore.Exact (calls other) := hreports.of_perm hcalls.symm
    refine ⟨?_, ?_, fun labels => ?_⟩
    · rw [recordAll_eq, recordAll_eq, SeriesStore.counter_ofCalls hother, SeriesStore.counter_ofCalls hreports,
        SeriesStore.added_perm hcalls]
    · rw [Bool.eq_iff_iff, contains_recordAll, contains_recordAll]
      simp only [hperm.mem_iff]
    · rw [recordAll_eq, recordAll_eq, SeriesStore.counterWith_ofCalls hother,
        SeriesStore.counterWith_ofCalls hreports, SeriesStore.added_perm hcalls]

/-- Two reports of a plain statement and a bulk iteration, with different labels. -/
def exampleReports : List (QueryStatistics × Labels) :=
  [({ timing := { planning := 3, processing := 4, total := 7 }, notifications := ["Deprecated", "Slow"] },
      [("database", "staging")]),
    ({ timing := { planning := 1, total := 1, protocolTime := 90 }, writes := { nodesCreated := 248 },
        batch := some { batches := 3, failedBatches := 1, wasTerminated := true, errorMessages := ["deadlock"] },
        notifications := ["Slow"] },
      [])]

/-- The sums are small, and so what is shown are the sums. -/
theorem recorded_totals_of_two_reports :
    (∀ figure ∈ QueryStatistics.figures, QueryStatistics.total figure.2 exampleReports < 2 ^ 53) ∧
      (QueryStatistics.recordAll exampleReports).counter "query_total_time_ms" = .exactly 8 ∧
      (QueryStatistics.recordAll exampleReports).counter "batches_terminated_total" = .exactly 1 ∧
      (QueryStatistics.recordAll exampleReports).counter "query_errors_total" = .exactly 3 := by
  have hexact : ∀ figure ∈ QueryStatistics.figures, QueryStatistics.total figure.2 exampleReports < 2 ^ 53 := by
    decide
  have hrecorded := recorded_totals exampleReports hexact
  have htime := hrecorded.fields ("query_total_time_ms", _) (.tail _ (.tail _ (.head _)))
  have hterminated := hrecorded.batches ("batches_terminated_total", _)
    (.tail _ (.tail _ (.tail _ (.tail _ (.tail _ (.head _))))))
  exact ⟨hexact, htime, hterminated, hrecorded.errors⟩

end QueryRelay
