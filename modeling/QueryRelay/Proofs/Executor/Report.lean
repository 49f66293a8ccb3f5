import QueryRelay.Proofs.Session.Opening
import QueryRelay.Proofs.Transaction.Ledger

/-!
# What the steps of an operation write

An operation is put together from an opening, a run of a transaction and a closing.  Each of their steps asks the engine
for what it then waits for, and none of them reports anything under the names that belong to operations: that is left
to the end of the operation, which reports once.

* `operationReports` — what operations report, among all that is written to the log.
* `Writes` — from one relay to another these requests and these reports of operations were written; `Writes.trans`.
* `Opening.start_writes`, `TransactionRun.resume_writes`, … — one lemma for each kind of step.
* `Operation.finish_writes` — **the end of an operation** reports how long it took, and whether it failed.
-/

namespace QueryRelay

/-! ## Reports of operations -/

/-- What something seen from outside says of an operation: how long it took, or that it failed. -/
def Happening.operationReport? : Happening → Option Emission
  | reported e =>
    if e.name = Metric.queryExecutionTime.name ∨ e.name = Metric.failedQueries.name then some e else none
  | _ => none

/-- What operations hand to their sink. -/
def operationReports (log : List Happening) : List Emission := log.filterMap Happening.operationReport?

/-- What an operation reports in the end: the time that it took, and a failure if it failed. -/
def OperationFrame.reports (f : OperationFrame) (ended : Instant) (outcome : TransactionRun.Outcome) : List Emission :=
  Metric.queryExecutionTime.emit (Instant.since ended f.startedAt).toSeconds (Operation.labels f) ::
    match outcome with
    | .ok _ => []
    | .error _ => [Metric.failedQueries.emit .one (Operation.labels f)]

theorem operationReports_append (log more : List Happening) :
    operationReports (log ++ more) = operationReports log ++ operationReports more :=
  List.filterMap_append

/-- Among these are no reports of operations. -/
theorem operationReports_eq_nil {log : List Happening}
    (h : ∀ e, .reported e ∈ log → e.name ≠ Metric.queryExecutionTime.name ∧ e.name ≠ Metric.failedQueries.name) :
    operationReports log = [] := by
  refine List.filterMap_eq_nil_iff.2 fun happening hmem => ?_
  cases happening with
  | reported e => exact if_neg (not_or.2 (h e hmem))
  | _ => rfl

/-! ## What is written -/

/-- From one relay to another the engine was asked for this, and operations reported this. -/
def Writes (asked : List Request) (reported : List Emission) (r r' : Relay) : Prop :=
  ∃ written, r'.log = r.log ++ written ∧ written.filterMap Happening.request? = asked ∧
    operationReports written = reported

namespace Writes

variable {asked asked' : List Request} {reported reported' : List Emission} {r r' r'' : Relay}

theorem nothing (h : r'.log = r.log) : Writes [] [] r r' := ⟨[], by rw [h, List.append_nil], rfl, rfl⟩

theorem trans (h : Writes asked reported r r') (h' : Writes asked' reported' r' r'') :
    Writes (asked ++ asked') (reported ++ reported') r r'' := by
  obtain ⟨written, hlog, hasked, hreported⟩ := h
  obtain ⟨written', hlog', hasked', hreported'⟩ := h'
  refine ⟨written ++ written', by rw [hlog', hlog, List.append_assoc], ?_, ?_⟩
  · rw [List.filterMap_append, hasked, hasked']
  · rw [operationReports_append, hreported, hreported']

theorem ask (request : Request) (h : r'.log = r.log ++ [.requested request]) : Writes [request] [] r r' :=
  ⟨_, h, rfl, rfl⟩

/-- What the engine was asked is what was added to the requests. -/
theorem requests (h : Writes asked reported r r') : r'.requests = r.requests ++ asked := by
  obtain ⟨written, hlog, hasked, -⟩ := h
  rw [Relay.requests, hlog, List.filterMap_append, hasked]
  rfl

end Writes

/-! ## Openings -/

namespace Opening

/-- What an opening asks the engine for. -/
def request (o : Opening) : Request := .openSession o.client o.database o.options

/-- What an opening has asked the engine for when it has begun. -/
def asked : Progress Opening (Except Failure SessionHandle) → List Request
  | .waiting o => [o.request]
  | .finished _ => []

theorem acquisition_silent (r : Relay) :
    (acquisition r).filterMap Happening.request? = [] ∧ operationReports (acquisition r) = [] := by
  unfold acquisition
  split <;> exact ⟨rfl, rfl⟩

theorem recreation_silent (r : Relay) :
    (recreation r).filterMap Happening.request? = [] ∧ operationReports (recreation r) = [] := by
  unfold recreation
  split
  · split <;> exact ⟨rfl, rfl⟩
  · exact ⟨rfl, rfl⟩

variable {database : Option String} {options : Option SessionOptions}

theorem start_writes (r : Relay) :
    Writes (asked (start r database options).2) [] r (start r database options).1 := by
  obtain ⟨hrequests, hreports⟩ := acquisition_silent r
  rcases start_cases r database options with ⟨r', failure, hover, hlog | hlog⟩ | ⟨r', o, hwaits, -, hlog⟩
  · rw [hover]
    exact .nothing hlog
  · rw [hover]
    exact ⟨_, hlog, hrequests, hreports⟩
  · rw [hwaits]
    refine ⟨_, hlog.trans (List.append_assoc _ _ _), ?_, ?_⟩
    · rw [List.filterMap_append, hrequests]
      rfl
    · rw [operationReports_append, hreports]
      rfl

theorem resume_writes (o : Opening) (reply : Except Failure RemoteSession) (r : Relay) :
    Writes [] [] r (o.resume reply r).1 := by
  cases reply with
  | ok remote =>
    rw [resume_ok]
    exact ⟨_, rfl, rfl, rfl⟩
  | error failure =>
    rw [resume_error]
    refine ⟨_, rfl, ?_⟩
    split
    · exact recreation_silent r
    · exact ⟨rfl, rfl⟩

end Opening

/-! ## Runs of transactions -/

/-- No entry of a run is a report of an operation. -/
theorem LedgerEntry.emissions_silent {t : Transaction} (entry : LedgerEntry) :
    ∀ e ∈ entry.emissions t, e.name ≠ Metric.queryExecutionTime.name ∧ e.name ≠ Metric.failedQueries.name := by
  intro e he
  obtain ⟨m, hm, hname⟩ := exists_metric_of_mem_emissions he
  have hmetrics : .queryExecutionTime ∉ entry.metrics ∧ .failedQueries ∉ entry.metrics := by
    cases entry <;> simp only [metrics] <;> decide
  rw [hname]
  exact ⟨Metric.name_injective.ne (ne_of_mem_of_not_mem hm hmetrics.1),
    Metric.name_injective.ne (ne_of_mem_of_not_mem hm hmetrics.2)⟩

/-- What a run takes down is not about operations. -/
theorem Enters.writes {t : Transaction} {entries : List LedgerEntry} {asked : List Request} {r r' : Relay}
    (h : Enters t entries r r') (hrequests : r'.requests = r.requests ++ asked) : Writes asked [] r r' := by
  obtain ⟨written, hlog, hwritten⟩ := h.emissions
  refine ⟨written, hlog, ?_, operationReports_eq_nil fun e he => ?_⟩
  · rw [Relay.requests, hlog, List.filterMap_append] at hrequests
    exact List.append_cancel_left hrequests
  · have hemitted : e ∈ emissionsOf written := List.mem_filterMap.2 ⟨_, he, rfl⟩
    by_cases hgauge : e.name = Metric.transactionsActive.name
    · rw [hgauge]
      exact ⟨Metric.name_injective.ne (by decide), Metric.name_injective.ne (by decide)⟩
    · have hmem : e ∈ emissionsBesidesGauge written := List.mem_filter.2 ⟨hemitted, decide_eq_true hgauge⟩
      rw [hwritten] at hmem
      obtain ⟨entry, -, hentry⟩ := List.mem_flatMap.1 hmem
      exact entry.emissions_silent e hentry

namespace TransactionRun

variable {r : Relay}

theorem start_writes {session : SessionHandle} (h : r.registry.isTracked session.id = true)
    (statements : List Statement) (substrings : Option (List String)) :
    Writes (awaited (start r session statements substrings).2) [] r (start r session statements substrings).1 :=
  (start_enters r session statements substrings).writes (start_step h statements substrings).requests

theorem resume_writes (p : TransactionRun) (answer : p.wait.Answer) :
    Writes (awaited (p.resume answer r).2) [] r (p.resume answer r).1 :=
  (resume_enters r p answer).writes (resume_step r p answer).requests

end TransactionRun

/-! ## Closings and ends -/

theorem Closing.resume_writes (c : Closing) (reply : Except Failure Unit) (r : Relay) :
    Writes [] [] r (c.resume reply r).1 :=
  ⟨_, List.append_assoc _ _ _, rfl, rfl⟩

/-- **The end of an operation** asks for nothing, reports once how long the operation took, and once more if it
failed. -/
theorem Operation.finish_writes (f : OperationFrame) (outcome : TransactionRun.Outcome) (r : Relay) :
    Writes [] (f.reports r.now outcome) r (finish f outcome r).1 := by
  cases outcome with
  | ok results => exact ⟨_, rfl, rfl, rfl⟩
  | error e => exact ⟨_, List.append_assoc _ _ _, rfl, rfl⟩

end QueryRelay
