import QueryRelay.Proofs.Transaction.Balance

/-!
# The account of a transaction

What a run of a transaction adds to the counters and errors of its session, and what it reports, is accounted for by
what the engine answered to it.

* `LedgerEntry.filter_emissions_…` — what of an entry is reported under which metrics.
* `Attempt.failures`, `retriedCalls_failures`, `retriedCalls_delays` — one failure for each attempt that fails, and one
  delay for each retry.
* `Accounts` — the whole account of a run; `transaction_accounted` — **every run on a session that stays tracked keeps
  it**.
-/

namespace QueryRelay

/-! ## What is reported under which metrics -/

/-- What reaches the sinks under a metric in some strides. -/
def emissionsUnder (m : Metric) (strides : List Stride) : List Emission :=
  (strides.flatMap Stride.emissions).filter fun e => e.name = m.name

/-- Whether a name is that of a metric of statements: their statistics, and the errors of queries. -/
def QueryStatistics.reportsUnder (name : String) : Bool := metrics.any fun m => name = m.name

theorem QueryStatistics.reportsUnder_iff {m : Metric} : reportsUnder m.name = true ↔ m ∈ metrics := by
  simp [reportsUnder, Metric.name_injective.eq_iff]

/-- What reaches the sinks under the metrics of statements in some strides. -/
def queryEmissionsUnder (strides : List Stride) : List Emission :=
  (strides.flatMap Stride.emissions).filter fun e => QueryStatistics.reportsUnder e.name

namespace LedgerEntry

variable (t : Transaction) (entry : LedgerEntry)

theorem filter_emissions_of_not_mem {m : Metric} (h : m ∉ entry.metrics) :
    (entry.emissions t).filter (fun e => e.name = m.name) = [] := by
  refine List.filter_eq_nil_iff.2 fun e he => ?_
  obtain ⟨m', hm', hname⟩ := exists_metric_of_mem_emissions he
  rw [hname, decide_eq_true_eq]
  refine Metric.name_injective.ne ?_
  rintro rfl
  exact h hm'

theorem length_results (entries : List LedgerEntry) :
    (entries.filterMap result?).length = entries.countP fun e => e.counter? = some .queriesExecuted := by
  rw [List.length_filterMap_eq_countP]
  refine List.countP_congr fun e _ => ?_
  cases e <;> simp [result?, counter?]

theorem length_failures (entries : List LedgerEntry) :
    (entries.filterMap failure?).length = entries.countP fun e => e.counter? = some .transactionsRolledBack := by
  rw [List.length_filterMap_eq_countP]
  refine List.countP_congr fun e _ => ?_
  cases e <;> simp [failure?, counter?]

theorem filter_emissions_ran (result : QueryResult) :
    ((ran result).emissions t).filter (fun e => e.name = Metric.queriesExecuted.name) =
      [Metric.queriesExecuted.emit .one [("database", t.session.label)]] := by
  have hnone : (result.statistics.emissions [("database", t.session.label)]).filter
      (fun e => e.name = Metric.queriesExecuted.name) = [] := by
    refine List.filter_eq_nil_iff.2 fun e he => ?_
    obtain ⟨m, hm, _, _, rfl⟩ := QueryStatistics.exists_metric_of_mem_emissions he
    have hother : ∀ m ∈ QueryStatistics.metrics, m ≠ .queriesExecuted := by decide
    rw [decide_eq_true_eq]
    exact Metric.name_injective.ne (hother m hm)
  rw [emissions, List.filter_append, hnone]
  rfl

/-- The metrics that count with a counter of the session. -/
inductive Counts : SessionCounter → Metric → Prop
  | started : Counts .transactionsStarted .transactionsStarted
  | executed : Counts .queriesExecuted .queriesExecuted
  | committed : Counts .transactionsCommitted .transactionCommits

theorem filter_emissions_counts {counter : SessionCounter} {m : Metric} (h : Counts counter m) :
    (entry.emissions t).filter (fun e => e.name = m.name) =
      if entry.counter? = some counter then [m.emit .one [("database", t.session.label)]] else [] := by
  by_cases hm : m ∈ entry.metrics
  · cases h <;> cases entry <;> first
      | exact filter_emissions_ran t _
      | rfl
      | exact absurd hm (by simp only [metrics]; decide)
  · rw [filter_emissions_of_not_mem t entry hm, if_neg]
    rintro hcounter
    cases h <;> cases entry <;> first
      | exact hm (by simp only [metrics]; decide)
      | exact absurd hcounter (by simp [counter?])

theorem filter_emissions_rollbacks :
    (entry.emissions t).filter (fun e => e.name = Metric.transactionRollbacks.name) =
      (entry.failure?.map fun failure => Metric.transactionRollbacks.emit .one
        [("reason", failure.kind.name), ("database", t.session.label)]).toList := by
  cases entry with
  | failed failure => rfl
  | _ => exact filter_emissions_of_not_mem t _ (by simp only [metrics]; decide)

theorem filter_emissions_retries :
    (entry.emissions t).filter (fun e => e.name = Metric.queryRetries.name) =
      (entry.retried?.map fun retry =>
        Metric.queryRetries.emit .one (TransactionRun.failureLabels t retry.1)).toList := by
  cases entry with
  | retried failure delay => rfl
  | _ => exact filter_emissions_of_not_mem t _ (by simp only [metrics]; decide)

theorem filter_emissions_delays :
    (entry.emissions t).filter (fun e => e.name = Metric.retryDelay.name) =
      (entry.retried?.map fun retry =>
        Metric.retryDelay.emit retry.2.toSeconds (TransactionRun.failureLabels t retry.1)).toList := by
  cases entry with
  | retried failure delay => rfl
  | _ => exact filter_emissions_of_not_mem t _ (by simp only [metrics]; decide)

theorem filter_emissions_queries :
    (entry.emissions t).filter (fun e => QueryStatistics.reportsUnder e.name) = entry.queryEmissions t := by
  have hnone : (∀ m ∈ entry.metrics, m ∉ QueryStatistics.metrics) →
      (entry.emissions t).filter (fun e => QueryStatistics.reportsUnder e.name) = [] := by
    refine fun hother => List.filter_eq_nil_iff.2 fun e he => ?_
    obtain ⟨m, hm, hname⟩ := exists_metric_of_mem_emissions he
    rw [hname, QueryStatistics.reportsUnder_iff]
    exact hother m hm
  cases entry with
  | ran result =>
    have hall : ∀ e ∈ result.statistics.emissions [("database", t.session.label)],
        QueryStatistics.reportsUnder e.name = true := by
      intro e he
      obtain ⟨m, hm, _, _, rfl⟩ := QueryStatistics.exists_metric_of_mem_emissions he
      exact QueryStatistics.reportsUnder_iff.2 hm
    have hexecuted : ¬QueryStatistics.reportsUnder Metric.queriesExecuted.name = true := by
      rw [QueryStatistics.reportsUnder_iff]
      decide
    rw [emissions, List.filter_append, List.filter_eq_self.2 hall]
    have hnothing : [Metric.queriesExecuted.emit .one [("database", t.session.label)]].filter
        (fun e => QueryStatistics.reportsUnder e.name) = [] := List.filter_cons_of_neg hexecuted
    rw [hnothing, List.append_nil]
    rfl
  | gaveUp failure => exact List.filter_cons_of_pos (QueryStatistics.reportsUnder_iff.2 (by decide))
  | _ => exact hnone (by simp only [metrics]; decide)

end LedgerEntry

theorem flatMap_ite_singleton {α β : Type} (p : α → Prop) [DecidablePred p] (b : β) (l : List α) :
    (l.flatMap fun a => if p a then [b] else []) = List.replicate (l.countP fun a => p a) b := by
  induction l with
  | nil => rfl
  | cons a rest ih =>
    rw [List.flatMap_cons, ih, List.countP_cons]
    by_cases h : p a
    · simp [h, List.replicate_succ]
    · simp [h]

theorem flatMap_toList_map {α β γ : Type} (f : α → Option β) (g : β → γ) (l : List α) :
    (l.flatMap fun a => ((f a).map g).toList) = (l.filterMap f).map g := by
  induction l with
  | nil => rfl
  | cons a rest ih =>
    rw [List.flatMap_cons, ih, List.filterMap_cons]
    cases f a <;> rfl

/-! ## Failures and delays in what was heard -/

namespace TransactionRun.Outcome

/-- The failure of an attempt or a run, if it failed. -/
def failure? : Outcome → Option Failure
  | .ok _ => none
  | .error e => some e

/-- How often a run that ends so has committed. -/
def commits : Outcome → Nat
  | .ok _ => 1
  | .error _ => 0

/-- How often a run that ends so has given up. -/
def giveUps : Outcome → Nat
  | .ok _ => 0
  | .error _ => 1

end TransactionRun.Outcome

section Heard

variable {remote : RemoteSession} {statements : List Statement} {calls : List Heard} {results : List QueryResult}
  {failure : Failure} {outcome : TransactionRun.Outcome}

theorem Ran.failures (h : Ran remote statements calls results) : calls.filterMap Heard.failure? = [] := by
  induction h with
  | nil => rfl
  | @cons statement raw result statements calls results hresult _ ih =>
    have hnone : (Heard.run remote statement (.ok raw)).failure? = none := by
      simp [Heard.run, Heard.failure?, hresult]
    rw [List.filterMap_cons_none hnone, ih]

theorem Broken.failures (h : Broken remote statements calls failure) : calls.filterMap Heard.failure? = [failure] := by
  have hbegun : (Heard.begin remote (.ok ())).failure? = none := rfl
  cases h with
  | refused _ hran =>
    rw [List.filterMap_cons_none hbegun, List.filterMap_append, hran.failures]
    rfl
  | @undecodable done rest current calls results raw _ _ hran hraw =>
    have hlast : (Heard.run remote current (.ok raw)).failure? = some failure := by
      simp [Heard.run, Heard.failure?, hraw]
    rw [List.filterMap_cons_none hbegun, List.filterMap_append, hran.failures, List.filterMap_cons_some hlast]
    rfl
  | uncommitted hran =>
    rw [List.filterMap_cons_none hbegun, List.filterMap_append, hran.failures]
    rfl

/-- An attempt that fails hears of one failure, and an attempt that succeeds of none. -/
theorem Attempt.failures (h : Attempt remote statements calls outcome) :
    calls.filterMap Heard.failure? = (TransactionRun.Outcome.failure? outcome).toList := by
  cases h with
  | notBegun => rfl
  | @rolledBack calls failure reply hbroken =>
    have hback : (Heard.rollback remote reply).failure? = none := by
      cases reply <;> rfl
    rw [List.filterMap_append, hbroken.failures, List.filterMap_cons_none hback]
    rfl
  | committed hran =>
    have hbegun : (Heard.begin remote (.ok ())).failure? = none := rfl
    rw [List.filterMap_cons_none hbegun, List.filterMap_append, hran.failures]
    rfl

/-- No delay is heard within an attempt. -/
theorem Attempt.delays (h : Attempt remote statements calls outcome) : calls.filterMap Heard.delay? = [] := by
  refine List.filterMap_eq_nil_iff.2 fun call hcall => ?_
  have hasked := h.isSome_request? call hcall
  obtain ⟨wait, answer⟩ := call
  cases wait with
  | reply request => rfl
  | _ => exact absurd hasked (by simp [Heard.request?, Wait.request?])

variable {t : Transaction} {policy : RetryPolicy} {failed : List (List Heard × Failure)}

/-- Attempts that are retried hear of one failure each. -/
theorem retriedCalls_failures (h : t.FailedRetryably policy failed) :
    (retriedCalls policy failed).filterMap Heard.failure? = failed.map Prod.snd := by
  induction failed using List.reverseRecOn with
  | nil => rfl
  | append_singleton failed a ih =>
    have hlast : a.1.filterMap Heard.failure? = [a.2] := (h a (by simp)).1.failures
    rw [retriedCalls_concat, List.filterMap_append, ih fun b hb => h b (List.mem_append_left _ hb),
      List.filterMap_append, hlast, List.map_append]
    rfl

/-- Attempts that are retried are followed by one delay each: those of the policy, in order. -/
theorem retriedCalls_delays (h : t.FailedRetryably policy failed) :
    (retriedCalls policy failed).filterMap Heard.delay? = (List.range failed.length).map policy.delay := by
  induction failed using List.reverseRecOn with
  | nil => rfl
  | append_singleton failed a ih =>
    have hlast : a.1.filterMap Heard.delay? = [] := (h a (by simp)).1.delays
    rw [retriedCalls_concat, List.filterMap_append, ih fun b hb => h b (List.mem_append_left _ hb),
      List.filterMap_append, hlast, List.length_append, List.length_singleton, List.range_succ, List.map_append]
    rfl

end Heard

/-! ## The account of a run -/

/-- How often a run raises each counter of its session, by what it was told and its result. -/
def timesRaised (heard : List Heard) (outcome : TransactionRun.Outcome) : SessionCounter → Nat
  | .transactionsStarted => heard.countP Heard.hasBegun
  | .queriesExecuted => (heard.filterMap Heard.result?).length
  | .transactionsCommitted => TransactionRun.Outcome.commits outcome
  | .transactionsRolledBack => (heard.filterMap Heard.failure?).length

/-- The failure of the last attempt of a run that returns an error, by what it was told and its result. -/
def finalFailure? (heard : List Heard) : TransactionRun.Outcome → Option Failure
  | .ok _ => none
  | .error _ => (heard.filterMap Heard.failure?).getLast?

/-- What is to be said of what a run does in its strides, by what it was told in all and its result. -/
structure Accounts (policy : RetryPolicy) (t : Transaction) (heard : List Heard) (outcome : TransactionRun.Outcome)
    (strides : List Stride) : Prop where
  /-- The remote calls are those of the attempts, of which there is one more than there were retries.  What counts as a
  failure is what an attempt failed with; if the run returns an error, the last attempt failed too. -/
  attempts : ∃ attempts : List (List Heard × TransactionRun.Outcome),
    heard.filter (fun call => call.request?.isSome) = (attempts.map Prod.fst).flatten ∧
      (∀ a ∈ attempts, Attempt t.session.remote t.statements a.1 a.2) ∧
      attempts.length = (heard.filterMap Heard.delay?).length + 1 ∧
      heard.filterMap Heard.failure? = attempts.filterMap fun a => TransactionRun.Outcome.failure? a.2
  failed : (heard.filterMap Heard.failure?).length =
    (heard.filterMap Heard.delay?).length + TransactionRun.Outcome.giveUps outcome
  counters : ∀ counter, Raises t.session.id counter (timesRaised heard outcome counter) strides
  errors : Notes t.session.id ((heard.filterMap Heard.failure?).map Failure.message) strides
  started : emissionsUnder .transactionsStarted strides =
    List.replicate (heard.countP Heard.hasBegun) (Metric.transactionsStarted.emit .one [("database", t.session.label)])
  executed : emissionsUnder .queriesExecuted strides =
    List.replicate (heard.filterMap Heard.result?).length
      (Metric.queriesExecuted.emit .one [("database", t.session.label)])
  committed : emissionsUnder .transactionCommits strides =
    List.replicate (TransactionRun.Outcome.commits outcome)
      (Metric.transactionCommits.emit .one [("database", t.session.label)])
  rolledBack : emissionsUnder .transactionRollbacks strides = (heard.filterMap Heard.failure?).map fun failure =>
    Metric.transactionRollbacks.emit .one [("reason", failure.kind.name), ("database", t.session.label)]
  /-- Each retry is reported with the failure before it. -/
  retried : emissionsUnder .queryRetries strides =
    ((heard.filterMap Heard.failure?).take (heard.filterMap Heard.delay?).length).map fun failure =>
      Metric.queryRetries.emit .one (TransactionRun.failureLabels t failure)
  delayed : (emissionsUnder .retryDelay strides).map Emission.value =
    (List.range (heard.filterMap Heard.delay?).length).map fun i => (policy.delay i).toSeconds
  /-- Of each statement that ran the statistics are reported, and at the end the error of the last attempt if the run
  returns one.  Both may be errors of queries: those in the statistics are what the engine notified of. -/
  queries : queryEmissionsUnder strides =
    (heard.filterMap Heard.result?).flatMap (fun result =>
        result.statistics.emissions [("database", t.session.label)]) ++
      (finalFailure? heard outcome).toList.map fun failure =>
        Metric.queryErrors.emit .one (TransactionRun.failureLabels t failure)

namespace Ending

variable {policy : RetryPolicy} {t : Transaction} {circuits : Prop} {heard : List Heard}
  {outcome : TransactionRun.Outcome}

/-- A run commits once, if it succeeds. -/
theorem countP_isCommitted (h : Ending policy t circuits heard outcome) :
    heard.countP Heard.isCommitted = TransactionRun.Outcome.commits outcome := by
  have hgrammatical := Ending.grammatical h
  have hcalls : (heard.filter fun call => call.request?.isSome).countP Heard.isCommitted =
      heard.countP Heard.isCommitted := by
    rw [List.countP_filter]
    refine List.countP_congr fun call _ => ?_
    rw [Bool.and_eq_true]
    refine and_iff_left_of_imp fun hcommitted => ?_
    obtain ⟨wait, answer⟩ := call
    cases wait with
    | reply request => rfl
    | _ => exact absurd hcommitted (by simp [Heard.isCommitted])
  rw [← hcalls]
  cases outcome with
  | ok results =>
    have hsome := List.countP_pos_iff.2 (hgrammatical.committed_iff.2 ⟨results, rfl⟩)
    have honce := hgrammatical.committed_once
    show _ = 1
    omega
  | error failure =>
    refine List.countP_eq_zero.2 fun call hcall hcommitted => ?_
    obtain ⟨results, hresults⟩ := hgrammatical.committed_iff.1 ⟨call, hcall, hcommitted⟩
    exact absurd hresults (by simp)

/-- The attempts of a run that no circuit stopped: those that were retried, and the one that decided. -/
theorem exists_last (h : Ending policy t False heard outcome) :
    ∃ failed calls last, heard = retriedCalls policy failed ++ calls ∧ t.FailedRetryably policy failed ∧
      Attempt t.session.remote t.statements calls last ∧
      ((∃ results, outcome = .ok results ∧ last = .ok results) ∨
        ∃ failure final, outcome = .error final ∧ last = .error failure) := by
  cases h with
  | committed hfailed _ hattempt => exact ⟨_, _, _, rfl, hfailed, hattempt, .inl ⟨_, rfl, rfl⟩⟩
  | stopped hfailed _ hattempt _ => exact ⟨_, _, _, rfl, hfailed, hattempt, .inr ⟨_, _, rfl, rfl⟩⟩
  | exhausted hfailed _ hattempt _ => exact ⟨_, _, _, rfl, hfailed, hattempt, .inr ⟨_, _, rfl, rfl⟩⟩
  | notAdmitted hcircuits => exact hcircuits.elim

/-- The attempts of a run were the remote calls, and one more than there were retries. -/
theorem exists_attempts (h : Ending policy t False heard outcome) :
    ∃ attempts : List (List Heard × TransactionRun.Outcome),
      heard.filter (fun call => call.request?.isSome) = (attempts.map Prod.fst).flatten ∧
        (∀ a ∈ attempts, Attempt t.session.remote t.statements a.1 a.2) ∧
        attempts.length = (heard.filterMap Heard.delay?).length + 1 ∧
        heard.filterMap Heard.failure? = attempts.filterMap fun a => TransactionRun.Outcome.failure? a.2 := by
  obtain ⟨failed, calls, last, rfl, hfailed, hattempt, -⟩ := h.exists_last
  refine ⟨asAttempts failed ++ [(calls, last)], ?_, ?_, ?_, ?_⟩
  · rw [Ending.filter_heard hfailed hattempt]
    simp
  · intro a ha
    rcases List.mem_append.1 ha with hold | hnew
    · exact (Ending.allFailed hfailed).attempt a hold
    · rw [List.mem_singleton.1 hnew]
      exact hattempt
  · rw [List.filterMap_append, retriedCalls_delays hfailed, hattempt.delays]
    simp [asAttempts]
  · rw [List.filterMap_append, retriedCalls_failures hfailed, hattempt.failures]
    cases last <;> simp [asAttempts, List.filterMap_map, TransactionRun.Outcome.failure?]

/-- The delays are those of the policy, in their order. -/
theorem delays (h : Ending policy t False heard outcome) :
    heard.filterMap Heard.delay? = (List.range (heard.filterMap Heard.delay?).length).map policy.delay := by
  obtain ⟨failed, calls, last, rfl, hfailed, hattempt, -⟩ := h.exists_last
  rw [List.filterMap_append, retriedCalls_delays hfailed, hattempt.delays, List.append_nil, List.length_map,
    List.length_range]

/-- After every failure there was a retry, or the run gave up. -/
theorem length_failures (h : Ending policy t False heard outcome) :
    (heard.filterMap Heard.failure?).length =
      (heard.filterMap Heard.delay?).length + TransactionRun.Outcome.giveUps outcome := by
  obtain ⟨failed, calls, last, rfl, hfailed, hattempt, hlast⟩ := h.exists_last
  rw [List.filterMap_append, List.filterMap_append, retriedCalls_failures hfailed, retriedCalls_delays hfailed,
    hattempt.delays, hattempt.failures]
  rcases hlast with ⟨results, rfl, rfl⟩ | ⟨failure, final, rfl, rfl⟩
  · simp [TransactionRun.Outcome.failure?, TransactionRun.Outcome.giveUps]
  · simp [TransactionRun.Outcome.failure?, TransactionRun.Outcome.giveUps]

/-- The failure after which there was no retry is the final one. -/
theorem drop_failures (h : Ending policy t False heard outcome) :
    (heard.filterMap Heard.failure?).drop (heard.filterMap Heard.delay?).length =
      (finalFailure? heard outcome).toList := by
  have hcount := h.length_failures
  cases outcome with
  | ok results => exact List.drop_eq_nil_of_le hcount.le
  | error final =>
    have hsub : (heard.filterMap Heard.delay?).length = (heard.filterMap Heard.failure?).length - 1 := by
      rw [hcount]
      rfl
    have hsome : heard.filterMap Heard.failure? ≠ [] := by
      refine List.ne_nil_of_length_pos ?_
      rw [hcount]
      exact Nat.succ_pos _
    rw [hsub, List.drop_length_sub_one hsome, finalFailure?, List.getLast?_eq_some_getLast hsome, Option.toList_some]

end Ending

/-- How the retries of a ledger and its end divide its failures. -/
theorem retried_eq_take {failures gaveUp : List Failure} {delays : List Duration} {retried : List (Failure × Duration)}
    (hdelays : retried.map Prod.snd = delays) (hfollowed : failures = retried.map Prod.fst ++ gaveUp) :
    retried.map Prod.fst = failures.take delays.length ∧ gaveUp = failures.drop delays.length := by
  have hlength : delays.length = (retried.map Prod.fst).length := by
    rw [← hdelays, List.length_map, List.length_map]
  rw [hfollowed, hlength, List.take_left, List.drop_left]
  exact ⟨rfl, rfl⟩

section Accounts

variable {policy : RetryPolicy} {t : Transaction} {heard : List Heard} {outcome : TransactionRun.Outcome}
  {strides : List Stride} {entries : List LedgerEntry} {ledger : List (List LedgerEntry)}

/-- What is reported under a metric other than the gauge. -/
theorem emissionsUnder_of_ledger (h : List.Forall₂ (fun s entries => Enters t entries s.before s.after) strides ledger)
    {m : Metric} (hm : Metric.transactionsActive ≠ m) :
    emissionsUnder m strides =
      ledger.flatten.flatMap fun entry => (entry.emissions t).filter fun e => e.name = m.name :=
  @filter_emissions_of_ledger t strides ledger h (fun name => decide (name = m.name))
    (decide_eq_false (Metric.name_injective.ne hm))

/-- What is reported under the metrics of statements. -/
theorem queryEmissionsUnder_of_ledger
    (h : List.Forall₂ (fun s entries => Enters t entries s.before s.after) strides ledger) :
    queryEmissionsUnder strides = ledger.flatten.flatMap (LedgerEntry.queryEmissions t) := by
  have hgauge : QueryStatistics.reportsUnder Metric.transactionsActive.name = false := by
    rw [← Bool.not_eq_true, QueryStatistics.reportsUnder_iff]
    decide
  rw [queryEmissionsUnder, filter_emissions_of_ledger h hgauge]
  simp only [LedgerEntry.filter_emissions_queries]

/-- In the end no failure is yet to be taken down. -/
theorem Balanced.failures_of_finished (h : Balanced (.finished outcome) heard entries) :
    entries.filterMap LedgerEntry.failure? = heard.filterMap Heard.failure? := by
  rw [← h.failures]
  exact (List.append_nil _).symm

/-- In the end no delay is yet to be waited for. -/
theorem Balanced.delays_of_finished (h : Balanced (.finished outcome) heard entries) :
    (entries.filterMap LedgerEntry.retried?).map Prod.snd = heard.filterMap Heard.delay? := by
  rw [h.delays]
  exact List.append_nil _

/-- In the end the entries of a ledger that count are as many as the answers that do. -/
theorem Balanced.countP_counter (h : Balanced (.finished outcome) heard entries)
    (hending : Ending policy t False heard outcome) (counter : SessionCounter) :
    (entries.countP fun e => e.counter? = some counter) = timesRaised heard outcome counter := by
  cases counter with
  | queriesExecuted => rw [timesRaised, ← h.results, LedgerEntry.length_results]
  | transactionsStarted => exact h.began
  | transactionsCommitted => exact h.committed.trans hending.countP_isCommitted
  | transactionsRolledBack => rw [timesRaised, ← h.failures_of_finished, LedgerEntry.length_failures]

/-- **The account of a ledger** that agrees with what a run was told from its beginning to its end. -/
theorem Balanced.accounts (hbalanced : Balanced (.finished outcome) heard ledger.flatten)
    (henters : List.Forall₂ (fun s entries => Enters t entries s.before s.after) strides ledger)
    (htracked : ∀ s ∈ strides, s.before.registry.isTracked t.session.id = true)
    (hending : Ending policy t False heard outcome) : Accounts policy t heard outcome strides := by
  have hresults := hbalanced.results
  have hfailures := hbalanced.failures_of_finished
  have hdelays := hbalanced.delays_of_finished
  obtain ⟨hretried, hgaveUp⟩ := retried_eq_take hdelays (hfailures.symm.trans hbalanced.followed)
  refine
    { attempts := hending.exists_attempts, failed := hending.length_failures, counters := ?_, errors := ?_,
      started := ?_, executed := ?_, committed := ?_, rolledBack := ?_, retried := ?_, delayed := ?_, queries := ?_ }
  · exact fun counter => hbalanced.countP_counter hending counter ▸ raises_of_ledger henters htracked counter
  · exact hfailures ▸ notes_of_ledger henters htracked
  · rw [emissionsUnder_of_ledger henters (by decide)]
    simp only [LedgerEntry.filter_emissions_counts t _ .started, flatMap_ite_singleton, hbalanced.began]
  · rw [emissionsUnder_of_ledger henters (by decide), ← hresults, LedgerEntry.length_results]
    simp only [LedgerEntry.filter_emissions_counts t _ .executed, flatMap_ite_singleton]
  · rw [emissionsUnder_of_ledger henters (by decide)]
    simp only [LedgerEntry.filter_emissions_counts t _ .committed, flatMap_ite_singleton,
      hbalanced.committed.trans hending.countP_isCommitted]
  · rw [emissionsUnder_of_ledger henters (by decide)]
    simp only [LedgerEntry.filter_emissions_rollbacks, flatMap_toList_map, hfailures]
  · rw [emissionsUnder_of_ledger henters (by decide), ← hretried, List.map_map]
    simp only [LedgerEntry.filter_emissions_retries, flatMap_toList_map]
    rfl
  · rw [emissionsUnder_of_ledger henters (by decide)]
    simp only [LedgerEntry.filter_emissions_delays, flatMap_toList_map, List.map_map]
    calc (ledger.flatten.filterMap LedgerEntry.retried?).map (fun retry => retry.2.toSeconds)
        = ((ledger.flatten.filterMap LedgerEntry.retried?).map Prod.snd).map Duration.toSeconds := by
          rw [List.map_map]
          rfl
      _ = ((List.range (heard.filterMap Heard.delay?).length).map policy.delay).map Duration.toSeconds := by
          rw [hdelays, ← hending.delays]
      _ = _ := by
          rw [List.map_map]
          rfl
  · rw [queryEmissionsUnder_of_ledger henters, hbalanced.ordered, queryEmissionsOf, hresults, hgaveUp,
      hending.drop_failures]

end Accounts

/-! ## Every run -/

namespace Course

/-- The strides of a run lead from where it begins to where it stands. -/
theorem ends_of_strides (c : Course) (s : Stride) (hs : s.after = c.relay) (script : Script) (n : Nat) :
    ((s :: c.strides script n).getLast?).map Stride.after = some (c.under script n).relay := by
  induction n with
  | zero => simp [strides, under, hs]
  | succ n ih =>
    rw [strides, under, stride?]
    cases hprogress : (c.under script n).progress with
    | finished outcome =>
      rw [turn_of_finished hprogress]
      simpa using ih
    | waiting p => rw [Option.toList_some, ← List.cons_append, List.getLast?_concat, Option.map_some]

end Course

/-- **The account of a transaction.**  A run on a session that stays tracked returns, whatever the engine answers and
whatever others do in between, and all that it adds to the counters and the errors of the session, and all that it
reports, is as often as the engine's answers say.  Where nobody else counts for the session, its counters and its errors
are in the end what they were at the beginning with this added.  The identifier of the transaction is new and nobody
else reports on its key, so that no circuit gets in the way. -/
theorem transaction_accounted {r : Relay} {session : SessionHandle} (statements : List Statement)
    (substrings : Option (List String)) (script : Script)
    (htracked : ∀ s ∈ Course.wholeStrides r session statements substrings script,
      s.before.registry.isTracked session.id = true)
    (hnew : r.breaker.circuits.get? (r.nextRun session statements substrings).id.breakerKey = none)
    (hspares : script.Spares (r.nextRun session statements substrings).id.breakerKey) :
    ∃ outcome, (Course.whole r session statements substrings script).progress = .finished outcome ∧
      Accounts r.settings.retry (r.nextRun session statements substrings)
        (Course.whole r session statements substrings script).heard outcome
        (Course.wholeStrides r session statements substrings script) ∧
      (Undisturbed session.id (Course.wholeStrides r session statements substrings script) →
        (∀ counter, ∃ count, r.counter? session.id counter = some count ∧
          (Course.whole r session statements substrings script).relay.counter? session.id counter =
            some (SessionCounters.raised count
              (timesRaised (Course.whole r session statements substrings script).heard outcome counter))) ∧
        ∃ errors, r.errors? session.id = some errors ∧
          (Course.whole r session statements substrings script).relay.errors? session.id =
            some (errors ++ ((Course.whole r session statements substrings script).heard.filterMap
              Heard.failure?).map Failure.message)) := by
  have hbegin : r.registry.isTracked session.id = true := htracked _ List.mem_cons_self
  obtain ⟨outcome, hfinished⟩ := Course.whole_finished hbegin statements substrings script
  obtain ⟨ledger, henters, hbalanced⟩ := Course.exists_ledger hbegin statements substrings script
    (TransactionRun.mostWaits r.settings.retry (r.nextRun session statements substrings))
  have hending := (@Course.Orderly.under False _ _ hbegin statements substrings script (.inr ⟨hnew, hspares⟩)
    (TransactionRun.mostWaits r.settings.retry (r.nextRun session statements substrings))).follows
  rw [← Course.whole, hfinished] at hbalanced hending
  have haccounts : Accounts r.settings.retry (r.nextRun session statements substrings) _ outcome
      (Course.wholeStrides r session statements substrings script) := hbalanced.accounts henters htracked hending
  refine ⟨outcome, hfinished, haccounts, fun hundisturbed => ?_⟩
  have hends := (Course.begin r session statements substrings).ends_of_strides
    ⟨r, (Course.begin r session statements substrings).relay⟩ rfl script
    (TransactionRun.mostWaits r.settings.retry (r.nextRun session statements substrings))
  obtain ⟨last, hlast, hafter⟩ := Option.map_eq_some_iff.1 hends
  refine ⟨fun counter => ?_, ?_⟩
  · have htotal := (haccounts.counters counter).total hundisturbed rfl hlast
    rwa [hafter] at htotal
  · have htotal := haccounts.errors.total hundisturbed rfl hlast
    rwa [hafter] at htotal

/-- A run whose first attempt cannot begin, and whose second one runs a statement and commits. -/
theorem transaction_accounted_of_retry :
    ∃ (r : Relay) (session : SessionHandle) (script : Script),
      (∀ s ∈ Course.wholeStrides r session [.plain "RETURN 1" []] none script,
        s.before.registry.isTracked session.id = true) ∧
      r.breaker.circuits.get? (r.nextRun session [.plain "RETURN 1" []] none).id.breakerKey = none ∧
      script.Spares (r.nextRun session [.plain "RETURN 1" []] none).id.breakerKey ∧
      (Course.wholeStrides r session [.plain "RETURN 1" []] none script).length = 6 ∧
      ∃ outcome, (Course.whole r session [.plain "RETURN 1" []] none script).progress = .finished outcome ∧
        Accounts r.settings.retry (r.nextRun session [.plain "RETURN 1" []] none)
          (Course.whole r session [.plain "RETURN 1" []] none script).heard outcome
          (Course.wholeStrides r session [.plain "RETURN 1" []] none script) := by
  set r : Relay := (Relay.new {}).withRegistry fun g => (g.track none ⟨7⟩ 0).1
  set script : Script := fun n =>
    { answers := if n = 0 then .refusing (.transientRemote .sessionExpired "gone") else .granting 7 }
  have htracked : ∀ s ∈ Course.wholeStrides r ⟨⟨1⟩, none, ⟨7⟩⟩ [.plain "RETURN 1" []] none script,
      s.before.registry.isTracked ⟨1⟩ = true := by
    decide +kernel
  obtain ⟨outcome, hfinished, haccounts, -⟩ := @transaction_accounted r ⟨⟨1⟩, none, ⟨7⟩⟩
    [.plain "RETURN 1" []] none script htracked rfl fun _ _ hnone => hnone
  exact ⟨r, ⟨⟨1⟩, none, ⟨7⟩⟩, script, htracked, rfl, fun _ _ hnone => hnone, by decide +kernel, outcome, hfinished,
    haccounts⟩

end QueryRelay
