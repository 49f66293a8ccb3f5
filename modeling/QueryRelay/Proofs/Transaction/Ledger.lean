import QueryRelay.Proofs.Session.Side
import QueryRelay.Proofs.Transaction.Side

/-!
# What a run takes down

Between two waits a run of a transaction counts for its session and reports to the sink.  Both say the same: that an
attempt began, that a statement ran, that the run committed, that an attempt failed, and what followed from that.  A
`LedgerEntry` is one of these things.

* `LedgerEntry.effect`, `LedgerEntry.emissions` — what an entry is to the session, and what to the sink.
* `TransactionRun.entries` — what a run takes down at the end of a wait, which depends on the policy, on where the run
  waits and on what it is told.
* `TransactionRun.resume_enters` — **a step does to sessions and to the sink what its entries say, and nothing else**
  but to report how many transactions are in flight.
-/

namespace QueryRelay

/-! ## Entries -/

/-- Something that a run takes down. -/
inductive LedgerEntry where
  | began
  | ran (result : QueryResult)
  | committed
  | failed (failure : Failure)
  | retried (failure : Failure) (delay : Duration)
  | gaveUp (failure : Failure)

namespace LedgerEntry

/-- The counter of the session that an entry raises by one. -/
def counter? : LedgerEntry → Option SessionCounter
  | began => some .transactionsStarted
  | ran _ => some .queriesExecuted
  | committed => some .transactionsCommitted
  | failed _ => some .transactionsRolledBack
  | retried _ _ => none
  | gaveUp _ => none

/-- The error that an entry is to the session. -/
def failure? : LedgerEntry → Option Failure
  | failed failure => some failure
  | _ => none

/-- What an entry makes of the state of its session at some moment. -/
def effect (now : Instant) : LedgerEntry → SessionState → SessionState
  | began, s => (s.bump .transactionsStarted 1).touch now
  | ran _, s => (s.bump .queriesExecuted 1).touch now
  | committed, s => (s.bump .transactionsCommitted 1).touch now
  | failed failure, s => ((s.bump .transactionsRolledBack 1).touch now).note failure.message
  | retried _ _, s => s
  | gaveUp _, s => s

/-- What entries make of the state of their session, one after the other. -/
def effects (now : Instant) (entries : List LedgerEntry) (s : SessionState) : SessionState :=
  entries.foldl (fun s e => e.effect now s) s

/-- What is reported with an entry. -/
def emissions (t : Transaction) : LedgerEntry → List Emission
  | began => [Metric.transactionsStarted.emit .one [("database", t.session.label)]]
  | ran result =>
    result.statistics.emissions [("database", t.session.label)] ++
      [Metric.queriesExecuted.emit .one [("database", t.session.label)]]
  | committed => [Metric.transactionCommits.emit .one [("database", t.session.label)]]
  | failed failure =>
    [Metric.transactionRollbacks.emit .one [("reason", failure.kind.name), ("database", t.session.label)]]
  | retried failure delay =>
    [Metric.queryRetries.emit .one (TransactionRun.failureLabels t failure),
      Metric.retryDelay.emit delay.toSeconds (TransactionRun.failureLabels t failure)]
  | gaveUp failure => [Metric.queryErrors.emit .one (TransactionRun.failureLabels t failure)]

end LedgerEntry

/-! ## What is seen of entries -/

/-- A metric has a name of its own. -/
theorem Metric.name_injective : Function.Injective Metric.name := by
  have hdistinct : (Metric.all.map Metric.name).Nodup := by decide +kernel
  have hall : ∀ m : Metric, m ∈ Metric.all := by
    intro m
    cases m <;> decide
  intro m m' h
  exact List.inj_on_of_nodup_map hdistinct (hall m) (hall m') h

namespace LedgerEntry

/-- The metrics that an entry is reported under. -/
def metrics : LedgerEntry → List Metric
  | began => [.transactionsStarted]
  | ran _ => QueryStatistics.metrics ++ [.queriesExecuted]
  | committed => [.transactionCommits]
  | failed _ => [.transactionRollbacks]
  | retried _ _ => [.queryRetries, .retryDelay]
  | gaveUp _ => [.queryErrors]

theorem exists_metric_of_mem_emissions {t : Transaction} {entry : LedgerEntry} {e : Emission}
    (h : e ∈ entry.emissions t) : ∃ m ∈ entry.metrics, e.name = m.name := by
  cases entry with
  | ran result =>
    rcases List.mem_append.1 h with hstatistics | hcounted
    · obtain ⟨m, hm, _, _, rfl⟩ := QueryStatistics.exists_metric_of_mem_emissions hstatistics
      exact ⟨m, List.mem_append_left _ hm, rfl⟩
    · rw [List.mem_singleton.1 hcounted]
      exact ⟨.queriesExecuted, List.mem_append_right _ List.mem_cons_self, rfl⟩
  | retried failure delay =>
    rcases List.mem_pair.1 h with rfl | rfl
    · exact ⟨.queryRetries, List.mem_cons_self, rfl⟩
    · exact ⟨.retryDelay, List.mem_cons_of_mem _ List.mem_cons_self, rfl⟩
  | _ =>
    rw [List.mem_singleton.1 h]
    exact ⟨_, List.mem_cons_self, rfl⟩

/-- No entry sets the gauge of the transactions in flight. -/
theorem emissions_quiet {t : Transaction} (entry : LedgerEntry) :
    ∀ e ∈ entry.emissions t, e.name ≠ Metric.transactionsActive.name := by
  intro e he
  obtain ⟨m, hm, hname⟩ := exists_metric_of_mem_emissions he
  have hmetrics : .transactionsActive ∉ entry.metrics := by
    cases entry <;> simp only [metrics] <;> decide
  rw [hname]
  refine Metric.name_injective.ne ?_
  rintro rfl
  exact hmetrics hm

end LedgerEntry

/-- What reaches the sinks. -/
def emissionsOf (log : List Happening) : List Emission := log.filterMap (Happening.emission? none)

/-- What reaches the sinks, but for the gauge of the transactions in flight. -/
def emissionsBesidesGauge (log : List Happening) : List Emission :=
  (emissionsOf log).filter fun e => e.name ≠ Metric.transactionsActive.name

theorem emissionsBesidesGauge_append (log more : List Happening) :
    emissionsBesidesGauge (log ++ more) = emissionsBesidesGauge log ++ emissionsBesidesGauge more := by
  simp [emissionsBesidesGauge, emissionsOf, List.filterMap_append]

theorem emissionsBesidesGauge_reported {emissions : List Emission}
    (h : ∀ e ∈ emissions, e.name ≠ Metric.transactionsActive.name) :
    emissionsBesidesGauge (emissions.map .reported) = emissions := by
  have hall : emissionsOf (emissions.map .reported) = emissions := by
    rw [emissionsOf, List.filterMap_map]
    exact List.filterMap_some
  rw [emissionsBesidesGauge, hall]
  exact List.filter_eq_self.2 fun e he => decide_eq_true (h e he)

/-- From one relay to another, at one moment, the entries of a transaction are all that happens to the states of
sessions and, but for the gauge, all that reaches the sinks. -/
structure Enters (t : Transaction) (entries : List LedgerEntry) (r r' : Relay) : Prop where
  now : r'.now = r.now
  states : ∀ id, r'.registry.state? id =
    (r.registry.state? id).map fun s => if id = t.session.id then LedgerEntry.effects r.now entries s else s
  emissions : ∃ written, r'.log = r.log ++ written ∧
    emissionsBesidesGauge written = entries.flatMap (LedgerEntry.emissions t)

namespace Enters

variable {t : Transaction} {entries more : List LedgerEntry} {r r' r'' : Relay}

/-- What shows neither on the registry nor in the sinks. -/
theorem nothing (hside : r'.now = r.now ∧ r'.registry = r.registry)
    (hlog : ∃ written, r'.log = r.log ++ written ∧ emissionsBesidesGauge written = []) : Enters t [] r r' where
  now := hside.1
  states := by
    intro id
    simp [hside.2, LedgerEntry.effects]
  emissions := hlog

theorem same (hside : r'.now = r.now ∧ r'.registry = r.registry) (hlog : r'.log = r.log) : Enters t [] r r' :=
  nothing hside ⟨[], by rw [hlog, List.append_nil], rfl⟩

theorem trans (h : Enters t entries r r') (h' : Enters t more r' r'') : Enters t (entries ++ more) r r'' where
  now := h'.now.trans h.now
  states := by
    intro id
    rw [h'.states, h.states, Option.map_map, h.now]
    refine congrArg (fun change => (r.registry.state? id).map change) (funext fun s => ?_)
    by_cases hid : id = t.session.id
    · simp [hid, LedgerEntry.effects, List.foldl_append]
    · simp [hid]
  emissions := by
    obtain ⟨written, hlog, hwritten⟩ := h.emissions
    obtain ⟨written', hlog', hwritten'⟩ := h'.emissions
    refine ⟨written ++ written', by rw [hlog', hlog, List.append_assoc], ?_⟩
    rw [emissionsBesidesGauge_append, hwritten, hwritten', List.flatMap_append]

/-- What comes before and shows neither on the registry nor in the sinks does not matter. -/
theorem after (h : Enters t [] r r') (h' : Enters t entries r' r'') : Enters t entries r r'' := h.trans h'

/-- What comes behind and shows neither on the registry nor in the sinks does not matter. -/
theorem before (h : Enters t entries r r') (h' : Enters t [] r' r'') : Enters t entries r r'' := by
  simpa using h.trans h'

/-- One entry. -/
theorem single {entry : LedgerEntry} (hnow : r'.now = r.now)
    (hstates : ∀ id, r'.registry.state? id =
      (r.registry.state? id).map fun s => if id = t.session.id then entry.effect r.now s else s)
    (hlog : r'.log = r.log ++ (entry.emissions t).map .reported) : Enters t [entry] r r' where
  now := hnow
  states := hstates
  emissions := by
    refine ⟨(entry.emissions t).map .reported, hlog, ?_⟩
    rw [emissionsBesidesGauge_reported entry.emissions_quiet, List.flatMap_singleton]

theorem ask (r : Relay) (request : Request) : Enters t [] r (r.ask request) := nothing ⟨rfl, rfl⟩ ⟨_, rfl, rfl⟩

end Enters

/-! ## The parts of the state -/

namespace Registry

theorem state?_update (g : Registry) (id other : SessionId) (change : SessionState → SessionState) :
    (g.update id change).state? other = (g.state? other).map fun s => if other = id then change s else s := by
  rw [state?, state?, update, Table.get?_modify]
  by_cases h : other = id
  · simp [h, Function.comp_def]
  · simp [h, Function.comp_def]

end Registry

namespace Relay

theorem state?_bump (r : Relay) (handle : SessionHandle) (counter : SessionCounter) (id : SessionId) :
    (r.bump handle counter).registry.state? id =
      (r.registry.state? id).map fun s => if id = handle.id then (s.bump counter 1).touch r.now else s := by
  unfold bump updateSession
  split
  · exact Registry.state?_update _ _ _ _
  · rename_i huntracked
    have hnone : r.registry.state? handle.id = none := by
      simp only [Registry.isTracked, Table.contains, Option.isSome_iff_ne_none, ne_eq, not_not] at huntracked
      rw [Registry.state?, huntracked, Option.map_none]
    by_cases hid : id = handle.id
    · rw [hid, hnone, Option.map_none]
    · simp [hid]

theorem log_updateSession (r : Relay) (handle : SessionHandle) (counter : SessionCounter) (delta : Nat) :
    (r.updateSession handle counter delta).1.log = r.log := by
  unfold updateSession
  split <;> rfl

theorem log_bump (r : Relay) (handle : SessionHandle) (counter : SessionCounter) :
    (r.bump handle counter).log = r.log :=
  r.log_updateSession handle counter 1

theorem log_markIdle (r : Relay) (session : SessionHandle) : (r.markIdle session).1.log = r.log := by
  unfold markIdle
  split <;> rfl

theorem now_bump (r : Relay) (handle : SessionHandle) (counter : SessionCounter) :
    (r.bump handle counter).now = r.now := by
  unfold bump updateSession
  split <;> rfl

theorem foldl_note (emissions : List Emission) (r : Relay) :
    emissions.foldl (fun r e => r.note (.reported e)) r = { r with log := r.log ++ emissions.map .reported } := by
  induction emissions generalizing r with
  | nil => simp
  | cons e rest ih =>
    rw [List.foldl_cons, ih]
    simp [note]

end Relay

/-! ## Steps of a run -/

namespace TransactionRun

/-- What a run takes down when an attempt has failed: the failure, and what follows from it. -/
def failureEntries (policy : RetryPolicy) (t : Transaction) (retries : Nat) (failure : Failure) : List LedgerEntry :=
  if !policy.isRetryable failure t.substrings then [.failed failure, .gaveUp failure]
  else if policy.maxRetries ≤ retries then [.failed failure, .gaveUp failure]
  else [.failed failure, .retried failure (policy.delay retries)]

/-- What a run takes down at the end of a wait. -/
def entries (policy : RetryPolicy) : (p : TransactionRun) → p.wait.Answer → List LedgerEntry
  | beginning _ _, .ok _ => [.began]
  | beginning t retries, .error e => failureEntries policy t retries e
  | running _ _ _ current _, .ok raw =>
    match QueryResult.ofRaw current raw with
    | .ok result => [.ran result]
    | .error _ => []
  | running _ _ _ _ _, .error _ => []
  | rollingBack t retries e, _ => failureEntries policy t retries e
  | committing _ _ _, .ok _ => [.committed]
  | committing _ _ _, .error _ => []
  | backingOff _ _ _, _ => []

variable (t : Transaction) (retries : Nat) (r : Relay)

theorem leave_enters : Enters t [] r (leave t r) := by
  unfold leave Relay.clearTransaction
  split
  · exact .nothing ⟨rfl, rfl⟩
      ⟨_, rfl, by simp [emissionsBesidesGauge, emissionsOf, Happening.emission?, EmissionVerb.emit]⟩
  · exact .same ⟨rfl, rfl⟩ rfl

theorem attempt_enters : Enters t [] r (attempt t retries r).1 := by
  have hasked : Enters t [] r (r.canExecute t.id.breakerKey).1 := .same ⟨rfl, rfl⟩ rfl
  unfold attempt
  dsimp only
  split
  · exact hasked.after (.ask _ _)
  · exact hasked.after (leave_enters t _)

theorem next_enters (results : List QueryResult) (rest : List Statement) :
    Enters t [] r (next t retries results rest r).1 := by
  cases rest <;> exact .ask r _

theorem rollBack_enters (failure : Failure) : Enters t [] r (rollBack t retries failure r).1 := .ask r _

theorem noteFailure_enters (failure : Failure) : Enters t [.failed failure] r (noteFailure t retries failure r) := by
  refine .single ?_ ?_ ?_
  · exact Relay.now_bump _ _ _
  · intro id
    simp only [noteFailure, Relay.count, Relay.report, Relay.note, Relay.recordError, Relay.withRegistry,
      Registry.state?_update, Relay.state?_bump, Option.map_map]
    refine congrArg (fun change => (r.registry.state? id).map change) (funext fun s => ?_)
    by_cases hid : id = t.session.id
    · simp [hid, LedgerEntry.effect, Relay.updateTransaction]
    · simp [hid]
  · simp only [noteFailure, Relay.count, Relay.report, Relay.note, Relay.recordError, Relay.withRegistry,
      Relay.log_bump]
    rfl

theorem giveUp_enters (failure outcome : Failure) : Enters t [.gaveUp failure] r (giveUp t failure outcome r).1 := by
  have hcounted : Enters t [.gaveUp failure] r
      ((r.recordFailure t.id.breakerKey).count .queryErrors (failureLabels t failure)) :=
    .single rfl (by simp [LedgerEntry.effect, Relay.count, Relay.report, Relay.note, Relay.recordFailure,
      Relay.withBreaker]) rfl
  exact hcounted.before (leave_enters t _)

theorem retried_enters (failure : Failure) (delay : Duration) :
    Enters t [.retried failure delay] r
      ((r.count .queryRetries (failureLabels t failure)).observe .retryDelay delay.toSeconds
        (failureLabels t failure)) :=
  .single rfl (by simp [LedgerEntry.effect, Relay.observe, Relay.count, Relay.report, Relay.note])
    (List.append_assoc _ _ _)

theorem afterFailure_enters (failure : Failure) :
    Enters t (failureEntries r.settings.retry t retries failure) r (afterFailure t retries failure r).1 := by
  have hnoted := noteFailure_enters t retries r failure
  have hsettings : (noteFailure t retries failure r).settings = r.settings :=
    congrArg TransactionSide.settings (noteFailure_transactionSide t retries r failure)
  unfold afterFailure failureEntries
  dsimp only
  rw [hsettings]
  cases hretryable : r.settings.retry.isRetryable failure t.substrings with
  | false => exact hnoted.trans (giveUp_enters t _ failure failure)
  | true =>
    by_cases hmax : r.settings.retry.maxRetries ≤ retries
    · simp only [if_pos hmax]
      exact hnoted.trans (giveUp_enters t _ failure _)
    · simp only [if_neg hmax]
      exact hnoted.trans (retried_enters t _ failure _)

theorem noteResult_enters (result : QueryResult) : Enters t [.ran result] r (noteResult t result r) := by
  refine .single ?_ ?_ ?_
  · simp only [noteResult, Relay.foldl_note, Relay.now_bump]
    rfl
  · intro id
    simp only [noteResult, Relay.foldl_note, Relay.state?_bump]
    rfl
  · simp only [noteResult, Relay.foldl_note, Relay.log_bump, LedgerEntry.emissions, List.map_append]
    exact List.append_assoc _ _ _

theorem afterCommit_enters (results : List QueryResult) : Enters t [.committed] r (afterCommit t results r).1 := by
  have hcounted : Enters t [.committed] r
      ((((r.updateTransaction t.id TransactionState.commit).recordSuccess t.id.breakerKey).bump t.session
        .transactionsCommitted).count .transactionCommits [("database", t.session.label)]) := by
    refine .single ?_ ?_ ?_
    · exact Relay.now_bump _ _ _
    · intro id
      exact Relay.state?_bump _ _ _ id
    · simp only [Relay.count, Relay.report, Relay.note, Relay.log_bump]
      rfl
  exact hcounted.before (leave_enters t _)

/-- **A step of a run.**  Whatever the run is told, its entries are all that happens to the states of sessions, and all
that reaches the sinks but for the gauge. -/
theorem resume_enters (p : TransactionRun) (answer : p.wait.Answer) :
    Enters p.transaction (p.entries r.settings.retry answer) r (p.resume answer r).1 := by
  cases p with
  | beginning t retries =>
    cases answer with
    | ok reply =>
      have hcounted : Enters t [.began] r
          ((r.bump t.session .transactionsStarted).count .transactionsStarted [("database", t.session.label)]) := by
        refine .single ?_ (fun id => ?_) ?_
        · exact Relay.now_bump _ _ _
        · exact Relay.state?_bump _ _ _ id
        · simp only [Relay.count, Relay.report, Relay.note, Relay.log_bump]
          rfl
      exact hcounted.before (next_enters t retries _ [] t.statements)
    | error e => exact afterFailure_enters t retries r e
  | running t retries results current rest =>
    cases answer with
    | ok raw =>
      simp only [resume, entries]
      cases QueryResult.ofRaw current raw with
      | ok result => exact (noteResult_enters t r result).before (next_enters t retries _ _ rest)
      | error e => exact rollBack_enters t retries r e
    | error e => exact rollBack_enters t retries r e
  | rollingBack t retries e => exact afterFailure_enters t retries r e
  | committing t retries results =>
    cases answer with
    | ok reply => exact afterCommit_enters t r results
    | error e => exact rollBack_enters t retries r e
  | backingOff t retries delay =>
    have hupdated : Enters t [] r
        (r.updateTransaction t.id fun s => { s with retryCount := retries + 1 }.restart) := .same ⟨rfl, rfl⟩ rfl
    exact hupdated.after (attempt_enters t (retries + 1) _)

/-- Nothing is taken down when a run begins. -/
theorem start_enters (session : SessionHandle) (statements : List Statement) (substrings : Option (List String)) :
    Enters (r.nextRun session statements substrings) [] r (start r session statements substrings).1 := by
  by_cases htracked : r.registry.isTracked session.id = true
  · have hregistered : Enters (r.nextRun session statements substrings) [] r
        (r.registerTransaction (.new session.id statements)).1 :=
      .nothing ⟨rfl, rfl⟩ ⟨_, rfl, by simp [emissionsBesidesGauge, emissionsOf, Happening.emission?, EmissionVerb.emit]⟩
    rw [start_of_isTracked htracked]
    exact hregistered.after (attempt_enters _ 0 _)
  · unfold start
    rw [if_neg htracked]
    exact .same ⟨rfl, rfl⟩ rfl

/-- Nothing is taken down when a run is dropped. -/
theorem drop_enters (p : TransactionRun) : Enters p.transaction [] r (p.drop r) := leave_enters p.transaction r

end TransactionRun

end QueryRelay
