import QueryRelay.Proofs.Session.Opening
import QueryRelay.Proofs.Transaction.Ledger

/-!
# Calls that match the catalogue

Wherever something is reported, the verb and the labels of the call are put together on the spot.  The catalogue says
what they have to be: a verb that fits the kind of the metric, and the label names of its entry.  Which database the
call carries depends on who reports: sessions with their transactions, operations, or the connection, which has none.

* `Emission.Matches` — a call matches an entry of the catalogue.
* `Emission.IsUnder` — a call is one that the catalogue asks for, under the database of its reporter.
* `EmitsUnder` — from one relay to another nothing else was emitted; one lemma for each kind of step.
* `Deed.perform_emits`, `Errand.resume_emits`, `Errand.drop_emits` — **all that calls do** is of this kind.
* `emissions_match_catalogue` — **what reaches the sinks matches the catalogue**, in every run.
-/

namespace QueryRelay

/-! ## Reporters -/

/-- Who reports. -/
inductive Reporter where
  | connection
  /-- A session, with the transactions on it. -/
  | session
  | operation
deriving DecidableEq

/-- Who reports a metric. -/
def Metric.reporter : Metric → Reporter
  | connectionRecreated => .connection
  | queryExecutionTime => .operation
  | failedQueries => .operation
  | _ => .session

/-- A call is one that the catalogue asks for.  If it carries a database, it is that of the reporter. -/
structure Emission.IsUnder (label : Reporter → String) (e : Emission) (m : Metric) : Prop where
  name : e.name = m.name
  verb : e.verb = m.definition.kind.verb
  labels : e.labels.map Prod.fst = m.definition.labels
  database : ∀ value, ("database", value) ∈ e.labels → value = label m.reporter

/-- From one relay to another nothing was emitted but what the catalogue asks for, under these databases. -/
def EmitsUnder (label : Reporter → String) (r r' : Relay) : Prop :=
  ∃ written, r'.log = r.log ++ written ∧ ∀ e ∈ emissionsOf written, ∃ m, e.IsUnder label m

namespace EmitsUnder

variable {label : Reporter → String} {r r' r'' : Relay}

theorem of_log (h : r'.log = r.log) : EmitsUnder label r r' :=
  ⟨[], by rw [h, List.append_nil], fun _ he => absurd he List.not_mem_nil⟩

theorem refl (r : Relay) : EmitsUnder label r r := .of_log rfl

theorem trans (h : EmitsUnder label r r') (h' : EmitsUnder label r' r'') : EmitsUnder label r r'' := by
  obtain ⟨written, hlog, hwritten⟩ := h
  obtain ⟨written', hlog', hwritten'⟩ := h'
  refine ⟨written ++ written', by rw [hlog', hlog, List.append_assoc], fun e he => ?_⟩
  rw [emissionsOf, List.filterMap_append] at he
  exact (List.mem_append.1 he).elim (hwritten e) (hwritten' e)

/-- What is written and is no call on a sink does not matter. -/
theorem silent {written : List Happening} (h : r'.log = r.log ++ written) (hsilent : emissionsOf written = []) :
    EmitsUnder label r r' :=
  ⟨written, h, fun _ he => absurd (hsilent ▸ he) List.not_mem_nil⟩

/-- Calls that the sessions, transactions and operations make. -/
theorem reported {emissions : List Emission} (h : r'.log = r.log ++ emissions.map .reported)
    (hemissions : ∀ e ∈ emissions, ∃ m, e.IsUnder label m) : EmitsUnder label r r' := by
  refine ⟨_, h, fun e he => hemissions e ?_⟩
  obtain ⟨_, hmem, hsome⟩ := List.mem_filterMap.1 he
  obtain ⟨e', he', rfl⟩ := List.mem_map.1 hmem
  cases Option.some.inj hsome
  exact he'

end EmitsUnder

/-! ## The parts of the state -/

namespace Relay

variable {label : Reporter → String}

theorem ask_emits (r : Relay) (request : Request) : EmitsUnder label r (r.ask request) := .silent rfl rfl

/-- A call whose verb and label names are those of the catalogue. -/
theorem report_emits {verb : EmissionVerb} {m : Metric} (hverb : verb = m.definition.kind.verb) (labels : Labels)
    (hlabels : labels.map Prod.fst = m.definition.labels)
    (hdatabase : ∀ value, ("database", value) ∈ labels → value = label m.reporter) (r : Relay) (value : Binary64) :
    EmitsUnder label r (r.report verb m value labels) := by
  refine EmitsUnder.reported (show _ = r.log ++ [verb.emit m value labels].map .reported from rfl) fun e he => ⟨m, ?_⟩
  rw [List.mem_singleton.1 he]
  exact ⟨rfl, hverb, hlabels, hdatabase⟩

theorem reportSessions_emits (r : Relay) : EmitsUnder label r r.reportSessions :=
  report_emits (m := .sessionsActive) rfl [] rfl (fun _ h => absurd h List.not_mem_nil) r _

theorem reportTransactions_emits (r : Relay) : EmitsUnder label r r.reportTransactions :=
  report_emits (m := .transactionsActive) rfl [] rfl (fun _ h => absurd h List.not_mem_nil) r _

/-- A call under one database. -/
theorem count_emits {m : Metric} (hkind : m.definition.kind = .counter) (hlabels : m.definition.labels = ["database"])
    {database : String} (hdatabase : database = label m.reporter) (r : Relay) :
    EmitsUnder label r (r.count m [("database", database)]) := by
  refine report_emits (m := m) (by rw [hkind]; rfl) [("database", database)] hlabels.symm (fun value hvalue => ?_) r
    .one
  cases List.mem_singleton.1 hvalue
  exact hdatabase

/-- A call with one more label, which goes before the database. -/
theorem report_emits_of_pair {verb : EmissionVerb} {m : Metric} {name text database : String}
    (hverb : verb = m.definition.kind.verb) (hlabels : m.definition.labels = [name, "database"])
    (hname : name ≠ "database") (hdatabase : database = label m.reporter) (r : Relay) (value : Binary64) :
    EmitsUnder label r (r.report verb m value [(name, text), ("database", database)]) := by
  refine report_emits (m := m) hverb [(name, text), ("database", database)] hlabels.symm (fun value hvalue => ?_) r
    value
  rcases List.mem_pair.1 hvalue with h | h
  · exact absurd (Prod.mk.inj h).1.symm hname
  · exact (Prod.mk.inj h).2.trans hdatabase

/-- A call that counts one, with one more label. -/
theorem count_emits_of_pair {m : Metric} {name text database : String} (hkind : m.definition.kind = .counter)
    (hlabels : m.definition.labels = [name, "database"]) (hname : name ≠ "database")
    (hdatabase : database = label m.reporter) (r : Relay) :
    EmitsUnder label r (r.count m [(name, text), ("database", database)]) :=
  report_emits_of_pair (by rw [hkind]; rfl) hlabels hname hdatabase r .one

/-- A call that takes a value into a histogram, with one more label. -/
theorem observe_emits_of_pair {m : Metric} {name text database : String} (hkind : m.definition.kind = .histogram)
    (hlabels : m.definition.labels = [name, "database"]) (hname : name ≠ "database")
    (hdatabase : database = label m.reporter) (r : Relay) (value : Binary64) :
    EmitsUnder label r (r.observe m value [(name, text), ("database", database)]) :=
  report_emits_of_pair (by rw [hkind]; rfl) hlabels hname hdatabase r value

theorem acquireClient_emits (r : Relay) : EmitsUnder label r r.acquireClient.1 := by
  rw [acquireClient_fst]
  refine .silent rfl ?_
  split <;> rfl

theorem recreateClient_emits (r : Relay) : EmitsUnder label r r.recreateClient.1 := by
  rw [recreateClient_fst]
  refine ⟨_, rfl, fun e he => ⟨.connectionRecreated, ?_⟩⟩
  split at he
  · split at he
    · rw [List.mem_singleton.1 he]
      exact ⟨rfl, rfl, rfl, fun _ h => absurd h List.not_mem_nil⟩
    · exact absurd he List.not_mem_nil
  · exact absurd he List.not_mem_nil

theorem registerTransaction_emits (r : Relay) (state : TransactionState) :
    EmitsUnder label r (r.registerTransaction state).1 :=
  (EmitsUnder.of_log rfl).trans (reportTransactions_emits _)

theorem clearTransaction_emits (r : Relay) (id : TransactionId) : EmitsUnder label r (r.clearTransaction id).1 := by
  unfold clearTransaction
  split
  · exact (EmitsUnder.of_log rfl).trans (reportTransactions_emits _)
  · exact .refl r

end Relay

/-! ## Openings and closings -/

namespace Opening

variable {label : Reporter → String}

theorem start_emits (r : Relay) (database : Option String) (options : Option SessionOptions) :
    EmitsUnder label r (start r database options).1 := by
  have hacquired : emissionsOf (acquisition r) = [] := by
    unfold acquisition
    split <;> rfl
  rcases start_cases r database options with ⟨r', failure, hover, hlog | hlog⟩ | ⟨r', o, hwaits, -, hlog⟩
  · rw [hover]
    exact .of_log hlog
  · rw [hover]
    exact .silent hlog hacquired
  · rw [hwaits]
    refine .silent (hlog.trans (List.append_assoc _ _ _)) ?_
    rw [emissionsOf, List.filterMap_append, ← emissionsOf, hacquired]
    rfl

/-- A refusal is not reported by the sessions. -/
theorem resume_error_emits (o : Opening) (failure : Failure) (r : Relay) :
    EmitsUnder label r (o.resume (.error failure) r).1 := by
  simp only [resume]
  split
  · have hrecreated : EmitsUnder label _ _ := (r.recordFailure sessionCreationKey).recreateClient_emits
    exact (EmitsUnder.of_log rfl).trans (hrecreated.trans (.of_log rfl))
  · exact .of_log rfl

theorem resume_emits {o : Opening} (ho : databaseLabel o.database = label .session)
    (reply : Except Failure RemoteSession) (r : Relay) : EmitsUnder label r (o.resume reply r).1 := by
  cases reply with
  | ok remote =>
    simp only [resume]
    refine .trans (.of_log rfl) ((Relay.count_emits (m := .sessionsCreated) rfl rfl ho _).trans ?_)
    exact Relay.reportSessions_emits _
  | error failure => exact resume_error_emits o failure r

end Opening

namespace Closing

variable {label : Reporter → String}

theorem start_emits (r : Relay) (id : SessionId) : EmitsUnder label r (start r id).1 := by
  unfold start
  split
  · exact .refl r
  · dsimp only
    split
    · exact .refl r
    · exact .silent rfl rfl

theorem resume_emits {c : Closing} (hc : databaseLabel c.database = label .session) (reply : Except Failure Unit)
    (r : Relay) : EmitsUnder label r (c.resume reply r).1 := by
  simp only [resume]
  exact .trans (.of_log rfl)
    ((Relay.count_emits_of_pair (m := .sessionsClosed) rfl rfl (by decide) hc _).trans (Relay.reportSessions_emits _))

end Closing

/-! ## Transactions -/

namespace QueryStatistics

variable {label : Reporter → String}

/-- What statistics are reported with is under the database that the caller gives. -/
theorem emissions_isUnder {s : QueryStatistics} {database : String} (h : database = label .session) {e : Emission}
    (he : e ∈ s.emissions [("database", database)]) : ∃ m, e.IsUnder label m := by
  rcases List.mem_append.1 he with hcounted | hnotified
  · obtain ⟨p, hp, rfl⟩ := List.mem_map.1 hcounted
    have hmetrics : ∀ m ∈ countedMetrics,
        m.definition.kind = .counter ∧ m.definition.labels = ["database"] ∧ m.reporter = .session := by decide
    obtain ⟨hkind, hlabels, hreporter⟩ := hmetrics p.1 (mem_countedMetrics hp)
    refine ⟨p.1, rfl, ?_, hlabels.symm, fun value hvalue => ?_⟩
    · rw [hkind]
      rfl
    · cases List.mem_singleton.1 hvalue
      rw [hreporter, h]
  · obtain ⟨code, -, rfl⟩ := List.mem_map.1 hnotified
    refine ⟨.queryErrors, rfl, rfl, rfl, fun value hvalue => ?_⟩
    rcases List.mem_pair.1 hvalue with hcode | hdatabase
    · exact absurd (Prod.mk.inj hcode).1 (by decide)
    · exact (Prod.mk.inj hdatabase).2.trans h

end QueryStatistics

namespace TransactionRun

variable {label : Reporter → String} {t : Transaction}

theorem leave_emits (t : Transaction) (r : Relay) : EmitsUnder label r (leave t r) :=
  (r.clearTransaction_emits t.id).trans (.of_log rfl)

theorem attempt_emits (t : Transaction) (retries : Nat) (r : Relay) : EmitsUnder label r (attempt t retries r).1 := by
  unfold attempt
  dsimp only
  split
  · exact .trans (.of_log rfl) (Relay.ask_emits _ _)
  · exact .trans (.of_log rfl) (leave_emits t _)

theorem start_emits (r : Relay) (session : SessionHandle) (statements : List Statement)
    (substrings : Option (List String)) : EmitsUnder label r (start r session statements substrings).1 := by
  unfold start
  split
  · exact (r.registerTransaction_emits _).trans (attempt_emits _ 0 _)
  · exact .refl r

theorem next_emits (t : Transaction) (retries : Nat) (results : List QueryResult) (rest : List Statement)
    (r : Relay) : EmitsUnder label r (next t retries results rest r).1 := by
  cases rest <;> exact r.ask_emits _

theorem noteFailure_emits (ht : t.session.label = label .session) (retries : Nat) (failure : Failure) (r : Relay) :
    EmitsUnder label r (noteFailure t retries failure r) := by
  have hbumped := (r.updateTransaction t.id fun s => s.fail failure.message retries r.now).log_bump t.session
    .transactionsRolledBack
  exact .trans (.of_log hbumped)
    (.trans (.of_log rfl) (Relay.count_emits_of_pair (m := .transactionRollbacks) rfl rfl (by decide) ht _))

theorem giveUp_emits (ht : t.session.label = label .session) (failure outcome : Failure) (r : Relay) :
    EmitsUnder label r (giveUp t failure outcome r).1 := by
  exact .trans (.of_log rfl)
    ((Relay.count_emits_of_pair (m := .queryErrors) rfl rfl (by decide) ht _).trans (leave_emits t _))

theorem afterFailure_emits (ht : t.session.label = label .session) (retries : Nat) (failure : Failure) (r : Relay) :
    EmitsUnder label r (afterFailure t retries failure r).1 := by
  have hnoted := noteFailure_emits ht retries failure r
  unfold afterFailure
  dsimp only
  split
  · exact hnoted.trans (giveUp_emits ht _ _ _)
  · split
    · exact hnoted.trans (giveUp_emits ht _ _ _)
    · exact hnoted.trans ((Relay.count_emits_of_pair (m := .queryRetries) rfl rfl (by decide) ht _).trans
        (Relay.observe_emits_of_pair (m := .retryDelay) rfl rfl (by decide) ht _ _))

theorem noteResult_emits (ht : t.session.label = label .session) (result : QueryResult) (r : Relay) :
    EmitsUnder label r (noteResult t result r) := by
  simp only [noteResult, Relay.foldl_note]
  have hstatistics : EmitsUnder label r
      { r with log := r.log ++ (result.statistics.emissions [("database", t.session.label)]).map .reported } :=
    .reported rfl fun e he => QueryStatistics.emissions_isUnder ht he
  exact hstatistics.trans
    ((Relay.count_emits (m := .queriesExecuted) rfl rfl ht _).trans (.of_log (Relay.log_bump _ _ _)))

theorem afterCommit_emits (ht : t.session.label = label .session) (results : List QueryResult) (r : Relay) :
    EmitsUnder label r (afterCommit t results r).1 := by
  have hbumped := ((r.updateTransaction t.id TransactionState.commit).recordSuccess t.id.breakerKey).log_bump t.session
    .transactionsCommitted
  exact .trans (.of_log hbumped)
    ((Relay.count_emits (m := .transactionCommits) rfl rfl ht _).trans (leave_emits t _))

theorem resume_emits {p : TransactionRun} (hp : p.transaction.session.label = label .session)
    (answer : p.wait.Answer) (r : Relay) : EmitsUnder label r (p.resume answer r).1 := by
  cases p with
  | beginning t retries =>
    cases answer with
    | ok _ =>
      exact .trans (.of_log (r.log_bump t.session .transactionsStarted))
        ((Relay.count_emits (m := .transactionsStarted) rfl rfl hp _).trans (next_emits t retries _ _ _))
    | error e => exact afterFailure_emits hp retries e r
  | running t retries results current rest =>
    cases answer with
    | ok raw =>
      simp only [resume]
      split
      · exact (noteResult_emits hp _ r).trans (next_emits t retries _ _ _)
      · exact r.ask_emits _
    | error e => exact r.ask_emits _
  | rollingBack t retries e => exact afterFailure_emits hp retries e r
  | committing t retries results =>
    cases answer with
    | ok _ => exact afterCommit_emits hp results r
    | error e => exact r.ask_emits _
  | backingOff t retries delay => exact .trans (.of_log rfl) (attempt_emits t (retries + 1) _)

end TransactionRun

/-! ## Clients, reapers and operations -/

section

variable {label : Reporter → String}

theorem Execution.start_emits (r : Relay) (routing : RoutingMode) (statement : Statement) :
    EmitsUnder label r (Execution.start r routing statement).1 := by
  have hacquired : EmitsUnder label r r.acquireClient.1 := r.acquireClient_emits
  unfold Execution.start
  split
  all_goals
    rename_i h
    rw [h] at hacquired
  · exact hacquired.trans (Relay.ask_emits _ _)
  · exact hacquired

theorem Execution.resume_emits (p : Execution) (answer : p.wait.Answer) (r : Relay) :
    EmitsUnder label r (p.resume answer r).1 := by
  cases p with
  | executing client database routing statement attempt =>
    cases answer with
    | ok raw => exact .refl r
    | error e =>
      simp only [Execution.resume]
      split <;> exact .refl r
  | delaying span routing statement attempt =>
    have hrecreated : EmitsUnder label r r.recreateClient.1 := r.recreateClient_emits
    simp only [Execution.resume]
    split
    all_goals
      rename_i h
      rw [h] at hrecreated
    · exact hrecreated.trans (Relay.ask_emits _ _)
    · exact hrecreated

theorem ClientClosing.start_emits (r : Relay) : EmitsUnder label r (ClientClosing.start r).1 := by
  unfold ClientClosing.start
  dsimp only
  split
  · exact .trans (.of_log rfl) (Relay.ask_emits _ _)
  · exact .of_log rfl

theorem Stopping.start_log (r : Relay) : (Stopping.start r).1.log = r.log := by
  unfold Stopping.start Relay.tellReaper
  cases r.reaper with
  | none => rfl
  | some id =>
    dsimp only
    split <;> rfl

theorem Reaping.settle_log (r : Relay) (id : ReaperId) : (Reaping.settle r id).1.log = r.log := by
  unfold Reaping.settle
  split <;> rfl

theorem Operation.finish_emits {f : OperationFrame} (hf : databaseLabel f.database = label .operation)
    (outcome : TransactionRun.Outcome) (r : Relay) : EmitsUnder label r (Operation.finish f outcome r).1 := by
  have htimed : EmitsUnder label r
      (r.observe .queryExecutionTime (Instant.since r.now f.startedAt).toSeconds (labels f)) :=
    Relay.observe_emits_of_pair rfl rfl (by decide) hf r _
  cases outcome with
  | ok _ => exact htimed
  | error e => exact htimed.trans (Relay.count_emits_of_pair (m := .failedQueries) rfl rfl (by decide) hf _)

end

/-! ## Everything that calls do -/

/-- The database under which a deed reports.  Only the end of an operation has to do with one. -/
def Deed.label : Deed → String
  | finish f _ => databaseLabel f.database
  | _ => databaseLabel none

/-- The database under which the end of an errand reports: that of its session. -/
def Errand.label : Errand → String
  | opening o => databaseLabel o.database
  | closing c => databaseLabel c.database
  | transacting t => t.transaction.session.label
  | _ => databaseLabel none

/-- What a deed emits. -/
theorem Deed.perform_emits (d : Deed) (r : Relay) : EmitsUnder (fun _ => d.label) r (d.perform r).1 := by
  cases d with
  | openSession database options => exact Opening.start_emits r database options
  | closeSession id => exact Closing.start_emits r id
  | transact session statements substrings => exact TransactionRun.start_emits r session statements substrings
  | execute routing statement => exact Execution.start_emits r routing statement
  | closeClient => exact ClientClosing.start_emits r
  | startReaper =>
    refine .of_log ?_
    unfold perform Relay.startReaper
    dsimp only
    split <;> rfl
  | stopReaper => exact .of_log (Stopping.start_log r)
  | settleReaper reaper => exact .of_log (Reaping.settle_log r reaper)
  | update session counter delta => exact .of_log (r.log_updateSession session counter delta)
  | markIdle session => exact .of_log (r.log_markIdle session)
  | acquireClient => exact r.acquireClient_emits
  | recreateClient => exact r.recreateClient_emits
  | clear id => exact r.clearTransaction_emits id
  | finish f outcome => exact Operation.finish_emits rfl outcome r
  | _ => exact .of_log rfl

/-- What the end of an errand emits. -/
theorem Errand.resume_emits (answers : Answers) (e : Errand) (r : Relay) :
    EmitsUnder (fun _ => e.label) r (e.resume answers r).1 := by
  cases e with
  | opening o => exact Opening.resume_emits rfl _ r
  | closing c => exact Closing.resume_emits rfl _ r
  | transacting t => exact TransactionRun.resume_emits rfl _ r
  | executing e => exact Execution.resume_emits e _ r
  | _ => exact .refl r

theorem Errand.drop_emits (e : Errand) (label : Reporter → String) (r : Relay) : EmitsUnder label r (e.drop r) := by
  cases e with
  | opening o => exact .of_log rfl
  | transacting t => exact TransactionRun.leave_emits t.transaction r
  | _ => exact .refl r

/-! ## What reaches the sinks -/

/-- Every call among these is one that the catalogue asks for. -/
def AllAskedFor (log : List Happening) : Prop := ∀ e ∈ emissionsOf log, ∃ label m, e.IsUnder label m

theorem AllAskedFor.after {label : Reporter → String} {r r' : Relay} (h : AllAskedFor r.log)
    (hemits : EmitsUnder label r r') : AllAskedFor r'.log := by
  obtain ⟨written, hlog, hwritten⟩ := hemits
  intro e he
  rw [hlog, emissionsOf, List.filterMap_append] at he
  exact (List.mem_append.1 he).elim (h e) fun hnew => ⟨label, hwritten e hnew⟩

/-- **Everything that can happen** keeps to the catalogue. -/
theorem invariant_allAskedFor : Invariant fun r _ _ => AllAskedFor r.log where
  perform := fun d _ _ _ h => h.after (d.perform_emits _)
  resume := fun answers e _ _ _ h => h.after (e.resume_emits answers _)
  drop := fun e _ _ _ h => h.after (e.drop_emits (fun _ => e.label) _)
  elapse := fun _ _ _ _ h => h

theorem Exchange.allAskedFor {settings : Settings} {factory : ClientFactory} {moves : List Move} {x : Exchange}
    (h : (new settings factory).run moves = some x) : AllAskedFor x.relay.log :=
  invariant_allAskedFor.satisfies_run h fun _ he => absurd he List.not_mem_nil

/-- A call matches an entry of the catalogue: the entry has its name, the verb fits the kind, and the call carries every
label name of the entry once and no other. -/
structure Emission.Matches (e : Emission) (d : MetricDefinition) : Prop where
  found : Metric.find? e.name = some d
  verb : e.verb = d.kind.verb
  labels : ∀ name, (e.labels.map Prod.fst).count name = if name ∈ d.labels then 1 else 0

theorem Metric.find?_name (m : Metric) : find? m.name = some m.definition := by
  have hsame : ∀ m', decide (m'.definition.name = m.name) = decide (m' = m) := fun m' =>
    decide_eq_decide.2 name_injective.eq_iff
  have hfirst : Metric.all.find? (fun m' => decide (m' = m)) = some m := by
    cases m <;> rfl
  rw [find?, catalogue, List.find?_map, Function.comp_def]
  simp only [hsame, hfirst, Option.map_some]

/-- No entry of the catalogue names a label twice. -/
theorem Metric.nodup_labels (m : Metric) : m.definition.labels.Nodup := by
  cases m <;> decide

theorem Emission.IsUnder.matches {label : Reporter → String} {e : Emission} {m : Metric} (h : e.IsUnder label m) :
    e.Matches m.definition where
  found := by rw [h.name, m.find?_name]
  verb := h.verb
  labels := fun name => by rw [h.labels, m.nodup_labels.count]

/-- A configuration without additional labels leaves labels alone. -/
theorem MonitoringConfig.labels_of_no_additional {config : MonitoringConfig}
    (h : config.additionalLabels.getD .empty = .empty) (base : Labels) : config.labels base = base := by
  rw [labels, h]
  rfl

/-- Behind a configuration without additional labels there is nothing that is not in front of it. -/
theorem mem_emissionsOf_of_emission? {monitoring : Option MonitoringConfig}
    (hplain : ∀ config ∈ monitoring, config.additionalLabels.getD .empty = .empty) {log : List Happening}
    {e : Emission} (he : e ∈ log.filterMap (Happening.emission? monitoring)) : e ∈ emissionsOf log := by
  obtain ⟨happening, hmem, hsome⟩ := List.mem_filterMap.1 he
  refine List.mem_filterMap.2 ⟨happening, hmem, ?_⟩
  cases happening with
  | reported e' =>
    cases monitoring with
    | none => exact hsome
    | some config =>
      simp only [Happening.emission?, MonitoringConfig.forward?] at hsome
      split at hsome
      · rw [MonitoringConfig.labels_of_no_additional (hplain config rfl)] at hsome
        exact hsome
      · exact absurd hsome (by simp)
  | _ => exact hsome

/-- **What reaches the sinks matches the catalogue.**  Take any run and any monitoring configuration, or none, as long
as it adds no labels: every call on a sink has the name of an entry, the verb that fits the entry's kind, and the label
names of the entry. -/
theorem emissions_match_catalogue {settings : Settings} {factory : ClientFactory} {moves : List Move} {x : Exchange}
    (h : (Exchange.new settings factory).run moves = some x) {monitoring : Option MonitoringConfig}
    (hplain : ∀ config ∈ monitoring, config.additionalLabels.getD .empty = .empty) :
    ∀ e ∈ x.relay.log.filterMap (Happening.emission? monitoring), ∃ d, e.Matches d := by
  intro e he
  obtain ⟨label, m, hm⟩ := Exchange.allAskedFor h e (mem_emissionsOf_of_emission? hplain he)
  exact ⟨m.definition, hm.matches⟩

/-- A query whose session cannot be opened, so that the client is made anew, and a query whose first attempt fails. -/
def failedAndRetried : List Move :=
  [.start (.query {} (.plain "RETURN 1" []) {}), .resume 0 (.refusing (.connectionFailure "lost")),
    .start (.query {} (.plain "RETURN 1" []) {}), .resume 1 (.granting 7),
    .resume 1 (.refusing (.transientRemote .sessionExpired "expired")), .elapse (.ofWholeSeconds 30),
    .resume 1 (.granting 7), .resume 1 (.granting 7), .resume 1 (.granting 7), .resume 1 (.granting 7),
    .resume 1 (.granting 7)]

/-- The two queries make 31 calls on a sink behind a configuration that collects every family. -/
theorem emissions_match_catalogue_of_retry :
    ∃ x, (Exchange.new {} {}).run failedAndRetried = some x ∧
      (∀ config ∈ some MonitoringConfig.detailed, config.additionalLabels.getD .empty = .empty) ∧
      (x.relay.log.filterMap (Happening.emission? (some .detailed))).length = 31 ∧
      ∀ e ∈ x.relay.log.filterMap (Happening.emission? (some .detailed)), ∃ d, e.Matches d := by
  have hrun : ((Exchange.new {} {}).run failedAndRetried).map
      (fun x => (x.relay.log.filterMap (Happening.emission? (some .detailed))).length) = some 31 := by
    decide +kernel
  obtain ⟨x, hx, hlength⟩ := Option.map_eq_some_iff.1 hrun
  have hplain : ∀ config ∈ some MonitoringConfig.detailed, config.additionalLabels.getD .empty = .empty := by
    rintro config ⟨⟩
    rfl
  exact ⟨x, hx, hplain, hlength, emissions_match_catalogue hx hplain⟩

end QueryRelay
