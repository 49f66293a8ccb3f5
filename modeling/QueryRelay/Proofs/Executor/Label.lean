import QueryRelay.Proofs.Exchange.Passage
import QueryRelay.Proofs.Metric.Conformity
import QueryRelay.Proofs.Session.Since

/-!
# The database labels of an operation

An operation opens its session on the database that the caller or the configuration names, and if neither does, on
that of the connection.  The session and the transaction on it report under the database of the session.  The operation
itself reports under the database that was named, and does not look at that of the connection.

* `Naming` — the database that was named, and that of the connection; `Naming.target` is the one for the session.
* `Operation.Keeps` — what an operation that waits knows of its databases.
* `Operation.start_labelled`, `Operation.resume_labelled` — **one step of an operation** keeps that, and reports under
  these databases; likewise runs over chunks, and any call of an executor.
* `operation_labels_agree_iff` — **when the labels of an operation agree**: always, unless it has told how it ended
  after a session was opened on a database of the connection that nobody named.
* `operation_labels_differ` — the proviso is needed.
-/

namespace QueryRelay

/-! ## Databases -/

/-- The databases that an operation has to choose from. -/
structure Naming where
  /-- The database that the caller or the configuration named. -/
  named : Option String
  /-- The database of the connection. -/
  home : Option String

namespace Naming

/-- The database on which the session is opened. -/
def target (n : Naming) : Option String := n.named <|> n.home

/-- Whether the session is opened on a database that the label of the operation does not tell. -/
def IsUntold (n : Naming) : Prop := n.named = none ∧ ∃ name, n.home = some name ∧ name ≠ "default"

/-- What may stand in the labels, if sessions were opened on these databases: operations report under the database that
was named, and sessions under the one they were opened on. -/
structure Fits (n : Naming) (opened : List (Option String)) (label : Reporter → String) : Prop where
  operation : label .operation = databaseLabel n.named
  session : opened ≠ [] → label .session = databaseLabel n.target

theorem isUntold_iff {n : Naming} : n.IsUntold ↔ databaseLabel n.named ≠ databaseLabel n.target := by
  obtain ⟨named, home⟩ := n
  cases named with
  | some name => simp [IsUntold, target]
  | none =>
    cases home with
    | none => simp [IsUntold, target]
    | some name => simp [IsUntold, target, databaseLabel, eq_comm]

end Naming

/-- The database on which a call was told that the engine had opened a session. -/
def Heard.openedOn? : Heard → Option (Option String)
  | ⟨.reply (.openSession _ database _), .ok _⟩ => some database
  | _ => none

/-- The number of a session was given out, and if the session is tracked it is on this database. -/
def Registry.Knows (g : Registry) (id : SessionId) (database : Option String) : Prop :=
  id.serial < g.nextSerial ∧ ∀ s, g.state? id = some s → s.database = database

/-- **A session stays on its database.** -/
theorem registryInvariant_knows (id : SessionId) (database : Option String) :
    RegistryInvariant fun _ _ g => g.Knows id database where
  elapse := fun _ h => h
  change := by
    rintro _ now g g' hchange ⟨hknown, hdatabase⟩
    have hupdate : ∀ other (change : SessionState → SessionState), (∀ s, (change s).database = s.database) →
        (g.update other change).Knows id database := by
      refine fun other change hchange => ⟨hknown, fun s hs => ?_⟩
      rw [Registry.state?_update] at hs
      obtain ⟨old, hold, rfl⟩ := Option.map_eq_some_iff.1 hs
      split
      · rw [hchange]
        exact hdatabase old hold
      · exact hdatabase old hold
    have htransition : ∀ (s : SessionState) next, (s.transition next).database = s.database := by
      intro s next
      unfold SessionState.transition
      split <;> rfl
    cases hchange with
    | places pending => exact ⟨hknown, hdatabase⟩
    | track on remote =>
      refine ⟨Nat.lt_succ_of_lt hknown, fun s hs => hdatabase s ?_⟩
      have hother : id ≠ ⟨g.nextSerial⟩ := by
        rintro rfl
        exact Nat.lt_irrefl _ hknown
      rw [Registry.state?, Registry.track, Table.get?_insert, if_neg hother] at hs
      exact hs
    | use other counter delta => exact hupdate other _ fun s => htransition _ _
    | rest other =>
      refine hupdate other _ fun s => ?_
      unfold SessionState.rest
      split
      · exact htransition _ _
      · rfl
    | note other message => exact hupdate other _ fun _ => rfl
    | beginClosing other => exact hupdate other _ fun s => htransition _ _
    | remove other =>
      refine ⟨hknown, fun s hs => hdatabase s ?_⟩
      rw [Registry.state?, Registry.remove, Table.get?_erase] at hs
      split at hs
      · exact absurd hs (by simp)
      · exact hs

theorem AtOnce.knows {r r' : Relay} {id : SessionId} {database : Option String} (h : AtOnce r r')
    (hr : r.registry.Knows id database) : r'.registry.Knows id database :=
  (registryInvariant_knows id database).atOnce h hr

/-! ## What waits -/

/-- What an operation that waits knows of its databases; sessions were opened on these so far. -/
def Operation.Keeps (n : Naming) (opened : List (Option String)) (g : Registry) : Operation → Prop
  | opening f o => f.database = n.named ∧ o.database = n.target
  | transacting f session run =>
    f.database = n.named ∧ opened ≠ [] ∧ session.database = n.target ∧ g.Knows session.id n.target ∧
      run.transaction.session = session
  | releasing f c _ => f.database = n.named ∧ opened ≠ [] ∧ c.database = n.target

/-- A run over chunks names the same database for each of them. -/
def ChunkRun.Keeps (n : Naming) (config : ExecutorConfig) (opened : List (Option String)) (g : Registry)
    (c : ChunkRun) : Prop :=
  (c.options.database <|> config.database) = n.named ∧ c.current.operation.Keeps n opened g

/-- A call of an executor. -/
def Call.Keeps (n : Naming) (opened : List (Option String)) (g : Registry) : Call → Prop
  | query q => q.operation.Keeps n opened g
  | operating o => o.Keeps n opened g
  | chunking config c => c.Keeps n config opened g
  | _ => False

def Standing.Keeps (n : Naming) (opened : List (Option String)) (g : Registry) : Standing → Prop
  | waiting call _ => call.Keeps n opened g
  | _ => True

/-- One step of something that waits at points of some kind: it reports under what fits, and keeps what it knows. -/
structure Labelled {σ α : Type} (n : Naming) (opened : List (Option String)) (keeps : Registry → σ → Prop) (r : Relay)
    (s : Relay × Progress σ α) : Prop where
  atOnce : AtOnce r s.1
  emits : ∀ label, n.Fits opened label → EmitsUnder label r s.1
  keeps : ∀ p, s.2 = .waiting p → keeps s.1.registry p

namespace Labelled

variable {σ τ α β : Type} {n : Naming} {opened : List (Option String)} {keeps : Registry → σ → Prop} {r r' : Relay}
  {s : Relay × Progress σ α}

/-- What went before reported under what fits, too. -/
theorem after (h : Labelled n opened keeps r' s) (hatOnce : AtOnce r r')
    (hemits : ∀ label, n.Fits opened label → EmitsUnder label r r') : Labelled n opened keeps r s :=
  ⟨hatOnce.trans h.atOnce, fun label hfits => (hemits label hfits).trans (h.emits label hfits), h.keeps⟩

/-- A step seen as one of another kind. -/
theorem map {keeps' : Registry → τ → Prop} (h : Labelled n opened keeps r s) (point : σ → τ) (result : α → β)
    (hpoint : ∀ g p, keeps g p → keeps' g (point p)) : Labelled n opened keeps' r (s.1, s.2.map point result) := by
  refine ⟨h.atOnce, h.emits, fun q hq => ?_⟩
  obtain ⟨r', p⟩ := s
  cases p with
  | waiting p =>
    cases hq
    exact hpoint _ p (h.keeps p rfl)
  | finished a => exact absurd hq (by simp [Progress.map])

end Labelled

/-! ## One step of an operation -/

theorem Opening.start_database {r r' : Relay} {database : Option String} {options : Option SessionOptions} {o : Opening}
    (h : start r database options = (r', .waiting o)) :
    o.database = (database <|> r.settings.connection.database) := by
  rcases start_cases r database options with ⟨r', failure, hover, -⟩ | ⟨r', o', hwaits, hdatabase, -⟩
  · exact absurd (h.symm.trans hover) (by simp)
  · cases h.symm.trans hwaits
    exact hdatabase

/-- Whoever gets no further than that has no session. -/
theorem Opening.start_error {r r' : Relay} {database : Option String} {options : Option SessionOptions}
    {outcome : Except Failure SessionHandle} (h : start r database options = (r', .finished outcome)) :
    ∃ e, outcome = .error e := by
  rcases start_cases r database options with ⟨r', failure, hover, -⟩ | ⟨r', o, hwaits, -⟩
  · cases h.symm.trans hover
    exact ⟨failure, rfl⟩
  · exact absurd (h.symm.trans hwaits) (by simp)

/-- A closing that begins is one under the database of its session. -/
theorem Closing.start_database {r r' : Relay} {id : SessionId} {c : Closing} {database : Option String}
    (h : start r id = (r', .waiting c)) (hknows : r.registry.Knows id database) : c.database = database := by
  unfold start at h
  split at h
  · exact absurd h (by simp)
  · rename_i t ht
    dsimp only at h
    split at h
    · exact absurd h (by simp)
    · cases h
      exact hknows.2 t.state (by rw [Registry.state?, ht]; rfl)

/-- A run that begins is one on its session. -/
theorem TransactionRun.session_of_start {r r' : Relay} {session : SessionHandle} {statements : List Statement}
    {substrings : Option (List String)} {run : TransactionRun}
    (h : start r session statements substrings = (r', .waiting run)) : run.transaction.session = session := by
  by_cases htracked : r.registry.isTracked session.id = true
  · have hrun := (congrArg Prod.snd h).symm
    rw [start_of_isTracked htracked, attempt_snd] at hrun
    split at hrun
    · cases hrun
      rfl
    · exact absurd hrun (by simp)
  · unfold start at h
    rw [if_neg htracked] at h
    exact absurd h (by simp)

namespace Operation

variable {n : Naming} {opened : List (Option String)} {f : OperationFrame}

/-- **The end of an operation**, under the database that was named. -/
theorem finish_labelled (hf : f.database = n.named) (outcome : TransactionRun.Outcome) (r : Relay) :
    Labelled n opened (Operation.Keeps n opened) r (finish f outcome r) where
  atOnce := (Quietly.same (finish_quietSide f outcome r)).toAtOnce
  emits := fun _ hfits => finish_emits (hf ▸ hfits.operation.symm) outcome r
  keeps := fun p hp => by cases outcome <;> exact absurd hp (by simp [finish])

theorem release_labelled (hf : f.database = n.named) (hopened : opened ≠ []) {session : SessionHandle} {r : Relay}
    (hknows : r.registry.Knows session.id n.target) (outcome : TransactionRun.Outcome) :
    Labelled n opened (Operation.Keeps n opened) r (release f session outcome r) := by
  have hmarked := (r.markIdle_quietly session).toAtOnce
  have hstarted := (Closing.start_quietly (r.markIdle session).1 session.id).toAtOnce
  have hemits : ∀ label, n.Fits opened label → EmitsUnder label r (Closing.start (r.markIdle session).1 session.id).1 :=
    fun label _ => .trans (.of_log (r.log_markIdle session)) (Closing.start_emits _ session.id)
  unfold release
  split
  · rename_i r' c hstart
    rw [hstart] at hstarted hemits
    refine ⟨hmarked.trans hstarted, hemits, fun p hp => ?_⟩
    cases hp
    exact ⟨hf, hopened, Closing.start_database hstart (hmarked.knows hknows)⟩
  · rename_i r' closed hstart
    rw [hstart] at hstarted hemits
    exact (finish_labelled hf outcome r').after (hmarked.trans hstarted) hemits

/-- An operation whose run has come so far. -/
theorem ofRun_labelled (hf : f.database = n.named) (hopened : opened ≠ []) {session : SessionHandle}
    (hsession : session.database = n.target) {r : Relay} (hknows : r.registry.Knows session.id n.target)
    {s : Relay × Progress TransactionRun TransactionRun.Outcome} (hatOnce : AtOnce r s.1)
    (hemits : ∀ label, n.Fits opened label → EmitsUnder label r s.1)
    (hrun : ∀ run, s.2 = .waiting run → run.transaction.session = session) :
    Labelled n opened (Operation.Keeps n opened) r (ofRun f session s) := by
  obtain ⟨r', p⟩ := s
  cases p with
  | waiting run =>
    refine ⟨hatOnce, hemits, fun p hp => ?_⟩
    cases hp
    exact ⟨hf, hopened, hsession, hatOnce.knows hknows, hrun run rfl⟩
  | finished outcome => exact (release_labelled hf hopened (hatOnce.knows hknows) outcome).after hatOnce hemits

/-- An operation that has its session goes on with its transaction. -/
theorem ofOpening_labelled (hf : f.database = n.named) (hopened : opened ≠ []) {session : SessionHandle}
    (hsession : session.database = n.target) {r : Relay} (hknows : r.registry.Knows session.id n.target) :
    Labelled n opened (Operation.Keeps n opened) r (ofOpening f (r, .ok session)) :=
  ofRun_labelled hf hopened hsession hknows
    (Quietly.same (TransactionRun.start_quietSide r session f.statements f.substrings)).toAtOnce
    (fun _ _ => TransactionRun.start_emits r session f.statements f.substrings)
    (fun _ hwaits => TransactionRun.session_of_start (Prod.ext rfl hwaits))

/-- **The beginning of an operation.** -/
theorem start_labelled {r : Relay} {configured : Option String} {options : OperationOptions}
    (hnamed : (options.database <|> configured) = n.named) (hhome : r.settings.connection.database = n.home)
    (kind : OperationKind) (statements : List Statement) :
    Labelled n opened (Operation.Keeps n opened) r (start r kind configured statements options) := by
  have hstarted := (Opening.start_quietly r (options.database <|> configured) options.session).toAtOnce
  have hemits : ∀ label, EmitsUnder label r (Opening.start r (options.database <|> configured) options.session).1 :=
    fun label => Opening.start_emits r _ options.session
  simp only [start]
  split
  · rename_i r' o hstart
    rw [hstart] at hstarted hemits
    refine ⟨hstarted, fun label _ => hemits label, fun p hp => ?_⟩
    cases hp
    refine ⟨hnamed, (Opening.start_database hstart).trans ?_⟩
    rw [hnamed, hhome]
    rfl
  · rename_i r' outcome hstart
    rw [hstart] at hstarted hemits
    obtain ⟨e, rfl⟩ := Opening.start_error hstart
    exact (finish_labelled hnamed (.error e) r').after hstarted fun label _ => hemits label

/-- **An operation that goes on**: what it is told may be that a session was opened. -/
theorem resume_labelled (p : Operation) (answers : Answers) {r : Relay} (hkeeps : p.Keeps n opened r.registry) :
    Labelled n (opened ++ (Heard.openedOn? ⟨p.wait, answers p.wait⟩).toList)
      (Operation.Keeps n (opened ++ (Heard.openedOn? ⟨p.wait, answers p.wait⟩).toList)) r
      (p.resume (answers p.wait) r) := by
  cases p with
  | opening f o =>
    obtain ⟨hf, ho⟩ := hkeeps
    have hatOnce := (o.resume_quietly (answers o.wait) r).toAtOnce
    simp only [resume, wait]
    cases answers o.wait with
    | ok remote =>
      -- The session is new: its number is the next one, and nothing else is known under it.
      have hopened : opened ++ [o.database] ≠ [] := by simp
      have hemits : ∀ label, n.Fits (opened ++ [o.database]) label → EmitsUnder label r (o.resume (.ok remote) r).1 :=
        fun label hfits => Opening.resume_emits (ho ▸ (hfits.session hopened).symm) _ r
      have hatOnce := (o.resume_quietly (.ok remote) r).toAtOnce
      rw [Opening.resume_ok] at hatOnce hemits ⊢
      refine (ofOpening_labelled hf hopened ho ⟨Nat.lt_succ_self _, fun s hs => ?_⟩).after hatOnce hemits
      rw [Registry.state?, Registry.track, Table.get?_insert, if_pos rfl] at hs
      cases hs
      exact ho
    | error failure =>
      have hemits : ∀ label, EmitsUnder label r (o.resume (.error failure) r).1 := fun label =>
        o.resume_error_emits failure r
      have hatOnce := (o.resume_quietly (.error failure) r).toAtOnce
      rw [Opening.resume_error] at hatOnce hemits ⊢
      exact (finish_labelled hf (.error failure) _).after hatOnce fun label _ => hemits label
  | transacting f session run =>
    obtain ⟨hf, hopened, hsession, hknows, hrun⟩ := hkeeps
    have hnothing : Heard.openedOn? ⟨run.wait, answers run.wait⟩ = none := by
      cases run <;> rfl
    rw [hnothing, Option.toList_none, List.append_nil]
    refine ofRun_labelled hf hopened hsession hknows (TransactionRun.resume_quietly r run _).toAtOnce
      (fun label hfits => ?_)
      fun later hlater => (TransactionRun.transaction_of_resume hlater).symm ▸ hrun
    refine TransactionRun.resume_emits ?_ _ r
    rw [hrun, SessionHandle.label, hsession, hfits.session hopened]
  | releasing f c outcome =>
    obtain ⟨hf, hopened, hc⟩ := hkeeps
    rw [show Heard.openedOn? ⟨c.wait, answers c.wait⟩ = none from rfl, Option.toList_none, List.append_nil]
    refine (finish_labelled hf outcome _).after (c.resume_quietly _ r).toAtOnce fun label hfits => ?_
    exact Closing.resume_emits (hc ▸ (hfits.session hopened).symm) _ r

end Operation

/-! ## Queries and chunks -/

section

variable {n : Naming} {opened : List (Option String)}

/-- What a query keeps is what its operation keeps. -/
theorem Query.ofOperation_labelled (statement : Statement) {r : Relay}
    {s : Relay × Progress Operation TransactionRun.Outcome} (h : Labelled n opened (Operation.Keeps n opened) r s) :
    Labelled n opened (fun g q => Operation.Keeps n opened g q.operation) r (Query.ofOperation statement s) :=
  h.map (Query.mk statement) (lastResult statement) fun _ _ hkeeps => hkeeps

namespace ChunkRun

variable {config : ExecutorConfig} {options : OperationOptions}

/-- The chunks that remain are run under the same databases. -/
theorem proceed_labelled (hnamed : (options.database <|> config.database) = n.named) (text : String) {r : Relay}
    (hhome : r.settings.connection.database = n.home) (results : List QueryResult) (chunks : List (List Json)) :
    Labelled n opened (ChunkRun.Keeps n config opened) r (proceed config text options r results chunks) := by
  induction chunks generalizing r results with
  | nil => exact ⟨.refl r, fun _ _ => .refl r, fun p hp => absurd hp (by simp [proceed])⟩
  | cons chunk rest ih =>
    have hquery : Labelled n opened _ r _ := Query.ofOperation_labelled (statement text chunk)
      (Operation.start_labelled hnamed hhome .query [statement text chunk])
    unfold proceed
    rw [← Query.start] at hquery
    generalize Query.start r config (statement text chunk) options = s at hquery
    obtain ⟨r', p⟩ := s
    cases p with
    | waiting q =>
      refine ⟨hquery.atOnce, hquery.emits, fun p hp => ?_⟩
      cases hp
      exact ⟨hnamed, hquery.keeps q rfl⟩
    | finished outcome =>
      cases outcome with
      | ok result =>
        exact (ih (hquery.atOnce.settings ▸ hhome) (results ++ [result])).after hquery.atOnce hquery.emits
      | error e => exact ⟨hquery.atOnce, hquery.emits, fun p hp => absurd hp (by simp)⟩

theorem start_labelled (hnamed : (options.database <|> config.database) = n.named) (text : String)
    (items : List Json) (size : Option Nat) {r : Relay} (hhome : r.settings.connection.database = n.home) :
    Labelled n opened (ChunkRun.Keeps n config opened) r (start r config text items size options) := by
  unfold start
  dsimp only
  split
  · exact ⟨.refl r, fun _ _ => .refl r, fun p hp => absurd hp (by simp)⟩
  · exact proceed_labelled hnamed text hhome [] _

theorem resume_labelled (c : ChunkRun) (answers : Answers) {r : Relay}
    (hhome : r.settings.connection.database = n.home) (hkeeps : c.Keeps n config opened r.registry) :
    Labelled n (opened ++ (Heard.openedOn? ⟨c.wait, answers c.wait⟩).toList)
      (ChunkRun.Keeps n config (opened ++ (Heard.openedOn? ⟨c.wait, answers c.wait⟩).toList)) r
      (c.resume config (answers c.wait) r) := by
  obtain ⟨hnamed, hcurrent⟩ := hkeeps
  have hquery := Query.ofOperation_labelled c.current.statement (c.current.operation.resume_labelled answers hcurrent)
  rw [← Query.resume] at hquery
  unfold resume
  generalize c.current.resume (answers c.wait) r = s at hquery
  obtain ⟨r', p⟩ := s
  cases p with
  | waiting q =>
    refine ⟨hquery.atOnce, hquery.emits, fun p hp => ?_⟩
    cases hp
    exact ⟨hnamed, hquery.keeps q rfl⟩
  | finished outcome =>
    cases outcome with
    | ok result =>
      exact (proceed_labelled hnamed c.text (hquery.atOnce.settings ▸ hhome) _ c.rest).after hquery.atOnce hquery.emits
    | error e => exact ⟨hquery.atOnce, hquery.emits, fun p hp => absurd hp (by simp)⟩

end ChunkRun

/-! ## Calls of an executor -/

/-- The database that a demand on an executor names, by itself or by the configuration. -/
def Demand.named? : Demand → Option (Option String)
  | query config _ options => some (options.database <|> config.database)
  | job config work => some (work.options.database <|> config.database)
  | operate config _ options => some (options.database <|> config.database)
  | chunks config _ _ _ options => some (options.database <|> config.database)
  | _ => none

/-- **The beginning of a call of an executor.** -/
theorem Demand.start_labelled {d : Demand} (hd : d.named? = some n.named) {r : Relay}
    (hhome : r.settings.connection.database = n.home) :
    Labelled n opened (Call.Keeps n opened) r (d.start r) := by
  cases d with
  | query config statement options =>
    exact (Query.ofOperation_labelled statement (Operation.start_labelled (Option.some.inj hd) hhome .query
      [statement])).map Call.query CallResult.result fun _ _ hkeeps => hkeeps
  | job config work =>
    rw [start_job]
    exact (Query.ofOperation_labelled (work.statement config) (Operation.start_labelled (Option.some.inj hd) hhome
      .query [work.statement config])).map Call.query CallResult.result fun _ _ hkeeps => hkeeps
  | operate config statements options =>
    exact (Operation.start_labelled (Option.some.inj hd) hhome .transaction statements).map Call.operating
      CallResult.results fun _ _ hkeeps => hkeeps
  | chunks config text items size options =>
    exact (ChunkRun.start_labelled (Option.some.inj hd) text items size hhome).map (Call.chunking config)
      CallResult.results fun _ _ hkeeps => hkeeps
  | _ => exact absurd hd (by simp [named?])

/-- **A call of an executor that goes on.** -/
theorem Call.resume_labelled (c : Call) (answers : Answers) {r : Relay}
    (hhome : r.settings.connection.database = n.home) (hkeeps : c.Keeps n opened r.registry) :
    Labelled n (opened ++ (Heard.openedOn? ⟨c.wait, answers c.wait⟩).toList)
      (Call.Keeps n (opened ++ (Heard.openedOn? ⟨c.wait, answers c.wait⟩).toList)) r
      (c.resume (answers c.wait) r) := by
  cases c with
  | query q =>
    exact (Query.ofOperation_labelled q.statement (q.operation.resume_labelled answers hkeeps)).map Call.query
      CallResult.result fun _ _ hkeeps => hkeeps
  | operating o =>
    exact (o.resume_labelled answers hkeeps).map Call.operating CallResult.results fun _ _ hkeeps => hkeeps
  | chunking config c =>
    exact (c.resume_labelled answers hhome hkeeps).map (Call.chunking config) CallResult.results
      fun _ _ hkeeps => hkeeps
  | _ => exact hkeeps.elim

/-- Whoever keeps its databases is told of a session only on the one that is meant. -/
theorem Call.openedOn?_of_keeps {c : Call} {g : Registry} (hkeeps : c.Keeps n opened g) {answers : Answers}
    {database : Option String} (h : Heard.openedOn? ⟨c.wait, answers c.wait⟩ = some database) :
    database = n.target := by
  have hoperation : ∀ o : Operation, o.Keeps n opened g →
      Heard.openedOn? ⟨o.wait, answers o.wait⟩ = some database → database = n.target := by
    intro o ho hheard
    cases o with
    | opening f o =>
      simp only [Operation.wait] at hheard
      cases hreply : answers o.wait with
      | ok remote =>
        rw [hreply] at hheard
        cases hheard
        exact ho.2
      | error failure =>
        rw [hreply] at hheard
        exact absurd hheard (by simp [Heard.openedOn?])
    | transacting f session run => cases run <;> exact absurd hheard (by simp [Heard.openedOn?])
    | releasing f c outcome => exact absurd hheard (by simp [Heard.openedOn?])
  cases c with
  | query q => exact hoperation q.operation hkeeps h
  | operating o => exact hoperation o hkeeps h
  | chunking config c => exact hoperation c.current.operation hkeeps.2 h
  | _ => exact hkeeps.elim

theorem Standing.keeps_after {r : Relay} {s : Relay × CallProgress} (h : Labelled n opened (Call.Keeps n opened) r s) :
    (Standing.after s).Keeps n opened s.1.registry := by
  obtain ⟨r', p⟩ := s
  cases p with
  | waiting call => exact h.keeps call rfl
  | finished result => trivial

end

/-! ## The run of a call -/

/-- What is known of a session is not changed by whatever happens. -/
theorem Exchange.knows_apply {x y : Exchange} {m : Move} {id : SessionId} {database : Option String}
    (h : x.apply m = some y) (hx : x.relay.registry.Knows id database) : y.relay.registry.Knows id database :=
  (registryInvariant_knows id database).invariant.apply h hx

/-- What a call that waits keeps is kept by whatever others do. -/
theorem Standing.Keeps.of_apply {n : Naming} {opened : List (Option String)} {x y : Exchange} {m : Move} {s : Standing}
    (hkeeps : s.Keeps n opened x.relay.registry) (h : x.apply m = some y) : s.Keeps n opened y.relay.registry := by
  have hoperation : ∀ o : Operation, o.Keeps n opened x.relay.registry → o.Keeps n opened y.relay.registry := by
    intro o ho
    cases o with
    | transacting f session run =>
      obtain ⟨hf, hopened, hsession, hknows, hrun⟩ := ho
      exact ⟨hf, hopened, hsession, Exchange.knows_apply h hknows, hrun⟩
    | _ => exact ho
  cases s with
  | waiting call since =>
    cases call with
    | query q => exact hoperation q.operation hkeeps
    | operating o => exact hoperation o hkeeps
    | chunking config c => exact ⟨hkeeps.1, hoperation c.current.operation hkeeps.2⟩
    | _ => exact hkeeps.elim
  | _ => exact hkeeps

namespace Exchange

/-- What a call emits in some moves, before a monitoring section adds labels. -/
def emittedBy (x : Exchange) (i : Nat) (moves : List Move) : List Emission := emissionsOf (x.writtenBy i moves)

/-- The databases on which a call was told that sessions were opened. -/
def openedBy (x : Exchange) (i : Nat) (moves : List Move) : List (Option String) :=
  (x.heardBy i moves).filterMap Heard.openedOn?

section

variable {x y z : Exchange} {i : Nat} {moves : List Move} {m : Move}

theorem openedBy_own (hrun : x.run moves = some y) (hlast : y.apply m = some z) (hmover : y.mover? m = some i)
    {told : List Heard} (hheard : z.heard = y.heard ++ told) :
    x.openedBy i (moves ++ [m]) = x.openedBy i moves ++ told.filterMap Heard.openedOn? := by
  rw [openedBy, heardBy_concat hrun hlast, if_pos hmover, hheard, List.drop_left, List.filterMap_append, ← openedBy]

/-- A move in which the call hears nothing. -/
theorem openedBy_unheard (hrun : x.run moves = some y) (hlast : y.apply m = some z) (hheard : z.heard = y.heard) :
    x.openedBy i (moves ++ [m]) = x.openedBy i moves := by
  rw [openedBy, heardBy_concat hrun hlast, hheard, List.drop_length, ite_self, List.append_nil, ← openedBy]

theorem openedBy_others (hrun : x.run moves = some y) (hlast : y.apply m = some z) (hmover : y.mover? m ≠ some i) :
    x.openedBy i (moves ++ [m]) = x.openedBy i moves := by
  rw [openedBy, heardBy_concat hrun hlast, if_neg hmover, List.append_nil, ← openedBy]

theorem emittedBy_others (hrun : x.run moves = some y) (hlast : y.apply m = some z) (hmover : y.mover? m ≠ some i) :
    x.emittedBy i (moves ++ [m]) = x.emittedBy i moves := by
  rw [emittedBy, writtenBy_concat hrun hlast, if_neg hmover, List.append_nil, ← emittedBy]

/-- What a call emits in one more move of its own is under what that move emits under. -/
theorem isUnder_emittedBy_own (hrun : x.run moves = some y) (hlast : y.apply m = some z)
    (hmover : y.mover? m = some i) {label : Reporter → String}
    (hbefore : ∀ e ∈ x.emittedBy i moves, ∃ m, e.IsUnder label m) (hemits : EmitsUnder label y.relay z.relay) :
    ∀ e ∈ x.emittedBy i (moves ++ [m]), ∃ m, e.IsUnder label m := by
  obtain ⟨written, hlog, hwritten⟩ := hemits
  intro e he
  rw [emittedBy, writtenBy_concat hrun hlast, if_pos hmover, hlog, List.drop_left, emissionsOf,
    List.filterMap_append] at he
  exact (List.mem_append.1 he).elim (hbefore e) (hwritten e)

end

/-- A call, since it began: where it waits it keeps its databases, and what it emitted fits them. -/
structure Labels (n : Naming) (x : Exchange) (i : Nat) (moves : List Move) (y : Exchange) : Prop where
  home : y.relay.settings.connection.database = n.home
  standing : ∃ s, y.calls[i]? = some s ∧ s.Keeps n (x.openedBy i moves) y.relay.registry
  opened : ∀ database ∈ x.openedBy i moves, database = n.target
  emitted : ∀ label, n.Fits (x.openedBy i moves) label → ∀ e ∈ x.emittedBy i moves, ∃ m, e.IsUnder label m

namespace Labels

variable {n : Naming} {x y z : Exchange} {i : Nat} {moves : List Move} {m : Move}

/-- The settings stay, and with them the database of the connection. -/
theorem home_of_apply (hhome : y.relay.settings.connection.database = n.home) (h : y.apply m = some z) :
    z.relay.settings.connection.database = n.home := by
  have hnothing : y.run [] = some y := rfl
  rw [settings_run (run_snoc hnothing h)]
  exact hhome

/-- **The beginning of the call.** -/
theorem begin {d : Demand} (hd : d.named? = some n.named) (hhome : x.relay.settings.connection.database = n.home)
    (h : x.apply (.start d) = some z) : Labels n x x.calls.length [.start d] z := by
  have hlabelled : Labelled n [] (Call.Keeps n []) x.relay (d.start x.relay) := d.start_labelled hd hhome
  have hnothing : x.run [] = some x := rfl
  have hmover : x.mover? (.start d) = some x.calls.length := rfl
  have hhome' := home_of_apply hhome h
  have hz := (Option.some.inj h).symm
  have hopened : x.openedBy x.calls.length [.start d] = [] :=
    openedBy_unheard hnothing h (by rw [hz])
  refine ⟨hhome', ⟨.after (d.start x.relay), ?_, ?_⟩, ?_, fun label hfits => ?_⟩
  · rw [hz]
    exact List.getElem?_concat_length
  · rw [hopened, hz]
    exact Standing.keeps_after hlabelled
  · rw [hopened]
    exact fun _ hmem => absurd hmem List.not_mem_nil
  · rw [hopened] at hfits
    refine isUnder_emittedBy_own hnothing h hmover (fun _ hmem => absurd hmem List.not_mem_nil) ?_
    rw [hz]
    exact hlabelled.emits label hfits

/-- **A move of the call itself.** -/
theorem own (hlabels : Labels n x i moves y) (hrun : x.run moves = some y) (hlast : y.apply m = some z)
    (hmover : y.mover? m = some i) : Labels n x i (moves ++ [m]) z := by
  obtain ⟨hhome, ⟨s, hs, hkeeps⟩, hopened, hemitted⟩ := hlabels
  have hhome' := home_of_apply hhome hlast
  have hi := (List.getElem?_eq_some_iff.1 hs).1
  obtain ⟨call, since, rfl, ⟨answers, rfl, hz⟩ | ⟨rfl, hz⟩⟩ := mover_cases hlast hmover hs
  · have hlabelled := call.resume_labelled answers hhome hkeeps
    have hmore := openedBy_own hrun hlast hmover (show z.heard = y.heard ++ [⟨call.wait, answers call.wait⟩] by rw [hz])
    have hsingle : [(⟨call.wait, answers call.wait⟩ : Heard)].filterMap Heard.openedOn? =
        (Heard.openedOn? ⟨call.wait, answers call.wait⟩).toList := by
      cases hheard : Heard.openedOn? ⟨call.wait, answers call.wait⟩ <;> simp [hheard]
    rw [hsingle] at hmore
    rw [← hmore] at hlabelled
    refine ⟨hhome', ⟨.after (call.resume (answers call.wait) y.relay), ?_, ?_⟩, ?_, fun label hfits => ?_⟩
    · rw [hz]
      exact List.getElem?_set_self hi
    · rw [hz]
      exact Standing.keeps_after hlabelled
    · intro database hmem
      rw [hmore] at hmem
      rcases List.mem_append.1 hmem with hold | hnew
      · exact hopened database hold
      · exact Call.openedOn?_of_keeps hkeeps (Option.mem_toList.1 hnew)
    · have hbefore : n.Fits (x.openedBy i moves) label :=
        ⟨hfits.operation, fun hne => hfits.session (by rw [hmore]; exact List.append_ne_nil_of_left_ne_nil hne _)⟩
      refine isUnder_emittedBy_own hrun hlast hmover (hemitted label hbefore) ?_
      rw [hz]
      exact hlabelled.emits label hfits
  · have hmore : x.openedBy i (moves ++ [.drop i]) = x.openedBy i moves := openedBy_unheard hrun hlast (by rw [hz])
    refine ⟨hhome', ⟨.dropped, ?_, trivial⟩, hmore ▸ hopened, fun label hfits => ?_⟩
    · rw [hz]
      exact List.getElem?_set_self hi
    · refine isUnder_emittedBy_own hrun hlast hmover (hemitted label (hmore ▸ hfits)) ?_
      rw [hz, call.drop_eq]
      exact call.errand.drop_emits label y.relay

/-- **A move of another call.** -/
theorem others (hlabels : Labels n x i moves y) (hrun : x.run moves = some y) (hlast : y.apply m = some z)
    (hmover : y.mover? m ≠ some i) : Labels n x i (moves ++ [m]) z := by
  obtain ⟨hhome, ⟨s, hs, hkeeps⟩, hopened, hemitted⟩ := hlabels
  have hmore := openedBy_others hrun hlast hmover
  refine ⟨home_of_apply hhome hlast, ⟨s, (calls_of_not_mover hlast hmover).trans hs, ?_⟩, hmore ▸ hopened, ?_⟩
  · rw [hmore]
    exact hkeeps.of_apply hlast
  · rw [hmore, emittedBy_others hrun hlast hmover]
    exact hemitted

/-- **The induction over runs.** -/
theorem of_run {d : Demand} {later : List Move} (hd : d.named? = some n.named)
    (hhome : x.relay.settings.connection.database = n.home) (hy : x.run (.start d :: later) = some y) :
    Labels n x x.calls.length (.start d :: later) y := by
  induction hy using run_cons_induct with
  | head hbegin => exact begin hd hhome hbegin
  | @snoc later m y z hrun hlast ih =>
    by_cases hmover : y.mover? m = some x.calls.length
    · exact own ih hrun hlast hmover
    · exact others ih hrun hlast hmover

end Labels

/-! ## Agreement -/

/-- All that a call emitted with a database carries the same one, and the sessions that were opened for it are on it. -/
def AgreesOnDatabase (x : Exchange) (i : Nat) (moves : List Move) : Prop :=
  ∃ value, (∀ e ∈ x.emittedBy i moves, ∀ v, ("database", v) ∈ e.labels → v = value) ∧
    ∀ database ∈ x.openedBy i moves, databaseLabel database = value

/-- A call has told how an operation ended: how long it took, or that it failed. -/
def HasTold (x : Exchange) (i : Nat) (moves : List Move) : Prop :=
  ∃ e ∈ x.emittedBy i moves, ∃ m : Metric, m.reporter = .operation ∧ e.name = m.name

end Exchange

/-- What an operation reports carries a database. -/
theorem Metric.database_mem_labels {m : Metric} (h : m.reporter = .operation) : "database" ∈ m.definition.labels := by
  cases m with
  | queryExecutionTime | failedQueries => decide
  | _ => exact absurd h (by simp [reporter])

namespace Exchange.Labels

variable {n : Naming} {x y : Exchange} {i : Nat} {moves : List Move}

/-- What was told of the end of an operation is under the database that was named. -/
theorem value_of_hasTold (h : Labels n x i moves y) (htold : x.HasTold i moves) {value : String}
    (hvalue : ∀ e ∈ x.emittedBy i moves, ∀ v, ("database", v) ∈ e.labels → v = value) :
    value = databaseLabel n.named := by
  obtain ⟨e, he, m, hm, hname⟩ := htold
  have hfits : n.Fits (x.openedBy i moves) fun
      | .operation => databaseLabel n.named
      | _ => databaseLabel n.target := ⟨rfl, fun _ => rfl⟩
  obtain ⟨m', hunder⟩ := h.emitted _ hfits e he
  obtain rfl : m' = m := Metric.name_injective (hunder.name.symm.trans hname)
  have hmem : "database" ∈ e.labels.map Prod.fst := hunder.labels ▸ Metric.database_mem_labels hm
  obtain ⟨⟨_, v⟩, hv, rfl⟩ := List.mem_map.1 hmem
  rw [← hvalue e he v hv, hunder.database v hv, hm]

/-- Where the labels cannot differ, or only one of the reporters has spoken, they agree. -/
theorem agrees (h : Labels n x i moves y)
    (hfree : x.openedBy i moves = [] ∨ ¬x.HasTold i moves ∨ databaseLabel n.named = databaseLabel n.target) :
    x.AgreesOnDatabase i moves := by
  have hopened : ∀ database ∈ x.openedBy i moves, databaseLabel database = databaseLabel n.target :=
    fun database hmem => congrArg databaseLabel (h.opened database hmem)
  rcases hfree with hnone | hsilent | hsame
  · -- Without a session nothing is reported but by the operation.
    have hfits : n.Fits (x.openedBy i moves) fun _ => databaseLabel n.named := ⟨rfl, fun hne => absurd hnone hne⟩
    refine ⟨databaseLabel n.named, fun e he v hv => ?_, fun _ hmem => absurd (hnone ▸ hmem) List.not_mem_nil⟩
    obtain ⟨m, hunder⟩ := h.emitted _ hfits e he
    exact hunder.database v hv
  · have hfits : n.Fits (x.openedBy i moves) fun
        | .operation => databaseLabel n.named
        | _ => databaseLabel n.target := ⟨rfl, fun _ => rfl⟩
    refine ⟨databaseLabel n.target, fun e he v hv => ?_, hopened⟩
    obtain ⟨m, hunder⟩ := h.emitted _ hfits e he
    cases hreporter : m.reporter with
    | operation => exact absurd ⟨e, he, m, hreporter, hunder.name⟩ hsilent
    | _ =>
      rw [hunder.database v hv, hreporter]
  · have hfits : n.Fits (x.openedBy i moves) fun _ => databaseLabel n.named := ⟨rfl, fun _ => hsame⟩
    refine ⟨databaseLabel n.target, fun e he v hv => ?_, hopened⟩
    obtain ⟨m, hunder⟩ := h.emitted _ hfits e he
    exact (hunder.database v hv).trans hsame

end Exchange.Labels

/-- **When the database labels of an operation agree.**  Take any call of an executor — a query, an operation or a run
over chunks — in any run, and all that it has emitted so far.  Its sessions are opened on the database that the caller
or the configuration names, and else on that of the connection.  What it emitted carries one database, that of its
sessions, unless a session was opened on a database of the connection that nobody named and that is not called
`default`, and an operation has told how it ended: then it has told that under `default`. -/
theorem operation_labels_agree_iff {settings : Settings} {factory : ClientFactory} {moves later : List Move}
    {x y : Exchange} {d : Demand} {named : Option String}
    (h : (Exchange.new settings factory).run moves = some x) (hd : d.named? = some named)
    (hy : x.run (.start d :: later) = some y) :
    (∀ database ∈ x.openedBy x.calls.length (.start d :: later),
        database = (named <|> settings.connection.database)) ∧
      (x.AgreesOnDatabase x.calls.length (.start d :: later) ↔
        ¬((Naming.mk named settings.connection.database).IsUntold ∧
          x.openedBy x.calls.length (.start d :: later) ≠ [] ∧ x.HasTold x.calls.length (.start d :: later))) := by
  have hhome : x.relay.settings.connection.database = settings.connection.database := by
    rw [Exchange.settings_run h]
    rfl
  have hlabels : Exchange.Labels ⟨named, settings.connection.database⟩ x x.calls.length (.start d :: later) y :=
    .of_run hd hhome hy
  refine ⟨hlabels.opened, ?_, fun hnot => hlabels.agrees ?_⟩
  · rintro ⟨value, hemitted, hopened⟩ ⟨huntold, hsessions, htold⟩
    obtain ⟨database, hmem⟩ := List.exists_mem_of_ne_nil _ hsessions
    refine Naming.isUntold_iff.1 huntold ?_
    rw [← hlabels.value_of_hasTold htold hemitted, ← hopened database hmem, hlabels.opened database hmem]
  · rw [Naming.isUntold_iff] at hnot
    by_cases hsessions : x.openedBy x.calls.length (.start d :: later) = []
    · exact .inl hsessions
    · by_cases htold : x.HasTold x.calls.length (.start d :: later)
      · exact .inr (.inr (not_not.1 fun hne => hnot ⟨hne, hsessions, htold⟩))
      · exact .inr (.inl htold)

/-- Connections to a database of their own. -/
def toMovies : Settings := .ofExecutor { database := some "movies" } {}

/-- A query that names no database, by an executor that names none, and to which the engine grants everything. -/
def unnamedQuery : List Move :=
  [.start (.query {} (.plain "RETURN 1" []) {}), .resume 0 (.granting 7), .resume 0 (.granting 7),
    .resume 0 (.granting 7), .resume 0 (.granting 7), .resume 0 (.granting 7)]

/-- Its session reports under the database of the connection, and the query itself under another name. -/
theorem unnamedQuery_emits :
    (∃ y, (Exchange.new toMovies {}).run unnamedQuery = some y) ∧
      (∃ e ∈ (Exchange.new toMovies {}).emittedBy 0 unnamedQuery, ("database", "movies") ∈ e.labels) ∧
      ∃ e ∈ (Exchange.new toMovies {}).emittedBy 0 unnamedQuery,
        ("database", "default") ∈ e.labels ∧ e.name = Metric.queryExecutionTime.name := by
  have hruns : ((Exchange.new toMovies {}).run unnamedQuery).isSome = true := by decide +kernel
  have hemits :
      ((Exchange.new toMovies {}).emittedBy 0 unnamedQuery).any
            (fun e => decide (("database", "movies") ∈ e.labels)) = true ∧
        ((Exchange.new toMovies {}).emittedBy 0 unnamedQuery).any
            (fun e => decide (("database", "default") ∈ e.labels ∧ e.name = Metric.queryExecutionTime.name)) =
          true := by
    decide +kernel
  refine ⟨Option.isSome_iff_exists.1 hruns, ?_, ?_⟩
  · simpa only [List.any_eq_true, decide_eq_true_eq] using hemits.1
  · simpa only [List.any_eq_true, decide_eq_true_eq] using hemits.2

/-- So it cannot be said of all operations that their labels agree. -/
theorem operation_labels_differ :
    ¬ ∀ (connection : ConnectionSettings) (config : ExecutorConfig) (factory : ClientFactory) (statement : Statement)
      (options : OperationOptions) (later : List Move) (y : Exchange),
      (Exchange.new (.ofExecutor connection config) factory).run (.start (.query config statement options) :: later) =
        some y →
      (Exchange.new (.ofExecutor connection config) factory).AgreesOnDatabase 0
        (.start (.query config statement options) :: later) := by
  intro hagrees
  obtain ⟨⟨y, hy⟩, ⟨e, he, hmovies⟩, e', he', hdefault, -⟩ := unnamedQuery_emits
  obtain ⟨value, hvalue, -⟩ := hagrees _ _ _ _ _ _ y hy
  have hsame : "movies" = "default" := (hvalue e he _ hmovies).trans (hvalue e' he' _ hdefault).symm
  exact absurd hsame (by decide)

/-- The session was opened on the database of the connection, which nobody named, and the query has told how it ended:
the labels do not agree. -/
theorem operation_labels_agree_iff_of_unnamed :
    ∃ y, (Exchange.new toMovies {}).run [] = some (Exchange.new toMovies {}) ∧
      (Demand.query {} (.plain "RETURN 1" []) {}).named? = some none ∧
      (Exchange.new toMovies {}).run unnamedQuery = some y ∧
      (∀ database ∈ (Exchange.new toMovies {}).openedBy 0 unnamedQuery, database = some "movies") ∧
      ((Exchange.new toMovies {}).AgreesOnDatabase 0 unnamedQuery ↔
        ¬((Naming.mk none (some "movies")).IsUntold ∧
          (Exchange.new toMovies {}).openedBy 0 unnamedQuery ≠ [] ∧
          (Exchange.new toMovies {}).HasTold 0 unnamedQuery)) ∧
      (Exchange.new toMovies {}).openedBy 0 unnamedQuery = [some "movies"] ∧
      (Exchange.new toMovies {}).HasTold 0 unnamedQuery := by
  obtain ⟨⟨y, hy⟩, -, e, he, -, hname⟩ := unnamedQuery_emits
  have hnothing : (Exchange.new toMovies {}).run [] = some (Exchange.new toMovies {}) := rfl
  obtain ⟨hopened, hiff⟩ := operation_labels_agree_iff hnothing rfl hy
  exact ⟨y, hnothing, rfl, hy, hopened, hiff, by decide +kernel, e, he, .queryExecutionTime, rfl, hname⟩

end QueryRelay
