import QueryRelay.Proofs.Exchange.Basic

/-!
# Errands and deeds

Calls are built from one another: a query is an operation, an operation opens a session, runs a
transaction and closes the session.  Whatever a call is, it waits with one *errand* at a time, and
between two waits it does *deeds*, the things that need no wait or that begin an errand.

* `Errand` — the seven things a call can wait with; `Call.errand` says which one a call is at.
* `Deed` — what a call does without waiting; `Deed.perform` may leave it with an errand.
* `LeadsBy`, `Leads` — one situation leads to another by deeds alone, of some kind or of any.
* `Closing.InTurn` — how sweeps, and whoever closes all sessions, go through their lists.
* `Call.resume_leadsBy` — **whatever a call does when it goes on** is: its errand ends, and deeds
  follow that calls do of their own.  A fact about the relay therefore needs a look at errands and
  deeds, and never at the ways in which calls are nested.
* `Call.resume_leadsPlainly`, `Demand.start_leadsPlainly`, `Demand.start_leads_of_stops` — only
  background reapers, and the demands for them, do what concerns reapers.
-/

namespace QueryRelay

/-- The point at which something waits, if it does. -/
def Progress.point? {σ α : Type} : Progress σ α → Option σ
  | waiting point => some point
  | finished _ => none

@[simp] theorem Progress.point?_map {σ τ α β : Type} (f : σ → τ) (g : α → β) (p : Progress σ α) :
    (p.map f g).point? = p.point?.map f := by
  cases p <;> rfl

theorem Progress.eq_waiting_of_point? {σ α : Type} {p : Progress σ α} {point : σ} (h : p.point? = some point) :
    p = .waiting point := by
  cases p with
  | waiting _ => exact congrArg _ (Option.some.inj h)
  | finished _ => exact nomatch h

/-! ## Errands -/

/-- What a call waits with. -/
inductive Errand where
  | opening (o : Opening)
  | closing (c : Closing)
  | transacting (t : TransactionRun)
  | executing (e : Execution)
  | closingClient (c : ClientClosing)
  /-- A background reaper between two sweeps. -/
  | resting (reaper : ReaperId) (interval : Duration)
  | stopping (s : Stopping)
deriving Repr, Inhabited

namespace Errand

/-- What an errand waits for. -/
abbrev wait : Errand → Wait
  | opening o => o.wait
  | closing c => c.wait
  | transacting t => t.wait
  | executing e => e.wait
  | closingClient c => c.wait
  | resting reaper interval => .rest interval reaper
  | stopping s => s.wait

/-- Goes on with an errand whose wait is over: the relay after that, and the errand it turns into
if it waits again. -/
def resume (answers : Answers) : Errand → Relay → Relay × Option Errand
  | opening o, r => ((o.resume (answers o.wait) r).1, none)
  | closing c, r => ((c.resume (answers c.wait) r).1, none)
  | transacting t, r =>
    ((t.resume (answers t.wait) r).1, (t.resume (answers t.wait) r).2.point?.map transacting)
  | executing e, r =>
    ((e.resume (answers e.wait) r).1, (e.resume (answers e.wait) r).2.point?.map executing)
  | closingClient _, r => (r, none)
  | resting _ _, r => (r, none)
  | stopping _, r => (r, none)

/-- Gives up an errand. -/
def drop : Errand → Relay → Relay
  | opening _, r => Opening.drop r
  | transacting t, r => t.drop r
  | _, r => r

end Errand

/-! ### The errand of a call -/

/-- The errand of an operation. -/
def Operation.errand : Operation → Errand
  | .opening _ o => .opening o
  | .transacting _ _ run => .transacting run
  | .releasing _ c _ => .closing c

/-- The errand of a background reaper. -/
def Reaping.errand : Reaping → Errand
  | .resting reaper interval => .resting reaper interval
  | .sweeping _ sweep => .closing sweep.current

/-- The errand of closing all sessions. -/
def ClosingAll.errand : ClosingAll → Errand
  | .stopping s => .stopping s
  | .closing current _ _ => .closing current

/-- The errand of the end of an executor. -/
def Shutdown.errand : Shutdown → Errand
  | .sessions p => p.errand
  | .client c _ => .closingClient c

/-- The errand with which a call waits. -/
def Call.errand : Call → Errand
  | .opening o => .opening o
  | .closing c => .closing c
  | .closingAll c => c.errand
  | .sweeping s => .closing s.current
  | .stopping s => .stopping s
  | .reaping p => p.errand
  | .transacting t => .transacting t
  | .executing e => .executing e
  | .closingClient c => .closingClient c
  | .query q => q.operation.errand
  | .operating o => o.errand
  | .chunking _ c => c.current.operation.errand
  | .shuttingDown s => s.errand

theorem Operation.errand_wait (o : Operation) : o.errand.wait = o.wait := by
  cases o <;> rfl

/-- A call waits for what its errand waits for. -/
theorem Call.errand_wait (c : Call) : c.errand.wait = c.wait := by
  cases c with
  | closingAll c => cases c <;> rfl
  | reaping p => cases p <;> rfl
  | query q => exact q.operation.errand_wait
  | operating o => exact o.errand_wait
  | chunking _ c => exact c.current.operation.errand_wait
  | shuttingDown s =>
    cases s with
    | sessions p => cases p <;> rfl
    | client _ _ => rfl
  | _ => rfl

theorem Operation.drop_eq (o : Operation) (r : Relay) : o.drop r = o.errand.drop r := by
  cases o <;> rfl

/-- Giving up a call gives up its errand, and does nothing else. -/
theorem Call.drop_eq (c : Call) (r : Relay) : c.drop r = c.errand.drop r := by
  cases c with
  | closingAll c => cases c <;> rfl
  | reaping p => cases p <;> rfl
  | query q => exact q.operation.drop_eq r
  | operating o => exact o.drop_eq r
  | chunking _ c => exact c.current.operation.drop_eq r
  | shuttingDown s =>
    cases s with
    | sessions p => cases p <;> rfl
    | client _ _ => rfl
  | _ => rfl

/-! ## Deeds -/

/-- What a call does without waiting. -/
inductive Deed where
  | openSession (database : Option String) (options : Option SessionOptions)
  | closeSession (id : SessionId)
  | transact (session : SessionHandle) (statements : List Statement) (substrings : Option (List String))
  | execute (routing : RoutingMode) (statement : Statement)
  | closeClient
  | startReaper
  | stopReaper
  /-- A reaper that has done its sweep, or has not done one yet. -/
  | settleReaper (reaper : ReaperId)
  | update (session : SessionHandle) (counter : SessionCounter) (delta : Nat)
  | markIdle (session : SessionHandle)
  | recordError (session : SessionHandle) (failure : Failure)
  | acquireClient
  | recreateClient
  | recordFailure (key : String)
  | recordSuccess (key : String)
  | canExecute (key : String)
  | forget (key : String)
  | clear (id : TransactionId)
  /-- An operation reports how long it took and whether it failed. -/
  | finish (f : OperationFrame) (outcome : TransactionRun.Outcome)
deriving Inhabited

/-- Does a deed: the relay after that, and the errand that the deed begins if it has to wait. -/
def Deed.perform : Deed → Relay → Relay × Option Errand
  | openSession database options, r =>
    ((Opening.start r database options).1, (Opening.start r database options).2.point?.map .opening)
  | closeSession id, r => ((Closing.start r id).1, (Closing.start r id).2.point?.map .closing)
  | transact session statements substrings, r =>
    ((TransactionRun.start r session statements substrings).1,
      (TransactionRun.start r session statements substrings).2.point?.map .transacting)
  | execute routing statement, r =>
    ((Execution.start r routing statement).1, (Execution.start r routing statement).2.point?.map .executing)
  | closeClient, r => ((ClientClosing.start r).1, (ClientClosing.start r).2.point?.map .closingClient)
  | startReaper, r => (r.startReaper.1, none)
  | stopReaper, r => ((Stopping.start r).1, (Stopping.start r).2.point?.map .stopping)
  | settleReaper reaper, r => ((Reaping.settle r reaper).1, (Reaping.settle r reaper).2.point?.map Reaping.errand)
  | update session counter delta, r => ((r.updateSession session counter delta).1, none)
  | markIdle session, r => ((r.markIdle session).1, none)
  | recordError session failure, r => (r.recordError session failure, none)
  | acquireClient, r => (r.acquireClient.1, none)
  | recreateClient, r => (r.recreateClient.1, none)
  | recordFailure key, r => (r.recordFailure key, none)
  | recordSuccess key, r => (r.recordSuccess key, none)
  | canExecute key, r => ((r.canExecute key).1, none)
  | forget key, r => (r.withBreaker fun b => b.forget key, none)
  | clear id, r => ((r.clearTransaction id).1, none)
  | finish f outcome, r => ((Operation.finish f outcome r).1, none)

/-- Whether calls do a deed of their own.  The other deeds are done only where they are asked for. -/
def Deed.isOwn : Deed → Bool
  | update _ _ _ => false
  | recordError _ _ => false
  | acquireClient => false
  | recreateClient => false
  | recordFailure _ => false
  | recordSuccess _ => false
  | canExecute _ => false
  | forget _ => false
  | clear _ => false
  | _ => true

abbrev Deed.IsOwn (d : Deed) : Prop := d.isOwn = true

/-- Whether a deed starts a background reaper, tells it to stop, or is done by one. -/
def Deed.concernsReapers : Deed → Bool
  | startReaper => true
  | stopReaper => true
  | settleReaper _ => true
  | _ => false

/-- The deeds that calls do of their own and that have nothing to do with reapers. -/
abbrev Deed.IsPlain (d : Deed) : Prop := (d.isOwn && !d.concernsReapers) = true

theorem Deed.IsPlain.isOwn {d : Deed} (h : d.IsPlain) : d.IsOwn := (Bool.and_eq_true_iff.1 h).1

theorem Deed.IsPlain.not_concernsReapers {d : Deed} (h : d.IsPlain) : d.concernsReapers = false :=
  Bool.not_eq_true' _ ▸ (Bool.and_eq_true_iff.1 h).2

/-- A relay, with the errand of the call at hand if it waits, leads to another by deeds of some kind. -/
inductive LeadsBy (may : Deed → Prop) : Relay × Option Errand → Relay × Option Errand → Prop
  | refl (s : Relay × Option Errand) : LeadsBy may s s
  | deed (d : Deed) (hd : may d) (r : Relay) {s : Relay × Option Errand} :
    LeadsBy may (d.perform r) s → LeadsBy may (r, none) s

namespace LeadsBy

variable {may : Deed → Prop} {s t u : Relay × Option Errand}

theorem single (d : Deed) (hd : may d) (r : Relay) : LeadsBy may (r, none) (d.perform r) := .deed d hd r (.refl _)

theorem trans (hst : LeadsBy may s t) (htu : LeadsBy may t u) : LeadsBy may s u := by
  induction hst with
  | refl => exact htu
  | deed d hd r _ ih => exact .deed d hd r (ih htu)

theorem mono {more : Deed → Prop} (hmay : ∀ d, may d → more d) (h : LeadsBy may s t) : LeadsBy more s t := by
  induction h with
  | refl => exact .refl _
  | deed d hd r _ ih => exact .deed d (hmay d hd) r ih

/-- **The induction over deeds.**  What every deed of the kind preserves holds wherever they lead. -/
theorem induct {P : Relay × Option Errand → Prop} (hdeed : ∀ (d : Deed), may d → ∀ r, P (r, none) → P (d.perform r))
    (h : LeadsBy may s t) (hs : P s) : P t := by
  induction h with
  | refl => exact hs
  | deed d hd r _ ih => exact ih (hdeed d hd r hs)

/-- Whoever waits does nothing. -/
theorem eq_of_some {r : Relay} {e : Errand} (h : LeadsBy may (r, some e) t) : t = (r, some e) := by
  cases h
  rfl

end LeadsBy

/-- One situation leads to another by deeds of any kind. -/
abbrev Leads : Relay × Option Errand → Relay × Option Errand → Prop := LeadsBy fun _ => True

/-- What every deed preserves holds wherever deeds lead. -/
theorem Leads.induct {P : Relay × Option Errand → Prop} (hdeed : ∀ (d : Deed) r, P (r, none) → P (d.perform r))
    {s t : Relay × Option Errand} (h : Leads s t) (hs : P s) : P t :=
  LeadsBy.induct (fun d _ => hdeed d) h hs

/-! ## Calls as errands and deeds -/

/-- How a call stands after a step: the relay, and the errand with which it waits. -/
def situation {σ α : Type} (errand : σ → Errand) (x : Relay × Progress σ α) : Relay × Option Errand :=
  (x.1, x.2.point?.map errand)

theorem situation_lift {σ α : Type} (point : σ → Call) (result : α → CallResult)
    (x : Relay × Progress σ α) :
    situation Call.errand (Call.lift point result x) = situation (Call.errand ∘ point) x := by
  simp [situation, Call.lift, Function.comp_def]

theorem Call.point?_lift {σ α : Type} (point : σ → Call) (result : α → CallResult) (x : Relay × Progress σ α) :
    (lift point result x).2.point? = x.2.point?.map point :=
  Progress.point?_map ..

/-! ### Sessions that are closed in turn -/

namespace Closing

/-- Going through a list of sessions, one passes over those whose closing is finished at once, up to the first that has
to be waited for: the relay at the end, and that closing with what remains of the list. -/
inductive InTurn : Relay → List SessionId → Relay → Option (Closing × List SessionId) → Prop where
  | done (r : Relay) : InTurn r [] r none
  | waits {r r' : Relay} {id : SessionId} {rest : List SessionId} {c : Closing} (h : start r id = (r', .waiting c)) :
      InTurn r (id :: rest) r' (some (c, rest))
  | passes {r r' last : Relay} {id : SessionId} {rest : List SessionId} {outcome : Except Failure Unit}
      {next? : Option (Closing × List SessionId)} (h : start r id = (r', .finished outcome))
      (hrest : InTurn r' rest last next?) : InTurn r (id :: rest) last next?

theorem InTurn.leads {r last : Relay} {ids : List SessionId} {next? : Option (Closing × List SessionId)}
    (h : InTurn r ids last next?) :
    LeadsBy Deed.IsPlain (r, none) (last, next?.map fun next => .closing next.1) := by
  induction h with
  | done r => exact .refl _
  | @waits r r' id rest c h =>
    refine .deed (.closeSession id) (by rfl) r ?_
    simp only [Deed.perform, h]
    exact .refl _
  | @passes r r' last id rest outcome next? h _ ih =>
    refine .deed (.closeSession id) (by rfl) r ?_
    simp only [Deed.perform, h]
    exact ih

end Closing

/-! ### Sweeps -/

/-- A sweep goes through its list in turn. -/
theorem Sweep.proceed_inTurn (r : Relay) (ids : List SessionId) (closed : Nat) :
    ∃ next? closed', Closing.InTurn r ids (proceed r ids closed).1 next? ∧
      (proceed r ids closed).2.point? = next?.map fun next => ⟨next.1, next.2, closed'⟩ := by
  induction ids generalizing r closed with
  | nil => exact ⟨none, closed, .done r, rfl⟩
  | cons id rest ih =>
    simp only [proceed]
    cases hstart : Closing.start r id with
    | mk r' p =>
      cases p with
      | waiting c => exact ⟨some (c, rest), closed, .waits hstart, rfl⟩
      | finished outcome =>
        cases outcome with
        | ok _ | error _ =>
          obtain ⟨next?, closed', hrest, hpoint⟩ := ih r' _
          exact ⟨next?, closed', .passes hstart hrest, hpoint⟩

theorem Sweep.proceed_leads (r : Relay) (ids : List SessionId) (closed : Nat) :
    LeadsBy Deed.IsPlain (r, none) (situation (fun s : Sweep => .closing s.current) (Sweep.proceed r ids closed)) := by
  obtain ⟨next?, closed', hturn, hpoint⟩ := proceed_inTurn r ids closed
  rw [situation, hpoint, Option.map_map]
  exact hturn.leads

theorem Sweep.resume_leads (answers : Answers) (s : Sweep) (r : Relay) :
    LeadsBy Deed.IsPlain ((Errand.closing s.current).resume answers r)
      (situation (fun s : Sweep => .closing s.current) (s.resume (answers s.wait) r)) := by
  simp only [Sweep.resume, Errand.resume]
  obtain ⟨r', outcome⟩ := s.current.resume (answers s.wait) r
  cases outcome with
  | ok _ => exact Sweep.proceed_leads r' s.rest (s.closed + 1)
  | error _ => exact Sweep.proceed_leads r' s.rest s.closed

/-! ### Reapers -/

theorem Reaping.ofSweep_leads (id : ReaperId) {s : Relay × Option Errand} {x : Relay × Progress Sweep Nat}
    (h : LeadsBy Deed.IsOwn s (situation (fun s : Sweep => .closing s.current) x)) :
    LeadsBy Deed.IsOwn s (situation Reaping.errand (Reaping.ofSweep id x)) := by
  obtain ⟨r, p⟩ := x
  cases p with
  | waiting sweep => exact h
  | finished _ => exact h.trans (.single (.settleReaper id) (by rfl) r)

theorem Reaping.resume_leads (answers : Answers) (p : Reaping) (r : Relay) :
    LeadsBy Deed.IsOwn (p.errand.resume answers r) (situation Reaping.errand (p.resume (answers p.wait) r)) := by
  cases p with
  | resting id interval =>
    simp only [Reaping.resume]
    split
    · exact Reaping.ofSweep_leads id ((Sweep.proceed_leads r _ 0).mono fun _ => Deed.IsPlain.isOwn)
    · exact .single (.settleReaper id) (by rfl) r
  | sweeping id sweep =>
    exact Reaping.ofSweep_leads id ((sweep.resume_leads answers r).mono fun _ => Deed.IsPlain.isOwn)

/-! ### Closing all sessions -/

/-- Closing all sessions goes through its list in turn. -/
theorem ClosingAll.proceed_inTurn (r : Relay) (ids : List SessionId) (failures : CloseFailures) :
    ∃ next? failures', Closing.InTurn r ids (proceed r ids failures).1 next? ∧
      (proceed r ids failures).2.point? = next?.map fun next => closing next.1 next.2 failures' := by
  induction ids generalizing r failures with
  | nil => exact ⟨none, failures, .done r, rfl⟩
  | cons id rest ih =>
    simp only [proceed]
    cases hstart : Closing.start r id with
    | mk r' p =>
      cases p with
      | waiting c => exact ⟨some (c, rest), failures, .waits hstart, rfl⟩
      | finished outcome =>
        cases outcome with
        | ok _ | error _ =>
          obtain ⟨next?, failures', hrest, hpoint⟩ := ih r' _
          exact ⟨next?, failures', .passes hstart hrest, hpoint⟩

theorem ClosingAll.proceed_leads (r : Relay) (ids : List SessionId) (failures : CloseFailures) :
    LeadsBy Deed.IsPlain (r, none) (situation ClosingAll.errand (ClosingAll.proceed r ids failures)) := by
  obtain ⟨next?, failures', hturn, hpoint⟩ := proceed_inTurn r ids failures
  rw [situation, hpoint, Option.map_map]
  exact hturn.leads

/-- The reaper is stopped first, and that is all it has to do with reapers. -/
theorem ClosingAll.start_leads (r : Relay) :
    LeadsBy Deed.IsPlain (Deed.stopReaper.perform r) (situation ClosingAll.errand (ClosingAll.start r)) := by
  simp only [ClosingAll.start, Deed.perform]
  generalize Stopping.start r = x
  obtain ⟨r', p⟩ := x
  cases p with
  | waiting s => exact .refl _
  | finished _ => exact ClosingAll.proceed_leads r' _ []

theorem ClosingAll.resume_leads (answers : Answers) (c : ClosingAll) (r : Relay) :
    LeadsBy Deed.IsPlain (c.errand.resume answers r) (situation ClosingAll.errand (c.resume (answers c.wait) r)) := by
  cases c with
  | stopping s => exact ClosingAll.proceed_leads r _ []
  | closing current rest failures =>
    simp only [ClosingAll.resume, ClosingAll.errand, Errand.resume]
    obtain ⟨r', outcome⟩ := current.resume (answers current.wait) r
    cases outcome with
    | ok _ => exact ClosingAll.proceed_leads r' rest failures
    | error e => exact ClosingAll.proceed_leads r' rest (failures ++ [(current.id, e)])

/-! ### Operations -/

theorem Operation.finish_leads (f : OperationFrame) (outcome : TransactionRun.Outcome) (r : Relay) :
    LeadsBy Deed.IsPlain (r, none) (situation Operation.errand (Operation.finish f outcome r)) := by
  have hdone : situation Operation.errand (Operation.finish f outcome r) = (Deed.finish f outcome).perform r := by
    cases outcome <;> rfl
  rw [hdone]
  exact .single _ (by rfl) r

theorem Operation.release_leads (f : OperationFrame) (session : SessionHandle)
    (outcome : TransactionRun.Outcome) (r : Relay) :
    LeadsBy Deed.IsPlain (r, none) (situation Operation.errand (Operation.release f session outcome r)) := by
  refine .deed (.markIdle session) (by rfl) r (.deed (.closeSession session.id) (by rfl) _ ?_)
  simp only [Operation.release, Deed.perform]
  generalize Closing.start (r.markIdle session).1 session.id = x
  obtain ⟨r', p⟩ := x
  cases p with
  | waiting c => exact .refl _
  | finished _ => exact Operation.finish_leads f outcome r'

theorem Operation.ofRun_leads (f : OperationFrame) (session : SessionHandle) {s : Relay × Option Errand}
    {x : Relay × Progress TransactionRun TransactionRun.Outcome}
    (h : LeadsBy Deed.IsPlain s (situation .transacting x)) :
    LeadsBy Deed.IsPlain s (situation Operation.errand (Operation.ofRun f session x)) := by
  obtain ⟨r, p⟩ := x
  cases p with
  | waiting run => exact h
  | finished outcome => exact h.trans (Operation.release_leads f session outcome r)

theorem Operation.ofOpening_leads (f : OperationFrame) (x : Relay × Except Failure SessionHandle) :
    LeadsBy Deed.IsPlain (x.1, none) (situation Operation.errand (Operation.ofOpening f x)) := by
  obtain ⟨r, outcome⟩ := x
  cases outcome with
  | ok session =>
    exact Operation.ofRun_leads f session (.single (.transact session f.statements f.substrings) (by rfl) r)
  | error e => exact Operation.finish_leads f (.error e) r

theorem Operation.start_leads (r : Relay) (kind : OperationKind) (configured : Option String)
    (statements : List Statement) (options : OperationOptions) :
    LeadsBy Deed.IsPlain (r, none)
      (situation Operation.errand (Operation.start r kind configured statements options)) := by
  refine .deed (.openSession (options.database <|> configured) options.session) (by rfl) r ?_
  simp only [Operation.start, Deed.perform]
  generalize Opening.start r (options.database <|> configured) options.session = x
  obtain ⟨r', p⟩ := x
  cases p with
  | waiting o => exact .refl _
  | finished outcome => exact Operation.ofOpening_leads _ (r', outcome)

theorem Operation.resume_leads (answers : Answers) (o : Operation) (r : Relay) :
    LeadsBy Deed.IsPlain (o.errand.resume answers r) (situation Operation.errand (o.resume (answers o.wait) r)) := by
  cases o with
  | opening f o => exact Operation.ofOpening_leads f (o.resume (answers o.wait) r)
  | transacting f session run => exact Operation.ofRun_leads f session (.refl _)
  | releasing f c outcome => exact Operation.finish_leads f outcome _

/-! ### Queries and chunks -/

theorem Query.ofOperation_leads (statement : Statement) {s : Relay × Option Errand}
    {x : Relay × Progress Operation TransactionRun.Outcome}
    (h : LeadsBy Deed.IsPlain s (situation Operation.errand x)) :
    LeadsBy Deed.IsPlain s (situation (fun q : Query => q.operation.errand) (Query.ofOperation statement x)) := by
  obtain ⟨r, p⟩ := x
  cases p <;> exact h

theorem Query.start_leads (r : Relay) (config : ExecutorConfig) (statement : Statement)
    (options : OperationOptions) :
    LeadsBy Deed.IsPlain (r, none)
      (situation (fun q : Query => q.operation.errand) (Query.start r config statement options)) :=
  Query.ofOperation_leads statement (Operation.start_leads r .query config.database [statement] options)

theorem Query.resume_leads (answers : Answers) (q : Query) (r : Relay) :
    LeadsBy Deed.IsPlain (q.operation.errand.resume answers r)
      (situation (fun q : Query => q.operation.errand) (q.resume (answers q.wait) r)) :=
  Query.ofOperation_leads q.statement (q.operation.resume_leads answers r)

theorem ChunkRun.proceed_leads (config : ExecutorConfig) (text : String) (options : OperationOptions)
    (r : Relay) (results : List QueryResult) (chunks : List (List Json)) :
    LeadsBy Deed.IsPlain (r, none)
      (situation (fun c : ChunkRun => c.current.operation.errand)
        (ChunkRun.proceed config text options r results chunks)) := by
  induction chunks generalizing r results with
  | nil => exact .refl _
  | cons chunk rest ih =>
    have hstart := Query.start_leads r config (ChunkRun.statement text chunk) options
    unfold ChunkRun.proceed
    generalize Query.start r config (ChunkRun.statement text chunk) options = x at hstart
    obtain ⟨r', p⟩ := x
    cases p with
    | waiting q => exact hstart
    | finished outcome =>
      cases outcome with
      | ok result => exact hstart.trans (ih r' (results ++ [result]))
      | error e => exact hstart

theorem ChunkRun.start_leads (r : Relay) (config : ExecutorConfig) (text : String) (items : List Json)
    (size : Option Nat) (options : OperationOptions) :
    LeadsBy Deed.IsPlain (r, none)
      (situation (fun c : ChunkRun => c.current.operation.errand)
        (ChunkRun.start r config text items size options)) := by
  unfold ChunkRun.start
  dsimp only
  split
  · exact .refl _
  · exact ChunkRun.proceed_leads config text options r [] _

theorem ChunkRun.resume_leads (answers : Answers) (config : ExecutorConfig) (c : ChunkRun) (r : Relay) :
    LeadsBy Deed.IsPlain (c.current.operation.errand.resume answers r)
      (situation (fun c : ChunkRun => c.current.operation.errand) (c.resume config (answers c.wait) r)) := by
  have hquery := c.current.resume_leads answers r
  unfold ChunkRun.resume
  generalize c.current.resume (answers c.wait) r = x at hquery
  obtain ⟨r', p⟩ := x
  cases p with
  | waiting q => exact hquery
  | finished outcome =>
    cases outcome with
    | ok result => exact hquery.trans (ChunkRun.proceed_leads config c.text c.options r' _ c.rest)
    | error e => exact hquery

/-! ### The end of an executor -/

theorem Shutdown.ofSessions_leads {s : Relay × Option Errand} {x : Relay × Progress ClosingAll CloseFailures}
    (h : LeadsBy Deed.IsPlain s (situation ClosingAll.errand x)) :
    LeadsBy Deed.IsPlain s (situation Shutdown.errand (Shutdown.ofSessions x)) := by
  obtain ⟨r, p⟩ := x
  cases p with
  | waiting c => exact h
  | finished failures =>
    refine h.trans (.deed .closeClient (by rfl) r ?_)
    simp only [Shutdown.ofSessions, Deed.perform, situation, Progress.point?_map, Option.map_map]
    exact .refl _

theorem Shutdown.resume_leads (answers : Answers) (p : Shutdown) (r : Relay) :
    LeadsBy Deed.IsPlain (p.errand.resume answers r) (situation Shutdown.errand (p.resume (answers p.wait) r)) := by
  cases p with
  | sessions c => exact Shutdown.ofSessions_leads (c.resume_leads answers r)
  | client c first => exact .refl _

/-! ### Any call -/

/-- **A step of a call that is no reaper.**  When the call goes on, its errand ends and plain deeds follow, until one
of them leaves the call with an errand again or the call has its result. -/
theorem Call.resume_leadsPlainly (answers : Answers) (c : Call) (hc : c.isReaper = false) (r : Relay) :
    LeadsBy Deed.IsPlain (c.errand.resume answers r) (situation Call.errand (c.resume (answers c.wait) r)) := by
  cases c with
  | opening o => exact .refl _
  | closing c => exact .refl _
  | closingAll c =>
    rw [Call.resume, situation_lift]
    exact c.resume_leads answers r
  | sweeping s =>
    rw [Call.resume, situation_lift]
    exact s.resume_leads answers r
  | stopping s => exact .refl _
  | reaping p => exact absurd hc (by simp [isReaper])
  | transacting t =>
    rw [Call.resume, situation_lift]
    exact .refl _
  | executing e =>
    rw [Call.resume, situation_lift]
    exact .refl _
  | closingClient c => exact .refl _
  | query q =>
    rw [Call.resume, situation_lift]
    exact q.resume_leads answers r
  | operating o =>
    rw [Call.resume, situation_lift]
    exact o.resume_leads answers r
  | chunking config c =>
    rw [Call.resume, situation_lift]
    exact c.resume_leads answers config r
  | shuttingDown s =>
    rw [Call.resume, situation_lift]
    exact s.resume_leads answers r

/-- **A step of a call.**  When a call goes on, its errand ends and deeds of its own follow, until one of
them leaves the call with an errand again or the call has its result. -/
theorem Call.resume_leadsBy (answers : Answers) (c : Call) (r : Relay) :
    LeadsBy Deed.IsOwn (c.errand.resume answers r) (situation Call.errand (c.resume (answers c.wait) r)) := by
  cases hc : c.isReaper with
  | false => exact (c.resume_leadsPlainly answers hc r).mono fun _ => Deed.IsPlain.isOwn
  | true =>
    cases c with
    | reaping p =>
      rw [Call.resume, situation_lift]
      exact p.resume_leads answers r
    | _ => exact absurd hc (by simp [isReaper])

theorem Call.resume_leads (answers : Answers) (c : Call) (r : Relay) :
    Leads (c.errand.resume answers r) (situation Call.errand (c.resume (answers c.wait) r)) :=
  (c.resume_leadsBy answers r).mono fun _ _ => trivial

/-- The deed that is asked for by a demand that asks for nothing else. -/
def Demand.deed? : Demand → Option Deed
  | update session counter delta => some (.update session counter delta)
  | recordError session failure => some (.recordError session failure)
  | acquireClient => some .acquireClient
  | recreateClient => some .recreateClient
  | recordFailure key => some (.recordFailure key)
  | recordSuccess key => some (.recordSuccess key)
  | canExecute key => some (.canExecute key)
  | forget key => some (.forget key)
  | clear id => some (.clear id)
  | _ => none

/-- What a demand may make a call do: what calls do of their own, and what was asked for. -/
def Demand.Permits (demand : Demand) (d : Deed) : Prop := d.IsOwn ∨ demand.deed? = some d

/-- Whether a demand asks for the reaper to be stopped, at least in the beginning. -/
def Demand.stops : Demand → Bool
  | stopReaper => true
  | closeAll => true
  | shutDown => true
  | _ => false

/-- Whether a demand asks for a reaper to be started or stopped. -/
def Demand.concernsReapers : Demand → Bool
  | startReaper => true
  | d => d.stops

/-- What a demand may make a call do without having to do with reapers. -/
abbrev Demand.PermitsPlainly (demand : Demand) (d : Deed) : Prop := demand.Permits d ∧ d.concernsReapers = false

theorem Demand.permitsPlainly_of_plain (demand : Demand) {s t : Relay × Option Errand}
    (h : LeadsBy Deed.IsPlain s t) : LeadsBy demand.PermitsPlainly s t :=
  h.mono fun _ hplain => ⟨.inl hplain.isOwn, hplain.not_concernsReapers⟩

theorem Demand.permits_of_plain (demand : Demand) {s t : Relay × Option Errand} (h : LeadsBy Deed.IsPlain s t) :
    LeadsBy demand.Permits s t :=
  h.mono fun _ hplain => .inl hplain.isOwn

/-- **The beginning of a call that has nothing to do with reapers.** -/
theorem Demand.start_leadsPlainly (d : Demand) (hd : d.concernsReapers = false) (r : Relay) :
    LeadsBy d.PermitsPlainly (r, none) (situation Call.errand (d.start r)) := by
  cases d with
  | openSession database options =>
    rw [Demand.start, situation_lift]
    exact .single (.openSession database options) ⟨.inl rfl, rfl⟩ r
  | closeSession id =>
    rw [Demand.start, situation_lift]
    exact .single (.closeSession id) ⟨.inl rfl, rfl⟩ r
  | sweep =>
    rw [Demand.start, situation_lift]
    exact permitsPlainly_of_plain _ (Sweep.proceed_leads r _ 0)
  | transact session statements substrings =>
    rw [Demand.start, situation_lift]
    exact .single (.transact session statements substrings) ⟨.inl rfl, rfl⟩ r
  | execute routing statement =>
    rw [Demand.start, situation_lift]
    exact .single (.execute routing statement) ⟨.inl rfl, rfl⟩ r
  | closeClient =>
    rw [Demand.start, situation_lift]
    exact .single .closeClient ⟨.inl rfl, rfl⟩ r
  | query config statement options =>
    rw [Demand.start, situation_lift]
    exact permitsPlainly_of_plain _ (Query.start_leads r config statement options)
  | job config work =>
    rw [Demand.start_job, Demand.start, situation_lift]
    exact permitsPlainly_of_plain _ (Query.start_leads r config (work.statement config) work.options)
  | operate config statements options =>
    rw [Demand.start, situation_lift]
    exact permitsPlainly_of_plain _ (Operation.start_leads r .transaction config.database statements options)
  | chunks config text items size options =>
    rw [Demand.start, situation_lift]
    exact permitsPlainly_of_plain _ (ChunkRun.start_leads r config text items size options)
  | update session counter delta => exact .single (.update session counter delta) ⟨.inr rfl, rfl⟩ r
  | markIdle session => exact .single (.markIdle session) ⟨.inl rfl, rfl⟩ r
  | recordError session failure => exact .single (.recordError session failure) ⟨.inr rfl, rfl⟩ r
  | acquireClient => exact .single .acquireClient ⟨.inr rfl, rfl⟩ r
  | recreateClient => exact .single .recreateClient ⟨.inr rfl, rfl⟩ r
  | recordFailure key => exact .single (.recordFailure key) ⟨.inr rfl, rfl⟩ r
  | recordSuccess key => exact .single (.recordSuccess key) ⟨.inr rfl, rfl⟩ r
  | canExecute key => exact .single (.canExecute key) ⟨.inr rfl, rfl⟩ r
  | forget key => exact .single (.forget key) ⟨.inr rfl, rfl⟩ r
  | clear id => exact .single (.clear id) ⟨.inr rfl, rfl⟩ r
  | _ => exact absurd hd (by simp [concernsReapers, stops])

/-- **The beginning of a call that stops the reaper**: that is the first thing it does, and the rest is plain. -/
theorem Demand.start_leads_of_stops {d : Demand} (hd : d.stops = true) (r : Relay) :
    LeadsBy Deed.IsPlain (Deed.stopReaper.perform r) (situation Call.errand (d.start r)) := by
  cases d with
  | closeAll =>
    rw [Demand.start, situation_lift]
    exact ClosingAll.start_leads r
  | stopReaper =>
    rw [Demand.start, situation_lift]
    exact .refl _
  | shutDown =>
    rw [Demand.start, situation_lift]
    exact Shutdown.ofSessions_leads (ClosingAll.start_leads r)
  | _ => exact absurd hd (by simp [stops])

theorem Demand.concernsReapers_cases {d : Demand} (hd : d.concernsReapers = true) :
    d = .startReaper ∨ d.stops = true := by
  cases d with
  | startReaper => exact .inl rfl
  | _ => exact .inr hd

/-- **The beginning of a call.**  Deeds are done until one of them leaves the call with an errand or
the call has its result. -/
theorem Demand.start_leadsBy (d : Demand) (r : Relay) :
    LeadsBy d.Permits (r, none) (situation Call.errand (d.start r)) := by
  cases hd : d.concernsReapers with
  | false => exact (d.start_leadsPlainly hd r).mono fun _ => And.left
  | true =>
    rcases concernsReapers_cases hd with rfl | hstops
    · refine .deed .startReaper (.inl rfl) r ?_
      simp only [Demand.start, Deed.perform]
      obtain ⟨r', started⟩ := r.startReaper
      cases started with
      | none => exact .refl _
      | some reaper =>
        dsimp only
        rw [situation_lift]
        exact .single (.settleReaper reaper) (.inl rfl) r'
    · exact .deed .stopReaper (.inl rfl) r (permits_of_plain _ (start_leads_of_stops hstops r))

theorem Demand.start_leads (d : Demand) (r : Relay) : Leads (r, none) (situation Call.errand (d.start r)) :=
  (d.start_leadsBy r).mono fun _ _ => trivial

end QueryRelay
