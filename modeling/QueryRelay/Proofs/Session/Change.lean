import Mathlib.Logic.Relation
import QueryRelay.Proofs.Exchange.Invariant
import QueryRelay.Proofs.Reaper.Side

/-!
# What calls do to the registry

Whatever a call does between two waits, it does to the registry by a few changes, all of them at one
moment: a place is taken or given back, a session is tracked, used, marked idle, given an error to
keep, moved to *closing*, or dropped.

* `RegistryChange` — one change.
* `AtOnce` — one relay becomes another at one moment, and its registry by changes; `Quietly` — and
  nothing happens to the reapers.
* `Deed.perform_atOnce`, `Errand.resume_quietly`, `Errand.drop_quietly` — **all that calls do** is of
  this kind; `Deed.perform_quietly` — only the deeds that concern reapers do anything to them.
* `RegistryInvariant` — what each change and the passing of time preserve holds after every run.
-/

namespace QueryRelay

/-- A change of the registry at some moment. -/
inductive RegistryChange (now : Instant) (g : Registry) : Registry → Prop
  | places (pending : Nat) : RegistryChange now g { g with pending := pending }
  | track (database : Option String) (remote : RemoteSession) :
    RegistryChange now g (g.track database remote now).1
  | use (id : SessionId) (counter : SessionCounter) (delta : Nat) :
    RegistryChange now g (g.update id fun s => (s.bump counter delta).touch now)
  | rest (id : SessionId) : RegistryChange now g (g.update id SessionState.rest)
  | note (id : SessionId) (message : String) : RegistryChange now g (g.update id fun s => s.note message)
  | beginClosing (id : SessionId) : RegistryChange now g (g.update id fun s => s.transition .closing)
  | remove (id : SessionId) : RegistryChange now g (g.remove id)

/-- What of a relay the changes of its registry depend on. -/
structure RegistrySide where
  settings : Settings
  now : Instant
  registry : Registry

/-- The registry side of a relay. -/
def Relay.registrySide (r : Relay) : RegistrySide := ⟨r.settings, r.now, r.registry⟩

/-- What of a relay most deeds leave alone: what the registry depends on, but for its changes, and the reapers. -/
structure QuietSide where
  registry : RegistrySide
  reapers : ReaperSide

/-- The quiet side of a relay. -/
def Relay.quietSide (r : Relay) : QuietSide := ⟨r.registrySide, r.reaperSide⟩

/-- One relay becomes another at one moment, its registry by changes. -/
structure AtOnce (r r' : Relay) : Prop where
  settings : r'.settings = r.settings
  now : r'.now = r.now
  registry : Relation.ReflTransGen (RegistryChange r.now) r.registry r'.registry

namespace AtOnce

variable {r r' r'' : Relay}

theorem same (h : r'.registrySide = r.registrySide) : AtOnce r r' := by
  simp only [Relay.registrySide, RegistrySide.mk.injEq] at h
  obtain ⟨hsettings, hnow, hregistry⟩ := h
  exact ⟨hsettings, hnow, hregistry ▸ .refl⟩

theorem refl (r : Relay) : AtOnce r r := .same rfl

theorem trans (h : AtOnce r r') (h' : AtOnce r' r'') : AtOnce r r'' :=
  ⟨h'.settings.trans h.settings, h'.now.trans h.now, h.registry.trans (h.now ▸ h'.registry)⟩

theorem single {g : Registry} (h : RegistryChange r.now r.registry g)
    (hside : r'.registrySide = ⟨r.settings, r.now, g⟩) : AtOnce r r' := by
  simp only [Relay.registrySide, RegistrySide.mk.injEq] at hside
  obtain ⟨hsettings, hnow, hregistry⟩ := hside
  exact ⟨hsettings, hnow, hregistry ▸ .single h⟩

end AtOnce

/-- One relay becomes another at one moment, its registry by changes, and nothing happens to the reapers. -/
structure Quietly (r r' : Relay) : Prop extends AtOnce r r' where
  reapers : r'.reaperSide = r.reaperSide

namespace Quietly

variable {r r' r'' : Relay}

theorem same (h : r'.quietSide = r.quietSide) : Quietly r r' := by
  simp only [Relay.quietSide, QuietSide.mk.injEq] at h
  exact ⟨.same h.1, h.2⟩

theorem refl (r : Relay) : Quietly r r := .same rfl

theorem trans (h : Quietly r r') (h' : Quietly r' r'') : Quietly r r'' :=
  ⟨h.toAtOnce.trans h'.toAtOnce, h'.reapers.trans h.reapers⟩

/-- What comes before or after and does not show on the quiet side does not matter. -/
theorem of_same {q q' : Relay} (h : Quietly q q') (hbefore : q.quietSide = r.quietSide)
    (hafter : r'.quietSide = q'.quietSide) : Quietly r r' :=
  ((same hbefore).trans h).trans (same hafter)

theorem single {g : Registry} (h : RegistryChange r.now r.registry g)
    (hside : r'.quietSide = ⟨⟨r.settings, r.now, g⟩, r.reaperSide⟩) : Quietly r r' := by
  simp only [Relay.quietSide, QuietSide.mk.injEq] at hside
  exact ⟨.single h hside.1, hside.2⟩

end Quietly

/-! ## The parts of the state -/

namespace Relay

theorem quietSide_foldl_note (emissions : List Emission) (r : Relay) :
    (emissions.foldl (fun r e => r.note (.reported e)) r).quietSide = r.quietSide := by
  induction emissions generalizing r with
  | nil => rfl
  | cons e rest ih => exact ih (r.note (.reported e))

theorem quietSide_clearTransaction (r : Relay) (id : TransactionId) :
    (r.clearTransaction id).1.quietSide = r.quietSide := by
  unfold clearTransaction
  split <;> rfl

theorem quietSide_acquireClient (r : Relay) : r.acquireClient.1.quietSide = r.quietSide := by
  unfold acquireClient
  dsimp only
  split <;> rfl

theorem quietSide_recreateClient (r : Relay) : r.recreateClient.1.quietSide = r.quietSide := by
  unfold recreateClient
  dsimp only
  split
  · split <;> rfl
  · rfl

theorem updateSession_quietly (r : Relay) (handle : SessionHandle) (counter : SessionCounter) (delta : Nat) :
    Quietly r (r.updateSession handle counter delta).1 := by
  unfold updateSession
  split
  · exact .single (.use handle.id counter delta) rfl
  · exact .refl r

theorem bump_quietly (r : Relay) (handle : SessionHandle) (counter : SessionCounter) :
    Quietly r (r.bump handle counter) :=
  r.updateSession_quietly handle counter 1

theorem markIdle_quietly (r : Relay) (handle : SessionHandle) : Quietly r (r.markIdle handle).1 := by
  unfold markIdle
  split
  · exact .single (.rest handle.id) rfl
  · exact .refl r

theorem recordError_quietly (r : Relay) (handle : SessionHandle) (failure : Failure) :
    Quietly r (r.recordError handle failure) :=
  .single (.note handle.id failure.message) rfl

theorem release_quietly (r : Relay) : Quietly r (r.withRegistry Registry.release) :=
  .single (.places (r.registry.pending - 1)) rfl

end Relay

/-! ## Openings and closings -/

namespace Opening

theorem start_quietly (r : Relay) (database : Option String) (options : Option SessionOptions) :
    Quietly r (start r database options).1 := by
  unfold start Registry.reserve?
  by_cases hfull : r.settings.limits.maxSessions ≤ r.registry.occupied
  · rw [if_pos hfull]
    exact .refl r
  · rw [if_neg hfull]
    set placed : Relay := { r with registry := { r.registry with pending := r.registry.pending + 1 } }
    have hplaced : Quietly r placed := .single (.places (r.registry.pending + 1)) rfl
    have hback : ∀ q : Relay, q.quietSide = placed.quietSide → Quietly r (q.withRegistry Registry.release) :=
      fun q hq => (hplaced.of_same rfl hq).trans q.release_quietly
    dsimp only
    split
    · have hacquired := (placed.canExecute sessionCreationKey).1.quietSide_acquireClient
      split
      · rename_i q client hq
        rw [hq] at hacquired
        exact hplaced.of_same rfl hacquired
      · rename_i q e hq
        rw [hq] at hacquired
        exact hback _ hacquired
    · exact hback _ rfl

theorem resume_quietly (o : Opening) (reply : Except Failure RemoteSession) (r : Relay) :
    Quietly r (o.resume reply r).1 := by
  cases reply with
  | ok remote => exact .single (.track o.database remote) rfl
  | error e =>
    simp only [resume]
    split
    · exact (Relay.release_quietly _).of_same (r.recordFailure sessionCreationKey).quietSide_recreateClient rfl
    · exact (Relay.release_quietly _).of_same rfl rfl

end Opening

namespace Closing

theorem start_quietly (r : Relay) (id : SessionId) : Quietly r (start r id).1 := by
  unfold start
  split
  · exact .refl r
  · dsimp only
    split
    · exact .refl r
    · exact .single (.beginClosing id) rfl

theorem resume_quietly (c : Closing) (reply : Except Failure Unit) (r : Relay) : Quietly r (c.resume reply r).1 :=
  .single (.remove c.id) rfl

end Closing

/-! ## Transactions -/

namespace TransactionRun

variable (t : Transaction) (retries : Nat) (r : Relay)

theorem leave_quietSide : (leave t r).quietSide = r.quietSide := r.quietSide_clearTransaction t.id

theorem attempt_quietSide : (attempt t retries r).1.quietSide = r.quietSide := by
  unfold attempt
  dsimp only
  split
  · rfl
  · exact leave_quietSide t (r.canExecute t.id.breakerKey).1

theorem start_quietSide (session : SessionHandle) (statements : List Statement)
    (substrings : Option (List String)) :
    (start r session statements substrings).1.quietSide = r.quietSide := by
  unfold start
  split
  · exact attempt_quietSide _ 0 (r.registerTransaction (.new session.id statements)).1
  · rfl

theorem next_quietSide (results : List QueryResult) (rest : List Statement) :
    (next t retries results rest r).1.quietSide = r.quietSide := by
  cases rest <;> rfl

theorem noteFailure_quietly (failure : Failure) : Quietly r (noteFailure t retries failure r) := by
  have hbumped := (r.updateTransaction t.id fun s => s.fail failure.message retries r.now).bump_quietly t.session
    .transactionsRolledBack
  exact (hbumped.trans (Relay.recordError_quietly _ t.session failure)).of_same rfl rfl

theorem giveUp_quietSide (failure outcome : Failure) :
    (giveUp t failure outcome r).1.quietSide = r.quietSide :=
  leave_quietSide t ((r.recordFailure t.id.breakerKey).count .queryErrors (failureLabels t failure))

theorem afterFailure_quietly (failure : Failure) : Quietly r (afterFailure t retries failure r).1 := by
  refine (noteFailure_quietly t retries r failure).trans (.same ?_)
  unfold afterFailure
  dsimp only
  split
  · exact giveUp_quietSide t _ failure failure
  · split
    · exact giveUp_quietSide t _ failure _
    · rfl

theorem noteResult_quietly (result : QueryResult) : Quietly r (noteResult t result r) := by
  have hnoted := r.quietSide_foldl_note (result.statistics.emissions [("database", t.session.label)])
  simp only [noteResult]
  generalize (result.statistics.emissions [("database", t.session.label)]).foldl
    (fun r e => r.note (.reported e)) r = noted at hnoted ⊢
  exact (Relay.bump_quietly (noted.count .queriesExecuted _) t.session .queriesExecuted).of_same hnoted rfl

theorem afterCommit_quietly (results : List QueryResult) : Quietly r (afterCommit t results r).1 := by
  have hbumped := ((r.updateTransaction t.id TransactionState.commit).recordSuccess t.id.breakerKey).bump_quietly
    t.session .transactionsCommitted
  exact hbumped.of_same rfl (leave_quietSide t (Relay.count _ .transactionCommits [("database", t.session.label)]))

theorem resume_quietly (p : TransactionRun) (answer : p.wait.Answer) : Quietly r (p.resume answer r).1 := by
  cases p with
  | beginning t retries =>
    cases answer with
    | ok _ => exact (r.bump_quietly t.session .transactionsStarted).of_same rfl (next_quietSide t retries _ [] _)
    | error e => exact afterFailure_quietly t retries r e
  | running t retries results current rest =>
    cases answer with
    | ok raw =>
      simp only [resume]
      split
      · exact (noteResult_quietly t r _).of_same rfl (next_quietSide t retries _ _ rest)
      · exact .same rfl
    | error e => exact .same rfl
  | rollingBack t retries e => exact afterFailure_quietly t retries r e
  | committing t retries results =>
    cases answer with
    | ok _ => exact afterCommit_quietly t r results
    | error e => exact .same rfl
  | backingOff t retries delay => exact .same (attempt_quietSide t (retries + 1) _)

end TransactionRun

/-! ## Clients and reports -/

theorem Execution.start_quietSide (r : Relay) (routing : RoutingMode) (statement : Statement) :
    (Execution.start r routing statement).1.quietSide = r.quietSide := by
  have hacquired := r.quietSide_acquireClient
  unfold Execution.start
  split
  all_goals
    rename_i h
    rw [h] at hacquired
    exact hacquired

theorem Execution.resume_quietSide (p : Execution) (answer : p.wait.Answer) (r : Relay) :
    (p.resume answer r).1.quietSide = r.quietSide := by
  cases p with
  | executing client database routing statement attempt =>
    cases answer with
    | ok raw => rfl
    | error e =>
      simp only [Execution.resume]
      split <;> rfl
  | delaying span routing statement attempt =>
    have hrecreated := r.quietSide_recreateClient
    simp only [Execution.resume]
    split
    all_goals
      rename_i h
      rw [h] at hrecreated
      exact hrecreated

theorem ClientClosing.start_quietSide (r : Relay) : (ClientClosing.start r).1.quietSide = r.quietSide := by
  unfold ClientClosing.start
  dsimp only
  split <;> rfl

theorem Operation.finish_quietSide (f : OperationFrame) (outcome : TransactionRun.Outcome) (r : Relay) :
    (Operation.finish f outcome r).1.quietSide = r.quietSide := by
  cases outcome <;> rfl

/-! ## Reapers -/

namespace Relay

theorem registrySide_tellReaper (r : Relay) : r.tellReaper.1.registrySide = r.registrySide := by
  unfold tellReaper
  split <;> rfl

theorem registrySide_startReaper (r : Relay) : r.startReaper.1.registrySide = r.registrySide := by
  unfold startReaper
  split <;> rfl

end Relay

theorem Stopping.start_registrySide (r : Relay) : (Stopping.start r).1.registrySide = r.registrySide := by
  have htold := r.registrySide_tellReaper
  unfold Stopping.start
  split
  · rename_i r' h
    rw [h] at htold
    exact htold
  · rename_i r' id h
    rw [h] at htold
    split <;> exact htold

theorem Reaping.settle_registrySide (r : Relay) (id : ReaperId) :
    (Reaping.settle r id).1.registrySide = r.registrySide := by
  unfold Reaping.settle
  split <;> rfl

/-! ## Everything that calls do -/

/-- What a deed does that has nothing to do with reapers. -/
theorem Deed.perform_quietly {d : Deed} (hd : d.concernsReapers = false) (r : Relay) : Quietly r (d.perform r).1 := by
  cases d with
  | openSession database options => exact Opening.start_quietly r database options
  | closeSession id => exact Closing.start_quietly r id
  | transact session statements substrings =>
    exact .same (TransactionRun.start_quietSide r session statements substrings)
  | execute routing statement => exact .same (Execution.start_quietSide r routing statement)
  | closeClient => exact .same (ClientClosing.start_quietSide r)
  | startReaper | stopReaper | settleReaper => exact absurd hd (by simp [concernsReapers])
  | update session counter delta => exact r.updateSession_quietly session counter delta
  | markIdle session => exact r.markIdle_quietly session
  | recordError session failure => exact r.recordError_quietly session failure
  | acquireClient => exact .same r.quietSide_acquireClient
  | recreateClient => exact .same r.quietSide_recreateClient
  | recordFailure key => exact .same rfl
  | recordSuccess key => exact .same rfl
  | canExecute key => exact .same rfl
  | forget key => exact .same rfl
  | clear id => exact .same (r.quietSide_clearTransaction id)
  | finish f outcome => exact .same (Operation.finish_quietSide f outcome r)

/-- What a deed does to the registry. -/
theorem Deed.perform_atOnce (d : Deed) (r : Relay) : AtOnce r (d.perform r).1 := by
  cases hd : d.concernsReapers with
  | false => exact (perform_quietly hd r).toAtOnce
  | true =>
    cases d with
    | startReaper => exact .same r.registrySide_startReaper
    | stopReaper => exact .same (Stopping.start_registrySide r)
    | settleReaper reaper => exact .same (Reaping.settle_registrySide r reaper)
    | _ => exact absurd hd (by simp [concernsReapers])

/-- What the end of an errand does. -/
theorem Errand.resume_quietly (answers : Answers) (e : Errand) (r : Relay) : Quietly r (e.resume answers r).1 := by
  cases e with
  | opening o => exact o.resume_quietly _ r
  | closing c => exact c.resume_quietly _ r
  | transacting t => exact TransactionRun.resume_quietly r t _
  | executing e => exact .same (e.resume_quietSide _ r)
  | closingClient c => exact .same rfl
  | resting reaper interval => exact .same rfl
  | stopping s => exact .same rfl

theorem Errand.drop_quietly (e : Errand) (r : Relay) : Quietly r (e.drop r) := by
  cases e with
  | opening o => exact r.release_quietly
  | transacting t => exact .same (TransactionRun.leave_quietSide t.transaction r)
  | _ => exact .same rfl

/-! ## The induction -/

/-- A property of the registry at a moment, under some settings, which every change preserves and
which does not wear off. -/
structure RegistryInvariant (P : Settings → Instant → Registry → Prop) : Prop where
  change : ∀ {settings : Settings} {now : Instant} {g g' : Registry},
    RegistryChange now g g' → P settings now g → P settings now g'
  elapse : ∀ {settings : Settings} {now later : Instant} {g : Registry},
    now ≤ later → P settings now g → P settings later g

namespace RegistryInvariant

variable {P : Settings → Instant → Registry → Prop}

theorem atOnce (inv : RegistryInvariant P) {r r' : Relay} (h : AtOnce r r')
    (hr : P r.settings r.now r.registry) : P r'.settings r'.now r'.registry := by
  obtain ⟨hsettings, hnow, hregistry⟩ := h
  rw [hsettings, hnow]
  generalize r'.registry = g at hregistry
  induction hregistry with
  | refl => exact hr
  | tail _ hchange ih => exact inv.change hchange ih

/-- **The induction over changes of the registry.**  What the changes preserve holds after every run. -/
theorem invariant (inv : RegistryInvariant P) : Invariant fun r _ _ => P r.settings r.now r.registry where
  perform := fun d _ _ _ hr => inv.atOnce (d.perform_atOnce _) hr
  resume := fun answers e _ _ _ hr => inv.atOnce (e.resume_quietly answers _).toAtOnce hr
  drop := fun e _ _ _ hr => inv.atOnce (e.drop_quietly _).toAtOnce hr
  elapse := fun span _ _ _ hr => inv.elapse (Nat.le_add_right _ span.nanos) hr

end RegistryInvariant

end QueryRelay
