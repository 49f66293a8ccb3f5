import Mathlib.Data.Multiset.Filter
import QueryRelay.Proofs.Exchange.Errand

/-!
# The session side of a relay

A `SessionSide` is what remains of a relay when only sessions matter: the limits, the tracked
sessions in outline, the places taken by openings under way, and the part of the log that is about
sessions.  Openings and closings change it; this module shows that **everything else leaves it as
it is**: transactions, statements outside sessions, clients, circuits, reapers, counters of sessions
and the reports of operations.
-/

namespace QueryRelay

/-! ## Outlines -/

/-- How far a session is in its life. -/
inductive Phase where
  /-- No closing has begun. -/
  | live
  | closing
  /-- The session is closed or has failed. -/
  | ended
deriving Repr, DecidableEq, Inhabited

/-- The phase that a status belongs to. -/
def SessionStatus.phase : SessionStatus → Phase
  | created => .live
  | active => .live
  | idle => .live
  | closing => .closing
  | closed => .ended
  | error => .ended

/-- A tracked session in outline. -/
structure SessionOutline where
  id : SessionId
  remote : RemoteSession
  phase : Phase
deriving Repr, DecidableEq, Inhabited

/-- The outline of an entry of the registry. -/
def SessionOutline.of (e : SessionId × TrackedSession) : SessionOutline :=
  ⟨e.1, e.2.remote, e.2.state.status.phase⟩

/-! ### What touches the phase of a session -/

namespace SessionState

theorem phase_transition_active (s : SessionState) : (s.transition .active).status.phase = s.status.phase := by
  unfold transition
  cases h : s.status <;> simp [SessionStatus.canBecome, SessionStatus.phase, h]

theorem phase_touch (s : SessionState) (now : Instant) : (s.touch now).status.phase = s.status.phase :=
  phase_transition_active { s with lastUsedAt := now }

theorem phase_rest (s : SessionState) : s.rest.status.phase = s.status.phase := by
  unfold rest
  split
  · rename_i h
    simp [transition, h, SessionStatus.canBecome, SessionStatus.phase]
  · rfl

end SessionState

theorem SessionStatus.phase_eq_closing_iff {s : SessionStatus} : s.phase = .closing ↔ s = .closing := by
  cases s <;> simp [phase]

theorem SessionStatus.phase_ne_ended_iff {s : SessionStatus} :
    s.phase ≠ .ended ↔ s = .created ∨ s = .active ∨ s = .idle ∨ s = .closing := by
  cases s <;> simp [phase]

namespace Registry

/-- The tracked sessions in outline. -/
def outline (g : Registry) : Multiset SessionOutline := (g.sessions.entries.map SessionOutline.of : List _)

theorem card_outline (g : Registry) : g.outline.card = g.sessions.size := by
  simp [outline, Table.size]

theorem mem_outline {g : Registry} {o : SessionOutline} :
    o ∈ g.outline ↔
      ∃ t, g.sessions.get? o.id = some t ∧ t.remote = o.remote ∧ t.state.status.phase = o.phase := by
  obtain ⟨id, remote, phase⟩ := o
  simp only [outline, Multiset.mem_coe, List.mem_map, SessionOutline.of, SessionOutline.mk.injEq, Prod.exists]
  constructor
  · rintro ⟨key, t, hmem, rfl, rfl, rfl⟩
    exact ⟨t, Table.mem_entries_iff.1 hmem, rfl, rfl⟩
  · rintro ⟨t, hget, rfl, rfl⟩
    exact ⟨id, t, Table.mem_entries_iff.2 hget, rfl, rfl, rfl⟩

theorem outline_erase (g : Registry) (id : SessionId) :
    ((g.sessions.erase id).entries.map SessionOutline.of : Multiset SessionOutline) =
      g.outline.filter fun o => o.id ≠ id := by
  rw [outline, Multiset.filter_coe, List.filter_map]
  rfl

theorem outline_remove (g : Registry) (id : SessionId) :
    (g.remove id).outline = g.outline.filter fun o => o.id ≠ id :=
  g.outline_erase id

/-- A change of the state of a session that keeps its phase does not show in outline. -/
theorem outline_update (g : Registry) (id : SessionId) {change : SessionState → SessionState}
    (hphase : ∀ s, (change s).status.phase = s.status.phase) : (g.update id change).outline = g.outline := by
  simp only [outline, update, Table.modify, List.map_map]
  congr 1
  apply List.map_congr_left
  intro e _
  by_cases h : e.1 = id <;> simp [h, SessionOutline.of, hphase]

end Registry

/-! ## What is about sessions in the log -/

/-- Whether a request opens or closes a session. -/
def Request.concernsSessions : Request → Bool
  | openSession _ _ _ => true
  | closeSession _ => true
  | _ => false

/-- Whether a metric is about how many sessions there are. -/
def Metric.concernsSessions : Metric → Bool
  | sessionsActive => true
  | sessionsCreated => true
  | sessionsClosed => true
  | _ => false

/-- Whether something seen from outside is about sessions. -/
def Happening.concernsSessions : Happening → Bool
  | requested request => request.concernsSessions
  | reported e =>
    decide (e.name = Metric.sessionsActive.name) || decide (e.name = Metric.sessionsCreated.name) ||
      decide (e.name = Metric.sessionsClosed.name)
  | _ => false

theorem Happening.concernsSessions_emit (verb : EmissionVerb) (m : Metric) (value : Binary64) (labels : Labels) :
    (Happening.reported (verb.emit m value labels)).concernsSessions = m.concernsSessions := by
  cases m <;> rfl

/-! ## The session side -/

/-- What of a relay is about sessions. -/
structure SessionSide where
  limits : SessionLimits
  sessions : Multiset SessionOutline
  /-- Openings that have a place but no session yet. -/
  pending : Nat
  nextSerial : Nat
  log : List Happening

/-- The session side of a relay. -/
def Relay.sessionSide (r : Relay) : SessionSide where
  limits := r.settings.limits
  sessions := r.registry.outline
  pending := r.registry.pending
  nextSerial := r.registry.nextSerial
  log := r.log.filter Happening.concernsSessions

/-! ## What leaves the session side as it is -/

namespace Relay

theorem sessionSide_note (r : Relay) (h : Happening) :
    (r.note h).sessionSide =
      { r.sessionSide with
        log := r.sessionSide.log ++ if h.concernsSessions then [h] else [] } := by
  cases hc : h.concernsSessions <;> simp [sessionSide, note, hc]

theorem sessionSide_note_of_not {h : Happening} (hc : h.concernsSessions = false) (r : Relay) :
    (r.note h).sessionSide = r.sessionSide := by
  simp [sessionSide_note, hc]

theorem sessionSide_ask {request : Request} (hc : request.concernsSessions = false) (r : Relay) :
    (r.ask request).sessionSide = r.sessionSide :=
  sessionSide_note_of_not (h := .requested request) hc r

theorem sessionSide_report {m : Metric} (hc : m.concernsSessions = false) (verb : EmissionVerb) (value : Binary64)
    (labels : Labels) (r : Relay) : (r.report verb m value labels).sessionSide = r.sessionSide := by
  refine sessionSide_note_of_not ?_ r
  rw [Happening.concernsSessions_emit, hc]

theorem sessionSide_count {m : Metric} (hc : m.concernsSessions = false) (labels : Labels) (r : Relay) :
    (r.count m labels).sessionSide = r.sessionSide :=
  sessionSide_report hc .increment .one labels r

theorem sessionSide_observe {m : Metric} (hc : m.concernsSessions = false) (value : Binary64) (labels : Labels)
    (r : Relay) : (r.observe m value labels).sessionSide = r.sessionSide :=
  sessionSide_report hc .observe value labels r

@[simp] theorem sessionSide_reportTransactions (r : Relay) : r.reportTransactions.sessionSide = r.sessionSide :=
  sessionSide_report (m := .transactionsActive) rfl .set _ [] r

theorem sessionSide_foldl_note {emissions : List Emission}
    (hc : ∀ e ∈ emissions, (Happening.reported e).concernsSessions = false) (r : Relay) :
    (emissions.foldl (fun r e => r.note (.reported e)) r).sessionSide = r.sessionSide := by
  induction emissions generalizing r with
  | nil => rfl
  | cons e rest ih =>
    rw [List.foldl_cons, ih (fun e' he' => hc e' (List.mem_cons_of_mem _ he'))]
    exact sessionSide_note_of_not (hc e (List.mem_cons_self ..)) r

@[simp] theorem sessionSide_withBreaker (r : Relay) (change : Breaker → Breaker) :
    (r.withBreaker change).sessionSide = r.sessionSide := rfl

@[simp] theorem sessionSide_canExecute (r : Relay) (key : String) :
    (r.canExecute key).1.sessionSide = r.sessionSide := rfl

@[simp] theorem sessionSide_recordFailure (r : Relay) (key : String) :
    (r.recordFailure key).sessionSide = r.sessionSide := rfl

@[simp] theorem sessionSide_recordSuccess (r : Relay) (key : String) :
    (r.recordSuccess key).sessionSide = r.sessionSide := rfl

@[simp] theorem sessionSide_updateTransaction (r : Relay) (id : TransactionId)
    (change : TransactionState → TransactionState) :
    (r.updateTransaction id change).sessionSide = r.sessionSide := rfl

theorem sessionSide_update (r : Relay) (id : SessionId) {change : SessionState → SessionState}
    (hphase : ∀ s, (change s).status.phase = s.status.phase) :
    (r.withRegistry fun g => g.update id change).sessionSide = r.sessionSide := by
  simp only [sessionSide, withRegistry, r.registry.outline_update id hphase]
  rfl

@[simp] theorem sessionSide_updateSession (r : Relay) (handle : SessionHandle) (counter : SessionCounter)
    (delta : Nat) : (r.updateSession handle counter delta).1.sessionSide = r.sessionSide := by
  unfold updateSession
  split
  · exact r.sessionSide_update handle.id fun s => (s.bump counter delta).phase_touch r.now
  · rfl

@[simp] theorem sessionSide_bump (r : Relay) (handle : SessionHandle) (counter : SessionCounter) :
    (r.bump handle counter).sessionSide = r.sessionSide :=
  r.sessionSide_updateSession handle counter 1

@[simp] theorem sessionSide_markIdle (r : Relay) (handle : SessionHandle) :
    (r.markIdle handle).1.sessionSide = r.sessionSide := by
  unfold markIdle
  split
  · exact r.sessionSide_update handle.id SessionState.phase_rest
  · rfl

@[simp] theorem sessionSide_recordError (r : Relay) (handle : SessionHandle) (failure : Failure) :
    (r.recordError handle failure).sessionSide = r.sessionSide :=
  r.sessionSide_update handle.id fun _ => rfl

@[simp] theorem sessionSide_registerTransaction (r : Relay) (state : TransactionState) :
    (r.registerTransaction state).1.sessionSide = r.sessionSide := by
  simp only [registerTransaction, sessionSide_reportTransactions]
  rfl

@[simp] theorem sessionSide_clearTransaction (r : Relay) (id : TransactionId) :
    (r.clearTransaction id).1.sessionSide = r.sessionSide := by
  unfold clearTransaction
  split
  · rw [sessionSide_reportTransactions]
    rfl
  · rfl

@[simp] theorem sessionSide_acquireClient (r : Relay) : r.acquireClient.1.sessionSide = r.sessionSide := by
  unfold acquireClient
  dsimp only
  split
  · exact sessionSide_note_of_not (by rfl) r
  · rfl

@[simp] theorem sessionSide_recreateClient (r : Relay) : r.recreateClient.1.sessionSide = r.sessionSide := by
  have hasked : (r.note .clientAsked).sessionSide = r.sessionSide := sessionSide_note_of_not (by rfl) r
  unfold recreateClient
  dsimp only
  split
  · split
    · rw [sessionSide_note_of_not (by rfl)]
      exact hasked
    · exact hasked
  · exact hasked

end Relay

/-! ### Transactions -/

namespace QueryStatistics

/-- The metrics of the numbers among the statistics. -/
def countedMetrics : List Metric :=
  (default : QueryStatistics).counts.map Prod.fst ++ (batchCounts default).map Prod.fst

/-- The metrics that statistics are reported under. -/
def metrics : List Metric := countedMetrics ++ [.queryErrors]

/-- Which numbers there are does not depend on the statistics. -/
theorem mem_countedMetrics {s : QueryStatistics} {p : Metric × Nat}
    (h : p ∈ s.counts ++ (s.batch.map batchCounts).getD []) : p.1 ∈ countedMetrics := by
  rcases List.mem_append.1 h with hcount | hbatch
  · have hmetric : p.1 ∈ s.counts.map Prod.fst := List.mem_map_of_mem hcount
    exact List.mem_append_left _ hmetric
  · cases hb : s.batch with
    | none => simp [hb] at hbatch
    | some b =>
      rw [hb] at hbatch
      have hmetric : p.1 ∈ (batchCounts b).map Prod.fst := List.mem_map_of_mem hbatch
      exact List.mem_append_right _ hmetric

/-- Statistics are reported under their metrics, and no others. -/
theorem exists_metric_of_mem_emissions {s : QueryStatistics} {labels : Labels} {e : Emission}
    (h : e ∈ s.emissions labels) : ∃ m ∈ metrics, ∃ value labels, e = EmissionVerb.increment.emit m value labels := by
  rcases List.mem_append.1 h with hcounted | hnotified
  · obtain ⟨p, hp, rfl⟩ := List.mem_map.1 hcounted
    exact ⟨p.1, List.mem_append_left _ (mem_countedMetrics hp), _, _, rfl⟩
  · obtain ⟨code, -, rfl⟩ := List.mem_map.1 hnotified
    exact ⟨.queryErrors, by simp [metrics], _, _, rfl⟩

theorem emissions_concernsSessions (s : QueryStatistics) (labels : Labels) :
    ∀ e ∈ s.emissions labels, (Happening.reported e).concernsSessions = false := by
  intro e he
  obtain ⟨m, hm, value, labels, rfl⟩ := exists_metric_of_mem_emissions he
  have hmetrics : ∀ m ∈ metrics, m.concernsSessions = false := by decide
  rw [Happening.concernsSessions_emit, hmetrics m hm]

end QueryStatistics

namespace TransactionRun

@[simp] theorem leave_side (t : Transaction) (r : Relay) : (leave t r).sessionSide = r.sessionSide := by
  simp [leave]

@[simp] theorem finish_side (t : Transaction) (outcome : Outcome) (r : Relay) :
    (finish t outcome r).1.sessionSide = r.sessionSide :=
  leave_side t r

@[simp] theorem attempt_side (t : Transaction) (retries : Nat) (r : Relay) :
    (attempt t retries r).1.sessionSide = r.sessionSide := by
  unfold attempt
  dsimp only
  split
  · exact (Relay.sessionSide_ask (by rfl) _).trans (r.sessionSide_canExecute _)
  · exact (finish_side t _ _).trans (r.sessionSide_canExecute _)

@[simp] theorem rollBack_side (t : Transaction) (retries : Nat) (failure : Failure) (r : Relay) :
    (rollBack t retries failure r).1.sessionSide = r.sessionSide :=
  Relay.sessionSide_ask (by rfl) r

@[simp] theorem next_side (t : Transaction) (retries : Nat) (results : List QueryResult)
    (rest : List Statement) (r : Relay) : (next t retries results rest r).1.sessionSide = r.sessionSide := by
  cases rest with
  | nil => exact Relay.sessionSide_ask (by rfl) r
  | cons current rest => exact Relay.sessionSide_ask (by rfl) r

@[simp] theorem noteFailure_side (t : Transaction) (retries : Nat) (failure : Failure) (r : Relay) :
    (noteFailure t retries failure r).sessionSide = r.sessionSide := by
  unfold noteFailure
  dsimp only
  rw [Relay.sessionSide_count (by rfl)]
  simp

@[simp] theorem giveUp_side (t : Transaction) (failure outcome : Failure) (r : Relay) :
    (giveUp t failure outcome r).1.sessionSide = r.sessionSide := by
  unfold giveUp
  rw [finish_side, Relay.sessionSide_count (by rfl), Relay.sessionSide_recordFailure]

@[simp] theorem afterFailure_side (t : Transaction) (retries : Nat) (failure : Failure) (r : Relay) :
    (afterFailure t retries failure r).1.sessionSide = r.sessionSide := by
  unfold afterFailure
  dsimp only
  split
  · rw [giveUp_side, noteFailure_side]
  · split
    · rw [giveUp_side, noteFailure_side]
    · rw [Relay.sessionSide_observe (by rfl), Relay.sessionSide_count (by rfl), noteFailure_side]

@[simp] theorem noteResult_side (t : Transaction) (result : QueryResult) (r : Relay) :
    (noteResult t result r).sessionSide = r.sessionSide := by
  unfold noteResult
  rw [Relay.sessionSide_bump, Relay.sessionSide_count (by rfl),
    Relay.sessionSide_foldl_note (result.statistics.emissions_concernsSessions _)]

@[simp] theorem afterCommit_side (t : Transaction) (results : List QueryResult) (r : Relay) :
    (afterCommit t results r).1.sessionSide = r.sessionSide := by
  unfold afterCommit
  dsimp only
  rw [finish_side, Relay.sessionSide_count (by rfl)]
  simp

theorem start_side (r : Relay) (session : SessionHandle) (statements : List Statement)
    (substrings : Option (List String)) : (start r session statements substrings).1.sessionSide = r.sessionSide := by
  unfold start
  split
  · simp
  · rfl

theorem resume_side (p : TransactionRun) (answer : p.wait.Answer) (r : Relay) :
    (p.resume answer r).1.sessionSide = r.sessionSide := by
  cases p with
  | beginning t retries =>
    cases answer with
    | ok _ =>
      simp only [resume, next_side]
      rw [Relay.sessionSide_count (by rfl), Relay.sessionSide_bump]
    | error e => exact afterFailure_side t retries e r
  | running t retries results current rest =>
    cases answer with
    | ok raw =>
      simp only [resume]
      split
      · rw [next_side, noteResult_side]
      · exact rollBack_side t retries _ r
    | error e => exact rollBack_side t retries e r
  | rollingBack t retries e => exact afterFailure_side t retries e r
  | committing t retries results =>
    cases answer with
    | ok _ => exact afterCommit_side t results r
    | error e => exact rollBack_side t retries e r
  | backingOff t retries delay => simp [resume]

theorem drop_side (p : TransactionRun) (r : Relay) : (p.drop r).sessionSide = r.sessionSide :=
  leave_side p.transaction r

end TransactionRun

/-! ### Clients, reapers and reports -/

theorem Execution.start_side (r : Relay) (routing : RoutingMode) (statement : Statement) :
    (Execution.start r routing statement).1.sessionSide = r.sessionSide := by
  have hacquired := r.sessionSide_acquireClient
  unfold Execution.start
  split
  · rename_i r' client h
    rw [h] at hacquired
    exact (Relay.sessionSide_ask (by rfl) r').trans hacquired
  · rename_i r' e h
    rw [h] at hacquired
    exact hacquired

theorem Execution.resume_side (p : Execution) (answer : p.wait.Answer) (r : Relay) :
    (p.resume answer r).1.sessionSide = r.sessionSide := by
  cases p with
  | executing client database routing statement attempt =>
    cases answer with
    | ok raw => rfl
    | error e =>
      simp only [Execution.resume]
      split <;> rfl
  | delaying span routing statement attempt =>
    have hrecreated := r.sessionSide_recreateClient
    simp only [Execution.resume]
    split
    · rename_i r' client h
      rw [h] at hrecreated
      exact (Relay.sessionSide_ask (by rfl) r').trans hrecreated
    · rename_i r' e h
      rw [h] at hrecreated
      exact hrecreated

theorem ClientClosing.start_side (r : Relay) : (ClientClosing.start r).1.sessionSide = r.sessionSide := by
  unfold ClientClosing.start
  dsimp only
  split
  · rw [Relay.sessionSide_ask (by rfl)]
    rfl
  · rfl

theorem Stopping.start_side (r : Relay) : (Stopping.start r).1.sessionSide = r.sessionSide := by
  have htold : r.tellReaper.1.sessionSide = r.sessionSide := by
    unfold Relay.tellReaper
    split <;> rfl
  unfold Stopping.start
  split
  · rename_i r' h
    rw [h] at htold
    exact htold
  · rename_i r' id h
    rw [h] at htold
    split <;> exact htold

theorem Reaping.settle_side (r : Relay) (id : ReaperId) : (Reaping.settle r id).1.sessionSide = r.sessionSide := by
  unfold Reaping.settle
  split <;> rfl

theorem Operation.finish_side (f : OperationFrame) (outcome : TransactionRun.Outcome) (r : Relay) :
    (Operation.finish f outcome r).1.sessionSide = r.sessionSide := by
  cases outcome with
  | ok _ => exact Relay.sessionSide_observe (by rfl) _ _ r
  | error e =>
    simp only [Operation.finish]
    rw [Relay.sessionSide_count (by rfl), Relay.sessionSide_observe (by rfl)]

end QueryRelay
