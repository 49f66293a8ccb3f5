import QueryRelay.Proofs.Exchange.Invariant
import QueryRelay.Proofs.Session.Side

/-!
# Invariants of the session side

Openings and closings are the only errands that touch the session side of a relay.  Here is what
they do to it, and the induction that follows: a `SessionInvariant` is a property of the session
side, of the remote sessions that the engine opened, and of the openings and closings under way, and
it has to be checked on six changes only.

* `Opening.start_side`, `Opening.resume_side`, `Closing.start_side`, `Closing.resume_side` — the
  four steps that change the session side.
* `SessionInvariant.invariant` — a property that the six changes preserve is an invariant of the
  whole exchange.
-/

namespace QueryRelay

/-! ## Openings and closings -/

/-- What the beginning of a closing makes of a phase. -/
def Phase.close : Phase → Phase
  | live => .closing
  | phase => phase

theorem SessionState.phase_transition_closing (s : SessionState) :
    (s.transition .closing).status.phase = s.status.phase.close := by
  unfold transition
  cases h : s.status <;> simp [SessionStatus.canBecome, SessionStatus.phase, Phase.close, h]

namespace SessionSide

/-- How many places are taken. -/
def occupied (s : SessionSide) : Nat := s.sessions.card + s.pending

/-- The sessions but one. -/
def others (s : SessionSide) (id : SessionId) : Multiset SessionOutline := s.sessions.filter fun o => o.id ≠ id

/-- Takes a place and asks the engine for a session. -/
def reserve (s : SessionSide) (o : Opening) : SessionSide :=
  { s with
    pending := s.pending + 1
    log := s.log ++ [.requested (.openSession o.client o.database o.options)] }

/-- Gives a place back. -/
def release (s : SessionSide) : SessionSide := { s with pending := s.pending - 1 }

/-- The sessions when one more has been opened. -/
def sessionsWith (s : SessionSide) (remote : RemoteSession) : Multiset SessionOutline :=
  ⟨⟨s.nextSerial⟩, remote, .live⟩ ::ₘ s.others ⟨s.nextSerial⟩

/-- The calls that report that a session was opened. -/
def openedReport (o : Opening) (sessions : Nat) : List Happening :=
  [.reported (Metric.sessionsCreated.emit .one [("database", databaseLabel o.database)]),
    .reported (Metric.sessionsActive.emit (.ofNat sessions) [])]

/-- Turns a place into a session, and reports it. -/
def track (s : SessionSide) (o : Opening) (remote : RemoteSession) : SessionSide :=
  { s with
    sessions := s.sessionsWith remote
    pending := s.pending - 1
    nextSerial := s.nextSerial + 1
    log := s.log ++ openedReport o (s.sessionsWith remote).card }

/-- Begins to close a session that is in some phase, and asks the engine for it. -/
def beginClosing (s : SessionSide) (c : Closing) (phase : Phase) : SessionSide :=
  { s with
    sessions := ⟨c.id, c.remote, phase.close⟩ ::ₘ s.others c.id
    log := s.log ++ [.requested (.closeSession c.remote)] }

/-- The calls that report that a session was closed. -/
def closedReport (c : Closing) (reply : Except Failure Unit) (sessions : Nat) : List Happening :=
  [.reported (Metric.sessionsClosed.emit .one
      [("outcome", Closing.outcomeLabel reply), ("database", databaseLabel c.database)]),
    .reported (Metric.sessionsActive.emit (.ofNat sessions) [])]

/-- Drops a session, and reports it. -/
def endClosing (s : SessionSide) (c : Closing) (reply : Except Failure Unit) : SessionSide :=
  { s with
    sessions := s.others c.id
    log := s.log ++ closedReport c reply (s.others c.id).card }

end SessionSide

/-- The places taken on a relay are those taken on its session side. -/
theorem Relay.occupied_sessionSide (r : Relay) : r.sessionSide.occupied = r.registry.occupied := by
  simp [SessionSide.occupied, Registry.occupied, sessionSide, Registry.card_outline]

theorem Relay.sessionSide_release (r : Relay) :
    (r.withRegistry Registry.release).sessionSide = r.sessionSide.release := rfl

namespace Opening

/-- An opening either waits for the engine, and then it has found a free place and taken it; or it is
over at once, and then everything is as it was. -/
theorem start_side (r : Relay) (database : Option String) (options : Option SessionOptions) :
    ((start r database options).2.point? = none ∧
        (start r database options).1.sessionSide = r.sessionSide) ∨
      ∃ o : Opening, (start r database options).2.point? = some o ∧
        r.sessionSide.occupied < r.sessionSide.limits.maxSessions ∧
        (start r database options).1.sessionSide = r.sessionSide.reserve o := by
  unfold start Registry.reserve?
  by_cases hfull : r.settings.limits.maxSessions ≤ r.registry.occupied
  · rw [if_pos hfull]
    exact .inl ⟨rfl, rfl⟩
  · rw [if_neg hfull]
    have hfree : r.sessionSide.occupied < r.sessionSide.limits.maxSessions := by
      rw [r.occupied_sessionSide]
      exact Nat.lt_of_not_le hfull
    set placed : Relay := { r with registry := { r.registry with pending := r.registry.pending + 1 } }
    have hplaced : placed.sessionSide = { r.sessionSide with pending := r.sessionSide.pending + 1 } := rfl
    have hback : ∀ q : Relay, q.sessionSide = placed.sessionSide →
        (q.withRegistry Registry.release).sessionSide = r.sessionSide := by
      intro q hq
      rw [Relay.sessionSide_release, hq, hplaced]
      rfl
    dsimp only
    split
    · have hacquired := (placed.canExecute sessionCreationKey).1.sessionSide_acquireClient
      rw [Relay.sessionSide_canExecute] at hacquired
      split
      · rename_i q client hq
        rw [hq] at hacquired
        refine .inr ⟨_, rfl, hfree, ?_⟩
        dsimp only at hacquired ⊢
        rw [Relay.ask, Relay.sessionSide_note, hacquired, hplaced]
        rfl
      · rename_i q e hq
        rw [hq] at hacquired
        exact .inl ⟨rfl, hback _ hacquired⟩
    · exact .inl ⟨rfl, hback _ (placed.sessionSide_canExecute _)⟩

/-- What the engine's answer makes of the session side: a session, or a place given back. -/
theorem resume_side (o : Opening) (reply : Except Failure RemoteSession) (r : Relay) :
    (o.resume reply r).1.sessionSide =
      match reply with
      | .ok remote => r.sessionSide.track o remote
      | .error _ => r.sessionSide.release := by
  cases reply with
  | ok remote =>
    have hsessions : (r.registry.track o.database remote r.now).1.outline = r.sessionSide.sessionsWith remote := by
      simp only [Registry.track, Registry.outline, SessionSide.sessionsWith, SessionSide.others]
      rw [Multiset.coe_eq_coe.2 ((Table.entries_insert_perm _ _ _).map SessionOutline.of), List.map_cons,
        ← Multiset.cons_coe, Registry.outline_erase]
      rfl
    have hsize : (r.registry.track o.database remote r.now).1.sessions.size =
        (r.sessionSide.sessionsWith remote).card := by
      rw [← hsessions, Registry.card_outline]
    simp only [resume, Relay.reportSessions, Relay.gauge, Relay.count, Relay.report, Relay.sessionSide_note,
      Happening.concernsSessions_emit, Metric.concernsSessions, if_true, List.append_assoc]
    simp only [SessionSide.track, SessionSide.openedReport, Relay.sessionSide, Relay.note,
      Relay.recordSuccess, Relay.withBreaker, hsessions, hsize]
    rfl
  | error e =>
    simp only [resume]
    rw [Relay.sessionSide_release]
    split <;> simp

end Opening

namespace Closing

/-- A closing either waits for the engine, and then the session was tracked and not being closed; or
there is nothing to do, and everything is as it was. -/
theorem start_side (r : Relay) (id : SessionId) :
    ((start r id).2.point? = none ∧ (start r id).1.sessionSide = r.sessionSide) ∨
      ∃ (c : Closing) (phase : Phase), (start r id).2.point? = some c ∧ c.id = id ∧ phase ≠ .closing ∧
        r.sessionSide.sessions = ⟨id, c.remote, phase⟩ ::ₘ r.sessionSide.others id ∧
        (start r id).1.sessionSide = r.sessionSide.beginClosing c phase := by
  unfold start
  cases hget : r.registry.sessions.get? id with
  | none => exact .inl ⟨rfl, rfl⟩
  | some t =>
    dsimp only
    by_cases hclosing : t.state.status = .closing
    · rw [if_pos hclosing]
      exact .inl ⟨rfl, rfl⟩
    · rw [if_neg hclosing]
      refine .inr ⟨_, t.state.status.phase, rfl, rfl,
        fun h => hclosing (SessionStatus.phase_eq_closing_iff.1 h), ?_, ?_⟩
      · have hperm := (Table.entries_perm_of_get? hget).map SessionOutline.of
        simp only [Relay.sessionSide, SessionSide.others]
        rw [← Registry.outline_erase, Multiset.cons_coe]
        exact Multiset.coe_eq_coe.2 hperm
      · have hperm := (Table.entries_modify_perm hget fun t =>
          { t with state := t.state.transition .closing }).map SessionOutline.of
        have hsessions : (r.registry.update id fun s => s.transition .closing).outline =
            ⟨id, t.remote, t.state.status.phase.close⟩ ::ₘ r.sessionSide.others id := by
          simp only [Registry.outline, Registry.update, SessionSide.others]
          rw [Multiset.coe_eq_coe.2 hperm, List.map_cons, ← Multiset.cons_coe, Registry.outline_erase,
            ← t.state.phase_transition_closing]
          rfl
        simp only [Relay.ask, Relay.sessionSide_note, SessionSide.beginClosing, Happening.concernsSessions,
          Request.concernsSessions, if_true]
        simp only [Relay.sessionSide, Relay.withRegistry, hsessions]
        rfl

/-- When the engine has answered, the session is dropped whatever the answer. -/
theorem resume_side (c : Closing) (reply : Except Failure Unit) (r : Relay) :
    (c.resume reply r).1.sessionSide = r.sessionSide.endClosing c reply := by
  have hsessions : (r.registry.remove c.id).outline = r.sessionSide.others c.id := r.registry.outline_remove c.id
  have hsize : (r.registry.remove c.id).sessions.size = (r.sessionSide.others c.id).card := by
    rw [← hsessions, Registry.card_outline]
  simp only [resume, Relay.reportSessions, Relay.gauge, Relay.count, Relay.report, Relay.sessionSide_note,
    Happening.concernsSessions_emit, Metric.concernsSessions, if_true, List.append_assoc]
  simp only [SessionSide.endClosing, SessionSide.closedReport, Relay.sessionSide, Relay.note,
    Relay.withRegistry, hsessions, hsize]
  rfl

end Closing

/-! ## Errands and deeds that do not concern sessions -/

/-- Whether an errand is an opening or a closing. -/
def Errand.concernsSessions : Errand → Bool
  | opening _ => true
  | closing _ => true
  | _ => false

/-- Whether a deed opens or closes a session. -/
def Deed.concernsSessions : Deed → Bool
  | openSession _ _ => true
  | closeSession _ => true
  | _ => false

/-- What holds of all errands of some kind holds of the one that a call waits with. -/
theorem forall_mem_map_point? {σ α : Type} {errand : σ → Errand} {P : Errand → Prop}
    (h : ∀ point, P (errand point)) (p : Progress σ α) : ∀ e ∈ p.point?.map errand, P e := by
  rintro e he
  obtain ⟨point, -, rfl⟩ := Option.map_eq_some_iff.1 he
  exact h point

/-- A deed that does not concern sessions leaves the session side as it is, and begins no errand
that concerns them. -/
theorem Deed.perform_side {d : Deed} (h : d.concernsSessions = false) (r : Relay) :
    (d.perform r).1.sessionSide = r.sessionSide ∧ ∀ e ∈ (d.perform r).2, e.concernsSessions = false := by
  cases d with
  | openSession database options => exact absurd h (by simp [concernsSessions])
  | closeSession id => exact absurd h (by simp [concernsSessions])
  | transact session statements substrings =>
    exact ⟨TransactionRun.start_side r session statements substrings, forall_mem_map_point? (fun _ => by rfl) _⟩
  | execute routing statement =>
    exact ⟨Execution.start_side r routing statement, forall_mem_map_point? (fun _ => by rfl) _⟩
  | closeClient => exact ⟨ClientClosing.start_side r, forall_mem_map_point? (fun _ => by rfl) _⟩
  | startReaper =>
    refine ⟨?_, by simp [perform]⟩
    simp only [perform, Relay.startReaper]
    split <;> rfl
  | stopReaper => exact ⟨Stopping.start_side r, forall_mem_map_point? (fun _ => by rfl) _⟩
  | settleReaper reaper =>
    refine ⟨Reaping.settle_side r reaper, ?_⟩
    simp only [perform, Reaping.settle]
    split <;> simp [Progress.point?, Reaping.errand, Errand.concernsSessions]
  | update session counter delta => exact ⟨r.sessionSide_updateSession session counter delta, by simp [perform]⟩
  | markIdle session => exact ⟨r.sessionSide_markIdle session, by simp [perform]⟩
  | recordError session failure => exact ⟨r.sessionSide_recordError session failure, by simp [perform]⟩
  | acquireClient => exact ⟨r.sessionSide_acquireClient, by simp [perform]⟩
  | recreateClient => exact ⟨r.sessionSide_recreateClient, by simp [perform]⟩
  | recordFailure key => exact ⟨rfl, by simp [perform]⟩
  | recordSuccess key => exact ⟨rfl, by simp [perform]⟩
  | canExecute key => exact ⟨rfl, by simp [perform]⟩
  | forget key => exact ⟨rfl, by simp [perform]⟩
  | clear id => exact ⟨r.sessionSide_clearTransaction id, by simp [perform]⟩
  | finish f outcome => exact ⟨Operation.finish_side f outcome r, by simp [perform]⟩

namespace Errand

/-- The end of an errand that does not concern sessions leaves the session side as it is, and the
errand does not turn into one that does. -/
theorem resume_side (answers : Answers) {e : Errand} (h : e.concernsSessions = false) (r : Relay) :
    (e.resume answers r).1.sessionSide = r.sessionSide ∧
      ∀ e' ∈ (e.resume answers r).2, e'.concernsSessions = false := by
  cases e with
  | opening o => exact absurd h (by simp [concernsSessions])
  | closing c => exact absurd h (by simp [concernsSessions])
  | transacting t => exact ⟨t.resume_side _ r, forall_mem_map_point? (fun _ => by rfl) _⟩
  | executing e => exact ⟨e.resume_side _ r, forall_mem_map_point? (fun _ => by rfl) _⟩
  | closingClient c => exact ⟨rfl, by simp [resume]⟩
  | resting reaper interval => exact ⟨rfl, by simp [resume]⟩
  | stopping s => exact ⟨rfl, by simp [resume]⟩

theorem drop_side {e : Errand} (h : e.concernsSessions = false) (r : Relay) :
    (e.drop r).sessionSide = r.sessionSide := by
  cases e with
  | opening o => exact absurd h (by simp [concernsSessions])
  | transacting t => exact t.drop_side r
  | _ => rfl

end Errand

/-! ## What the engine opened -/

/-- The remote session that a call was told the engine had opened. -/
def Heard.opened? : Heard → Option RemoteSession
  | ⟨.reply (.openSession _ _ _), .ok remote⟩ => some remote
  | _ => none

theorem Heard.opened?_opening (answers : Answers) (o : Opening) :
    Heard.opened? ⟨(Errand.opening o).wait, answers (Errand.opening o).wait⟩ = (answers o.wait).toOption := by
  simp only [Errand.wait]
  cases answers o.wait <;> simp [opened?, Except.toOption]

theorem Heard.opened?_of_not_opening {e : Errand} (h : ∀ o, e ≠ .opening o) (answers : Answers) :
    Heard.opened? ⟨e.wait, answers e.wait⟩ = none := by
  cases e with
  | opening o => exact absurd rfl (h o)
  | transacting t => cases t <;> rfl
  | executing e => cases e <;> rfl
  | _ => rfl

/-- The remote sessions that the engine opened, one after the other. -/
def Exchange.opened (x : Exchange) : List RemoteSession := x.heard.filterMap Heard.opened?

/-! ## The induction -/

/-- The openings and closings among some errands. -/
def sessionErrands (errands : Multiset Errand) : Multiset Errand := errands.filter fun e => e.concernsSessions

theorem sessionErrands_opening (o : Opening) (errands : Multiset Errand) :
    sessionErrands (.opening o ::ₘ errands) = .opening o ::ₘ sessionErrands errands :=
  Multiset.filter_cons_of_pos errands rfl

theorem sessionErrands_closing (c : Closing) (errands : Multiset Errand) :
    sessionErrands (.closing c ::ₘ errands) = .closing c ::ₘ sessionErrands errands :=
  Multiset.filter_cons_of_pos errands rfl

theorem sessionErrands_withErrand_of_not {errands : Multiset Errand} {e? : Option Errand}
    (h : ∀ e ∈ e?, e.concernsSessions = false) : sessionErrands (withErrand errands e?) = sessionErrands errands := by
  cases e? with
  | none => rfl
  | some e => simp [withErrand, sessionErrands, h e rfl]

/-- A property of the session side, of the remote sessions that the engine opened, and of the
openings and closings under way, which the six changes of the session side preserve. -/
structure SessionInvariant (P : SessionSide → List RemoteSession → Multiset Errand → Prop) : Prop where
  reserve : ∀ (o : Opening) {s : SessionSide} {opened : List RemoteSession} {errands : Multiset Errand},
    P s opened errands → s.occupied < s.limits.maxSessions →
      P (s.reserve o) opened (.opening o ::ₘ errands)
  track : ∀ (o : Opening) (remote : RemoteSession) {s : SessionSide} {opened : List RemoteSession}
    {errands : Multiset Errand},
    P s opened (.opening o ::ₘ errands) → P (s.track o remote) (opened ++ [remote]) errands
  release : ∀ (o : Opening) {s : SessionSide} {opened : List RemoteSession} {errands : Multiset Errand},
    P s opened (.opening o ::ₘ errands) → P s.release opened errands
  beginClosing : ∀ (c : Closing) (phase : Phase) {s : SessionSide} {opened : List RemoteSession}
    {errands : Multiset Errand},
    P s opened errands → phase ≠ .closing → s.sessions = ⟨c.id, c.remote, phase⟩ ::ₘ s.others c.id →
      P (s.beginClosing c phase) opened (.closing c ::ₘ errands)
  endClosing : ∀ (c : Closing) (reply : Except Failure Unit) {s : SessionSide} {opened : List RemoteSession}
    {errands : Multiset Errand},
    P s opened (.closing c ::ₘ errands) → P (s.endClosing c reply) opened errands
  dropClosing : ∀ (c : Closing) {s : SessionSide} {opened : List RemoteSession} {errands : Multiset Errand},
    P s opened (.closing c ::ₘ errands) → P s opened errands

namespace SessionInvariant

variable {P : SessionSide → List RemoteSession → Multiset Errand → Prop}

/-- **The induction over what happens to sessions.**  What the six changes preserve holds after
every run. -/
theorem invariant (inv : SessionInvariant P) :
    Invariant fun r heard errands =>
      P r.sessionSide (heard.filterMap Heard.opened?) (sessionErrands errands) where
  perform := by
    intro d r heard errands hr
    by_cases hd : d.concernsSessions = false
    · obtain ⟨hside, hcalm⟩ := Deed.perform_side hd r
      rw [hside, sessionErrands_withErrand_of_not hcalm]
      exact hr
    cases d with
    | openSession database options =>
      rcases Opening.start_side r database options with ⟨hpoint, hside⟩ | ⟨o, hpoint, hfree, hside⟩
      · simp only [Deed.perform, hpoint, hside, Option.map_none, withErrand]
        exact hr
      · simp only [Deed.perform, hpoint, hside, Option.map_some, withErrand, sessionErrands_opening]
        exact inv.reserve o hr hfree
    | closeSession id =>
      rcases Closing.start_side r id with ⟨hpoint, hside⟩ | ⟨c, phase, hpoint, rfl, hphase, hsessions, hside⟩
      · simp only [Deed.perform, hpoint, hside, Option.map_none, withErrand]
        exact hr
      · simp only [Deed.perform, hpoint, hside, Option.map_some, withErrand, sessionErrands_closing]
        exact inv.beginClosing c phase hr hphase hsessions
    | _ => exact absurd rfl hd
  resume := by
    intro answers e r heard errands hr
    by_cases he : e.concernsSessions = false
    · obtain ⟨hside, hcalm⟩ := Errand.resume_side answers he r
      have hheard : Heard.opened? ⟨e.wait, answers e.wait⟩ = none :=
        Heard.opened?_of_not_opening (by rintro o rfl; exact absurd he (by simp [Errand.concernsSessions])) answers
      have hsame : sessionErrands (e ::ₘ errands) = sessionErrands errands := by simp [sessionErrands, he]
      rw [hside, sessionErrands_withErrand_of_not hcalm, List.filterMap_append,
        List.filterMap_cons_none hheard, List.filterMap_nil, List.append_nil, ← hsame]
      exact hr
    cases e with
    | opening o =>
      rw [sessionErrands_opening] at hr
      rw [List.filterMap_append, List.filterMap_cons, Heard.opened?_opening]
      simp only [Errand.resume, withErrand, Opening.resume_side, List.filterMap_nil]
      cases answers o.wait with
      | ok remote => exact inv.track o remote hr
      | error failure => simpa [Except.toOption] using inv.release o hr
    | closing c =>
      rw [sessionErrands_closing] at hr
      have hheard := Heard.opened?_of_not_opening (e := .closing c) (by simp) answers
      rw [List.filterMap_append, List.filterMap_cons_none hheard, List.filterMap_nil, List.append_nil]
      simp only [Errand.resume, withErrand, Closing.resume_side]
      exact inv.endClosing c _ hr
    | _ => exact absurd rfl he
  drop := by
    intro e r heard errands hr
    by_cases he : e.concernsSessions = false
    · have hsame : sessionErrands (e ::ₘ errands) = sessionErrands errands := by simp [sessionErrands, he]
      rw [Errand.drop_side he, ← hsame]
      exact hr
    cases e with
    | opening o =>
      rw [sessionErrands_opening] at hr
      exact inv.release o hr
    | closing c =>
      rw [sessionErrands_closing] at hr
      exact inv.dropClosing c hr
    | _ => exact absurd rfl he
  elapse := by
    intro span r heard errands hr
    exact hr

end SessionInvariant

end QueryRelay
