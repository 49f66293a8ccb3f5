import Mathlib.Algebra.BigOperators.Group.List.Basic
import Mathlib.Data.Multiset.Filter
import Mathlib.Tactic.Linarith
import QueryRelay.Proofs.Binary64.Value
import QueryRelay.Proofs.Session.Invariant

/-!
# Every session is retired exactly once

While a closing waits for the engine, counters of the session may change, it may be marked idle,
swept, and closed again by others.  None of it moves the session out of the status *closing*, so that
no second closing begins, and nothing is counted twice.

* `Orderly` — half of the invariant: identifiers are distinct and known, no tracked session has ended,
  and every closing under way has its session to itself.
* `Accounted` — the other half: every remote session was asked to close as often as it was opened and
  is no longer live, and the counters and the gauge agree with the registry.
* `Advances` — what a run never undoes: a closing session stays so until it is dropped, and an
  identifier that was dropped does not come back.
* `sessions_retired_once` — **what both say about every run**, put together in `RetiresOnce`.
-/

namespace QueryRelay

/-! ## What the log says -/

/-- Whether something seen from outside is a request to close this remote session. -/
def Happening.isCloseOf (remote : RemoteSession) : Happening → Bool
  | requested (.closeSession closed) => decide (closed = remote)
  | _ => false

/-- How often the engine was asked to close a remote session. -/
def closeRequests (remote : RemoteSession) (log : List Happening) : Nat := log.countP (Happening.isCloseOf remote)

/-- The value that the sessions, transactions and operations report for a metric. -/
def Happening.value? (m : Metric) : Happening → Option Binary64
  | reported e => if e.name = m.name then some e.value else none
  | _ => none

/-- The values reported for a metric, whatever the labels. -/
def reportedValues (m : Metric) (log : List Happening) : List Binary64 := log.filterMap (Happening.value? m)

/-- The sum of the values reported for a metric, over all labels. -/
def reportedTotal (m : Metric) (log : List Happening) : ℚ := ((reportedValues m log).map Binary64.toRat).sum

/-- The last value reported for a metric. -/
def lastReported? (m : Metric) (log : List Happening) : Option Binary64 := (reportedValues m log).getLast?

theorem closeRequests_append (remote : RemoteSession) (log more : List Happening) :
    closeRequests remote (log ++ more) = closeRequests remote log + closeRequests remote more :=
  List.countP_append

theorem reportedTotal_append (m : Metric) (log more : List Happening) :
    reportedTotal m (log ++ more) = reportedTotal m log + reportedTotal m more := by
  simp [reportedTotal, reportedValues, List.filterMap_append]

theorem lastReported?_append_of_ne_nil {m : Metric} {more : List Happening}
    (h : reportedValues m more ≠ []) (log : List Happening) :
    lastReported? m (log ++ more) = lastReported? m more := by
  unfold reportedValues at h
  unfold lastReported? reportedValues
  rw [List.filterMap_append, List.getLast?_append_of_ne_nil _ h]

theorem lastReported?_append_of_nil {m : Metric} {more : List Happening}
    (h : reportedValues m more = []) (log : List Happening) : lastReported? m (log ++ more) = lastReported? m log := by
  unfold reportedValues at h
  unfold lastReported? reportedValues
  rw [List.filterMap_append, h, List.append_nil]

/-! ### The part of the log that is about sessions says it all -/

theorem Happening.concernsSessions_of_isCloseOf {remote : RemoteSession} {h : Happening}
    (hclose : h.isCloseOf remote = true) : h.concernsSessions = true := by
  unfold isCloseOf at hclose
  split at hclose
  · rfl
  · exact absurd hclose (by simp)

theorem Happening.concernsSessions_of_value? {m : Metric} (hm : m.concernsSessions = true) {h : Happening}
    (hvalue : h.value? m ≠ none) : h.concernsSessions = true := by
  cases h with
  | reported e =>
    have hname : e.name = m.name := by
      by_contra hne
      exact hvalue (by simp [value?, hne])
    cases m <;> simp_all [Metric.concernsSessions, concernsSessions]
  | _ => exact absurd rfl hvalue

theorem closeRequests_filter (remote : RemoteSession) (log : List Happening) :
    closeRequests remote (log.filter Happening.concernsSessions) = closeRequests remote log := by
  unfold closeRequests
  rw [List.countP_filter]
  refine List.countP_congr fun h _ => ?_
  constructor
  · intro hboth
    exact (Bool.and_eq_true_iff.1 (by simpa using hboth)).1
  · intro hclose
    simp [hclose, Happening.concernsSessions_of_isCloseOf hclose]

theorem reportedValues_filter {m : Metric} (hm : m.concernsSessions = true) (log : List Happening) :
    reportedValues m (log.filter Happening.concernsSessions) = reportedValues m log := by
  unfold reportedValues
  rw [List.filterMap_filter]
  refine List.filterMap_congr fun h _ => ?_
  by_cases hc : h.concernsSessions = true
  · rw [if_pos hc]
  · rw [if_neg hc]
    by_contra hvalue
    exact hc (Happening.concernsSessions_of_value? hm (Ne.symm hvalue))

/-! ## The sessions but one -/

namespace SessionSide

theorem mem_others {s : SessionSide} {id : SessionId} {o : SessionOutline} :
    o ∈ s.others id ↔ o ∈ s.sessions ∧ o.id ≠ id := by
  simp [others]

/-- Where identifiers are distinct, a session is apart from the sessions with other identifiers. -/
theorem sessions_eq_cons_others {s : SessionSide} (hdistinct : (s.sessions.map SessionOutline.id).Nodup)
    {o : SessionOutline} (ho : o ∈ s.sessions) : s.sessions = o ::ₘ s.others o.id := by
  obtain ⟨rest, hrest⟩ := Multiset.exists_cons_of_mem ho
  rw [hrest, Multiset.map_cons, Multiset.nodup_cons] at hdistinct
  have hself : rest.filter (fun o' => o'.id ≠ o.id) = rest := by
    refine Multiset.filter_eq_self.2 fun o' ho' heq => hdistinct.1 ?_
    exact heq ▸ Multiset.mem_map_of_mem SessionOutline.id ho'
  rw [others, hrest, Multiset.filter_cons_of_neg _ (by simp), hself]

theorem others_eq_self {s : SessionSide} {id : SessionId} (h : ∀ o ∈ s.sessions, o.id ≠ id) :
    s.others id = s.sessions :=
  Multiset.filter_eq_self.2 h

end SessionSide

/-! ## The invariant -/

/-- The session that an errand is about to retire. -/
def Errand.retires? : Errand → Option SessionId
  | closing c => some c.id
  | _ => none

/-- The sessions that some errands are about to retire. -/
def retiring (errands : Multiset Errand) : Multiset SessionId := errands.filterMap Errand.retires?

theorem retiring_opening (o : Opening) (errands : Multiset Errand) :
    retiring (.opening o ::ₘ errands) = retiring errands :=
  Multiset.filterMap_cons_none _ _ rfl

theorem retiring_closing (c : Closing) (errands : Multiset Errand) :
    retiring (.closing c ::ₘ errands) = c.id ::ₘ retiring errands :=
  Multiset.filterMap_cons_some Errand.retires? _ _ rfl

theorem mem_retiring {c : Closing} {errands : Multiset Errand} (h : .closing c ∈ errands) :
    c.id ∈ retiring errands :=
  (Multiset.mem_filterMap _ _).2 ⟨.closing c, h, rfl⟩

/-- How many of some sessions belong to a remote session that nobody has asked to close. -/
def liveOn (remote : RemoteSession) (sessions : Multiset SessionOutline) : Nat :=
  sessions.countP fun o => o.remote = remote ∧ o.phase = .live

theorem liveOn_cons (remote : RemoteSession) (o : SessionOutline) (sessions : Multiset SessionOutline) :
    liveOn remote (o ::ₘ sessions) =
      liveOn remote sessions + if o.remote = remote ∧ o.phase = .live then 1 else 0 := by
  unfold liveOn
  rw [Multiset.countP_cons]

theorem closeRequests_closeSession (remote closed : RemoteSession) :
    closeRequests remote [.requested (.closeSession closed)] = if closed = remote then 1 else 0 := by
  simp [closeRequests, List.countP_cons, Happening.isCloseOf]

/-- Which sessions there are, and who retires them. -/
structure Orderly (s : SessionSide) (errands : Multiset Errand) : Prop where
  distinct : (s.sessions.map SessionOutline.id).Nodup
  /-- Identifiers still to be given out are not in use. -/
  known : ∀ o ∈ s.sessions, o.id.serial < s.nextSerial
  tracked : ∀ o ∈ s.sessions, o.phase ≠ .ended
  exclusive : (retiring errands).Nodup
  /-- A session is closing while somebody retires it. -/
  underway : ∀ c : Closing, .closing c ∈ errands → ⟨c.id, c.remote, .closing⟩ ∈ s.sessions

/-- What was asked of the engine and reported goes with the sessions that there are. -/
structure Accounted (s : SessionSide) (opened : List RemoteSession) : Prop where
  /-- A remote session was opened once more whenever it was asked to close, or is live. -/
  closes : ∀ remote, closeRequests remote s.log + liveOn remote s.sessions = opened.count remote
  balance : reportedTotal .sessionsCreated s.log = reportedTotal .sessionsClosed s.log + s.sessions.card
  gauge : ∀ value ∈ lastReported? .sessionsActive s.log, value = .ofNat s.sessions.card

/-! ### What the reports say -/

namespace SessionSide

theorem reportedValues_openedReport (o : Opening) (sessions : Nat) (m : Metric) :
    reportedValues m (openedReport o sessions) =
      match m with
      | .sessionsCreated => [.one]
      | .sessionsActive => [.ofNat sessions]
      | _ => [] := by
  cases m <;> rfl

theorem reportedValues_closedReport (c : Closing) (reply : Except Failure Unit) (sessions : Nat) (m : Metric) :
    reportedValues m (closedReport c reply sessions) =
      match m with
      | .sessionsClosed => [.one]
      | .sessionsActive => [.ofNat sessions]
      | _ => [] := by
  cases m <;> rfl

end SessionSide

theorem reportedTotal_eq_zero {m : Metric} {log : List Happening} (h : reportedValues m log = []) :
    reportedTotal m log = 0 := by
  rw [reportedTotal, h]
  rfl

theorem reportedTotal_requested (m : Metric) (request : Request) : reportedTotal m [.requested request] = 0 :=
  reportedTotal_eq_zero rfl

theorem reportedTotal_eq_one {m : Metric} {log : List Happening} (h : reportedValues m log = [.one]) :
    reportedTotal m log = 1 := by
  rw [reportedTotal, h]
  simp

theorem lastReported?_eq_some {m : Metric} {log : List Happening} {value : Binary64}
    (h : reportedValues m log = [value]) : lastReported? m log = some value := by
  rw [lastReported?, h]
  rfl

/-! ### Which sessions there are -/

namespace Orderly

variable {s : SessionSide} {errands : Multiset Errand}

/-- Nothing but the errands has to be looked at when some of them are over. -/
theorem of_errands {errands' : Multiset Errand} (h : Orderly s errands) (hexclusive : (retiring errands').Nodup)
    (hsub : ∀ c : Closing, .closing c ∈ errands' → .closing c ∈ errands) : Orderly s errands' :=
  { h with exclusive := hexclusive, underway := fun c hc => h.underway c (hsub c hc) }

theorem with_opening (o : Opening) (h : Orderly s errands) : Orderly s (.opening o ::ₘ errands) :=
  h.of_errands ((retiring_opening o errands).symm ▸ h.exclusive) fun c hc => by simpa using hc

theorem without_opening {o : Opening} (h : Orderly s (.opening o ::ₘ errands)) : Orderly s errands :=
  h.of_errands (retiring_opening o errands ▸ h.exclusive) fun _ hc => Multiset.mem_cons_of_mem hc

theorem without_closing {c : Closing} (h : Orderly s (.closing c ::ₘ errands)) : Orderly s errands :=
  h.of_errands (Multiset.nodup_cons.1 (retiring_closing c errands ▸ h.exclusive)).2
    fun _ hc => Multiset.mem_cons_of_mem hc

/-- Where the sessions are the same, nothing changes. -/
theorem of_sessions {s' : SessionSide} (h : Orderly s errands) (hsessions : s'.sessions = s.sessions)
    (hserial : s'.nextSerial = s.nextSerial) : Orderly s' errands where
  distinct := hsessions ▸ h.distinct
  known := by
    rw [hsessions, hserial]
    exact h.known
  tracked := hsessions ▸ h.tracked
  exclusive := h.exclusive
  underway := hsessions ▸ h.underway

/-- The identifier to be given out next is new. -/
theorem id_ne_nextSerial (h : Orderly s errands) : ∀ o ∈ s.sessions, o.id ≠ ⟨s.nextSerial⟩ := by
  intro o ho hid
  have hknown := h.known o ho
  rw [hid] at hknown
  exact Nat.lt_irrefl _ hknown

theorem sessionsWith_eq (h : Orderly s errands) (remote : RemoteSession) :
    s.sessionsWith remote = ⟨⟨s.nextSerial⟩, remote, .live⟩ ::ₘ s.sessions := by
  rw [SessionSide.sessionsWith, SessionSide.others_eq_self h.id_ne_nextSerial]

theorem track (o : Opening) (remote : RemoteSession) (h : Orderly s errands) :
    Orderly (s.track o remote) errands := by
  unfold SessionSide.track
  rw [h.sessionsWith_eq]
  refine { distinct := ?_, known := ?_, tracked := ?_, exclusive := h.exclusive, underway := ?_ }
  · rw [Multiset.map_cons, Multiset.nodup_cons]
    refine ⟨fun hmem => ?_, h.distinct⟩
    obtain ⟨o', ho', hid⟩ := Multiset.mem_map.1 hmem
    exact h.id_ne_nextSerial o' ho' hid
  · intro o' ho'
    rcases Multiset.mem_cons.1 ho' with rfl | hold
    · exact Nat.lt_succ_self _
    · exact Nat.lt_succ_of_lt (h.known o' hold)
  · intro o' ho'
    rcases Multiset.mem_cons.1 ho' with rfl | hold
    · exact Phase.noConfusion
    · exact h.tracked o' hold
  · intro c hc
    exact Multiset.mem_cons_of_mem (h.underway c hc)

/-- Only a live session can begin to be closed: the others are closing already. -/
theorem phase_eq_live {c : Closing} {phase : Phase} (h : Orderly s errands) (hphase : phase ≠ .closing)
    (hsessions : s.sessions = ⟨c.id, c.remote, phase⟩ ::ₘ s.others c.id) : phase = .live := by
  have htracked := h.tracked ⟨c.id, c.remote, phase⟩ (hsessions ▸ Multiset.mem_cons_self _ _)
  cases phase with
  | live => rfl
  | closing => exact absurd rfl hphase
  | ended => exact absurd rfl htracked

/-- A closing under way does not retire a session that is live. -/
theorem id_ne_of_live {c c' : Closing} (h : Orderly s errands)
    (hsessions : s.sessions = ⟨c.id, c.remote, .live⟩ ::ₘ s.others c.id) (hc' : .closing c' ∈ errands) :
    c'.id ≠ c.id := by
  intro hid
  have hmem := h.underway c' hc'
  rw [hsessions, hid] at hmem
  rcases Multiset.mem_cons.1 hmem with heq | hrest
  · simp at heq
  · exact (SessionSide.mem_others.1 hrest).2 rfl

theorem beginClosing (c : Closing) (h : Orderly s errands)
    (hsessions : s.sessions = ⟨c.id, c.remote, .live⟩ ::ₘ s.others c.id) :
    Orderly (s.beginClosing c .live) (.closing c ::ₘ errands) := by
  have hothers : ∀ o ∈ s.others c.id, o ∈ s.sessions := fun o ho => (SessionSide.mem_others.1 ho).1
  refine { distinct := ?_, known := ?_, tracked := ?_, exclusive := ?_, underway := ?_ }
  · have hdistinct := h.distinct
    rw [hsessions, Multiset.map_cons] at hdistinct
    simp only [SessionSide.beginClosing, Multiset.map_cons]
    exact hdistinct
  · intro o ho
    rcases Multiset.mem_cons.1 ho with rfl | hold
    · exact h.known ⟨c.id, c.remote, .live⟩ (hsessions ▸ Multiset.mem_cons_self _ _)
    · exact h.known o (hothers o hold)
  · intro o ho
    rcases Multiset.mem_cons.1 ho with rfl | hold
    · exact Phase.noConfusion
    · exact h.tracked o (hothers o hold)
  · rw [retiring_closing, Multiset.nodup_cons]
    refine ⟨fun hmem => ?_, h.exclusive⟩
    obtain ⟨e, he, hid⟩ := (Multiset.mem_filterMap _ _).1 hmem
    cases e with
    | closing c' => exact h.id_ne_of_live hsessions he (Option.some.inj hid)
    | _ => exact absurd hid (by simp [Errand.retires?])
  · intro c' hc'
    rcases Multiset.mem_cons.1 hc' with heq | hold
    · cases heq
      exact Multiset.mem_cons_self _ _
    · have hmem := SessionSide.mem_others.2 ⟨h.underway c' hold, h.id_ne_of_live hsessions hold⟩
      exact Multiset.mem_cons_of_mem hmem

/-- The session that a closing under way retires, apart from the others. -/
theorem sessions_eq_of_closing {c : Closing} (h : Orderly s (.closing c ::ₘ errands)) :
    s.sessions = ⟨c.id, c.remote, .closing⟩ ::ₘ s.others c.id :=
  SessionSide.sessions_eq_cons_others h.distinct (h.underway c (Multiset.mem_cons_self _ _))

theorem endClosing (c : Closing) (reply : Except Failure Unit) (h : Orderly s (.closing c ::ₘ errands)) :
    Orderly (s.endClosing c reply) errands := by
  have hothers : ∀ o ∈ s.others c.id, o ∈ s.sessions := fun o ho => (SessionSide.mem_others.1 ho).1
  have hexclusive := h.exclusive
  rw [retiring_closing, Multiset.nodup_cons] at hexclusive
  refine { distinct := ?_, known := ?_, tracked := ?_, exclusive := hexclusive.2, underway := ?_ }
  · have hdistinct := h.distinct
    rw [h.sessions_eq_of_closing, Multiset.map_cons, Multiset.nodup_cons] at hdistinct
    exact hdistinct.2
  · intro o ho
    exact h.known o (hothers o ho)
  · intro o ho
    exact h.tracked o (hothers o ho)
  · intro c' hc'
    refine SessionSide.mem_others.2 ⟨h.underway c' (Multiset.mem_cons_of_mem hc'), fun hid => hexclusive.1 ?_⟩
    exact hid ▸ mem_retiring hc'

end Orderly

/-! ### What was asked and reported -/

namespace Accounted

variable {s : SessionSide} {opened : List RemoteSession} {errands : Multiset Errand}

theorem reserve (o : Opening) (h : Accounted s opened) : Accounted (s.reserve o) opened where
  closes := by
    intro remote
    rw [← h.closes remote, SessionSide.reserve, closeRequests_append]
    rfl
  balance := by
    have hbalance := h.balance
    rw [SessionSide.reserve, reportedTotal_append, reportedTotal_append, hbalance,
      reportedTotal_requested, reportedTotal_requested]
    simp
  gauge := by
    rw [SessionSide.reserve, lastReported?_append_of_nil (by rfl)]
    exact h.gauge

theorem release (h : Accounted s opened) : Accounted s.release opened := ⟨h.closes, h.balance, h.gauge⟩

theorem track (o : Opening) (remote : RemoteSession) (horderly : Orderly s errands) (h : Accounted s opened) :
    Accounted (s.track o remote) (opened ++ [remote]) := by
  unfold SessionSide.track
  rw [horderly.sessionsWith_eq]
  refine { closes := ?_, balance := ?_, gauge := ?_ }
  · intro other
    have hquiet : closeRequests other
        (SessionSide.openedReport o (⟨⟨s.nextSerial⟩, remote, .live⟩ ::ₘ s.sessions).card) = 0 := rfl
    dsimp only
    rw [closeRequests_append, List.count_append, ← h.closes other, liveOn_cons, List.count_singleton, hquiet]
    by_cases heq : remote = other
    · simp [heq]
      omega
    · simp [heq]
  · have hbalance := h.balance
    dsimp only
    rw [reportedTotal_append, reportedTotal_append, hbalance,
      reportedTotal_eq_one (SessionSide.reportedValues_openedReport _ _ .sessionsCreated),
      reportedTotal_eq_zero (SessionSide.reportedValues_openedReport _ _ .sessionsClosed),
      Multiset.card_cons, Nat.cast_succ, add_zero, add_assoc]
  · dsimp only
    rw [lastReported?_append_of_ne_nil (by rw [SessionSide.reportedValues_openedReport]; simp),
      lastReported?_eq_some (SessionSide.reportedValues_openedReport _ _ .sessionsActive)]
    intro value hvalue
    exact (Option.some.inj hvalue).symm

theorem beginClosing (c : Closing) (h : Accounted s opened)
    (hsessions : s.sessions = ⟨c.id, c.remote, .live⟩ ::ₘ s.others c.id) :
    Accounted (s.beginClosing c .live) opened := by
  refine { closes := ?_, balance := ?_, gauge := ?_ }
  · intro remote
    have hremote := h.closes remote
    rw [hsessions, liveOn_cons] at hremote
    simp only [SessionSide.beginClosing, Phase.close]
    rw [closeRequests_append, closeRequests_closeSession, liveOn_cons, ← hremote]
    by_cases heq : c.remote = remote
    · simp [heq]
      omega
    · simp [heq]
  · have hbalance := h.balance
    rw [hsessions] at hbalance
    simp only [SessionSide.beginClosing, Multiset.card_cons] at hbalance ⊢
    rw [reportedTotal_append, reportedTotal_append, hbalance, reportedTotal_requested,
      reportedTotal_requested]
    simp
  · have hgauge := h.gauge
    rw [hsessions] at hgauge
    simp only [SessionSide.beginClosing, Multiset.card_cons] at hgauge ⊢
    rw [lastReported?_append_of_nil (by rfl)]
    exact hgauge

theorem endClosing (c : Closing) (reply : Except Failure Unit) (h : Accounted s opened)
    (hsessions : s.sessions = ⟨c.id, c.remote, .closing⟩ ::ₘ s.others c.id) :
    Accounted (s.endClosing c reply) opened := by
  refine { closes := ?_, balance := ?_, gauge := ?_ }
  · intro remote
    have hremote := h.closes remote
    rw [hsessions, liveOn_cons, if_neg (by simp)] at hremote
    rw [← hremote, SessionSide.endClosing, closeRequests_append]
    rfl
  · have hbalance := h.balance
    rw [hsessions, Multiset.card_cons, Nat.cast_succ] at hbalance
    simp only [SessionSide.endClosing]
    rw [reportedTotal_append, reportedTotal_append, hbalance,
      reportedTotal_eq_zero (SessionSide.reportedValues_closedReport _ _ _ .sessionsCreated),
      reportedTotal_eq_one (SessionSide.reportedValues_closedReport _ _ _ .sessionsClosed)]
    linarith
  · simp only [SessionSide.endClosing]
    rw [lastReported?_append_of_ne_nil (by rw [SessionSide.reportedValues_closedReport]; simp),
      lastReported?_eq_some (SessionSide.reportedValues_closedReport _ _ _ .sessionsActive)]
    intro value hvalue
    exact (Option.some.inj hvalue).symm

end Accounted

/-- **Order and accounts are kept** by everything that happens to sessions. -/
theorem sessionInvariant_orderly :
    SessionInvariant fun s opened errands => Orderly s errands ∧ Accounted s opened where
  reserve := by
    rintro o s opened errands ⟨horderly, haccounted⟩ -
    exact ⟨(horderly.with_opening o).of_sessions rfl rfl, haccounted.reserve o⟩
  track := by
    rintro o remote s opened errands ⟨horderly, haccounted⟩
    exact ⟨horderly.without_opening.track o remote, haccounted.track o remote horderly⟩
  release := by
    rintro o s opened errands ⟨horderly, haccounted⟩
    exact ⟨horderly.without_opening.of_sessions rfl rfl, haccounted.release⟩
  beginClosing := by
    rintro c phase s opened errands ⟨horderly, haccounted⟩ hphase hsessions
    cases horderly.phase_eq_live hphase hsessions
    exact ⟨horderly.beginClosing c hsessions, haccounted.beginClosing c hsessions⟩
  endClosing := by
    rintro c reply s opened errands ⟨horderly, haccounted⟩
    exact ⟨horderly.endClosing c reply, haccounted.endClosing c reply horderly.sessions_eq_of_closing⟩
  dropClosing := by
    rintro c s opened errands ⟨horderly, haccounted⟩
    exact ⟨horderly.without_closing, haccounted⟩

/-! ## What is never undone -/

/-- How the sessions of a relay have moved on: more identifiers were given out, and what is tracked
under an old identifier was tracked before and is closing if it was. -/
structure Advances (before s : SessionSide) : Prop where
  nextSerial : before.nextSerial ≤ s.nextSerial
  tracked : ∀ o ∈ s.sessions, o.id.serial < before.nextSerial →
    ∃ old ∈ before.sessions, old.id = o.id ∧ (old.phase = .closing → o.phase = .closing)

namespace Advances

variable {before s : SessionSide}

theorem refl (s : SessionSide) : Advances s s where
  nextSerial := Nat.le_refl _
  tracked := fun o ho _ => ⟨o, ho, rfl, id⟩

theorem track (o : Opening) (remote : RemoteSession) (h : Advances before s) :
    Advances before (s.track o remote) where
  nextSerial := Nat.le_succ_of_le h.nextSerial
  tracked := by
    intro o' ho' hold
    rcases Multiset.mem_cons.1 ho' with rfl | hrest
    · exact absurd (Nat.lt_of_lt_of_le hold h.nextSerial) (Nat.lt_irrefl _)
    · exact h.tracked o' (SessionSide.mem_others.1 hrest).1 hold

theorem beginClosing (c : Closing) {phase : Phase} (h : Advances before s) (hphase : phase ≠ .closing)
    (hsessions : s.sessions = ⟨c.id, c.remote, phase⟩ ::ₘ s.others c.id) :
    Advances before (s.beginClosing c phase) where
  nextSerial := h.nextSerial
  tracked := by
    intro o ho hold
    rcases Multiset.mem_cons.1 ho with rfl | hrest
    · obtain ⟨old, hmem, hid, hclosing⟩ :=
        h.tracked ⟨c.id, c.remote, phase⟩ (hsessions ▸ Multiset.mem_cons_self _ _) hold
      exact ⟨old, hmem, hid, fun hold => absurd (hclosing hold) hphase⟩
    · exact h.tracked o (SessionSide.mem_others.1 hrest).1 hold

theorem endClosing (c : Closing) (reply : Except Failure Unit) (h : Advances before s) :
    Advances before (s.endClosing c reply) where
  nextSerial := h.nextSerial
  tracked := fun o ho hold => h.tracked o (SessionSide.mem_others.1 ho).1 hold

end Advances

theorem sessionInvariant_advances (before : SessionSide) :
    SessionInvariant fun s _ _ => Advances before s where
  reserve := fun _ _ _ _ h _ => ⟨h.nextSerial, h.tracked⟩
  track := fun o remote _ _ _ h => h.track o remote
  release := fun _ _ _ _ h => ⟨h.nextSerial, h.tracked⟩
  beginClosing := fun c _ _ _ _ h hphase hsessions => h.beginClosing c hphase hsessions
  endClosing := fun c reply _ _ _ h => h.endClosing c reply
  dropClosing := fun _ _ _ _ h => h

/-! ## Every run -/

/-- The status of a session, if it is tracked. -/
def Exchange.status? (x : Exchange) (id : SessionId) : Option SessionStatus :=
  (x.relay.registry.sessions.get? id).map fun t => t.state.status

namespace Exchange

theorem exists_outline_of_status? {x : Exchange} {id : SessionId} {status : SessionStatus}
    (h : x.status? id = some status) :
    ∃ o ∈ x.relay.sessionSide.sessions, o.id = id ∧ o.phase = status.phase := by
  obtain ⟨t, hget, rfl⟩ := Option.map_eq_some_iff.1 h
  exact ⟨⟨id, t.remote, t.state.status.phase⟩, Registry.mem_outline.2 ⟨t, hget, rfl, rfl⟩, rfl, rfl⟩

theorem exists_status?_of_outline {x : Exchange} {o : SessionOutline} (h : o ∈ x.relay.sessionSide.sessions) :
    ∃ status, x.status? o.id = some status ∧ status.phase = o.phase := by
  obtain ⟨t, hget, -, hphase⟩ := Registry.mem_outline.1 h
  exact ⟨t.state.status, Option.map_eq_some_iff.2 ⟨t, hget, rfl⟩, hphase⟩

theorem orderly_new (settings : Settings) (factory : ClientFactory) :
    Orderly (new settings factory).relay.sessionSide 0 where
  distinct := Multiset.nodup_zero
  known := fun o ho => absurd ho (Multiset.notMem_zero o)
  tracked := fun o ho => absurd ho (Multiset.notMem_zero o)
  exclusive := Multiset.nodup_zero
  underway := fun _ hc => absurd hc (Multiset.notMem_zero _)

theorem accounted_new (settings : Settings) (factory : ClientFactory) :
    Accounted (new settings factory).relay.sessionSide [] where
  closes := fun _ => rfl
  balance := (add_zero _).symm
  gauge := fun value hvalue => absurd hvalue (by rintro ⟨⟩)

/-- What was reached from a fresh relay is orderly and accounted for. -/
theorem orderly {settings : Settings} {factory : ClientFactory} {moves : List Move} {x : Exchange}
    (h : (new settings factory).run moves = some x) :
    Orderly x.relay.sessionSide (sessionErrands x.errands) ∧ Accounted x.relay.sessionSide x.opened :=
  sessionInvariant_orderly.invariant.satisfies_run h ⟨orderly_new settings factory, accounted_new settings factory⟩

theorem advances {x y : Exchange} {moves : List Move} (h : x.run moves = some y) :
    Advances x.relay.sessionSide y.relay.sessionSide :=
  (sessionInvariant_advances x.relay.sessionSide).invariant.satisfies_run h (Advances.refl _)

/-- The identifier of a tracked session has been given out. -/
theorem serial_lt_of_status? {settings : Settings} {factory : ClientFactory} {moves : List Move} {x : Exchange}
    (h : (new settings factory).run moves = some x) {id : SessionId} {status : SessionStatus}
    (hstatus : x.status? id = some status) : id.serial < x.relay.sessionSide.nextSerial := by
  obtain ⟨o, ho, rfl, -⟩ := exists_outline_of_status? hstatus
  exact (orderly h).1.known o ho

end Exchange

/-- What it means that the sessions of an exchange are retired exactly once. -/
structure RetiresOnce (x : Exchange) : Prop where
  tracked : ∀ id status, x.status? id = some status →
    status = .created ∨ status = .active ∨ status = .idle ∨ status = .closing
  /-- Each remote session was asked to close at most as often as the engine opened it. -/
  closes : ∀ remote, closeRequests remote x.relay.log ≤ x.opened.count remote
  /-- Sessions created less sessions closed are the tracked sessions. -/
  balance : reportedTotal .sessionsCreated x.relay.log - reportedTotal .sessionsClosed x.relay.log =
    x.relay.registry.sessions.size
  /-- The gauge, once it was set, shows the number of tracked sessions. -/
  gauge : ∀ value, lastReported? .sessionsActive x.relay.log = some value →
    value = .ofNat x.relay.registry.sessions.size
  /-- A closing session stays closing while it is tracked. -/
  closing : ∀ later y, x.run later = some y →
    ∀ id status, x.status? id = some .closing → y.status? id = some status → status = .closing
  /-- An identifier that is no longer tracked never comes back. -/
  gone : ∀ later y, x.run later = some y → ∀ id, x.status? id ≠ none → y.status? id = none →
    ∀ evenLater z, y.run evenLater = some z → z.status? id = none

/-- **Every session is retired exactly once**, however calls are interleaved, whatever the engine
answers and whoever is dropped while waiting. -/
theorem sessions_retired_once {settings : Settings} {factory : ClientFactory} {moves : List Move} {x : Exchange}
    (h : (Exchange.new settings factory).run moves = some x) : RetiresOnce x := by
  obtain ⟨horderly, haccounted⟩ := Exchange.orderly h
  have hsize : x.relay.sessionSide.sessions.card = x.relay.registry.sessions.size :=
    Registry.card_outline x.relay.registry
  refine
    { tracked := ?_, closes := ?_, balance := ?_, gauge := ?_, closing := ?_, gone := ?_ }
  · intro id status hstatus
    obtain ⟨o, ho, -, hphase⟩ := Exchange.exists_outline_of_status? hstatus
    exact SessionStatus.phase_ne_ended_iff.1 (hphase ▸ horderly.tracked o ho)
  · intro remote
    have hcloses := haccounted.closes remote
    rw [Relay.sessionSide, closeRequests_filter] at hcloses
    omega
  · have hbalance := haccounted.balance
    rw [hsize] at hbalance
    simp only [Relay.sessionSide, reportedTotal] at hbalance ⊢
    rw [reportedValues_filter rfl, reportedValues_filter rfl] at hbalance
    rw [hbalance, add_sub_cancel_left]
  · intro value hvalue
    have hgauge := haccounted.gauge value
    rw [hsize] at hgauge
    simp only [Relay.sessionSide, lastReported?] at hgauge hvalue
    rw [reportedValues_filter rfl] at hgauge
    exact hgauge hvalue
  · intro later y hlater id status hclosing hstatus
    obtain ⟨o, ho, rfl, hphase⟩ := Exchange.exists_outline_of_status? hstatus
    obtain ⟨old, hold, hid, hstays⟩ :=
      (Exchange.advances hlater).tracked o ho (Exchange.serial_lt_of_status? h hclosing)
    obtain ⟨status', hstatus', hphase'⟩ := Exchange.exists_status?_of_outline hold
    rw [hid, hclosing] at hstatus'
    cases hstatus'
    exact SessionStatus.phase_eq_closing_iff.1 (hphase ▸ hstays hphase'.symm)
  · intro later y hlater id htracked hgone evenLater z hevenLater
    obtain ⟨status, hstatus⟩ := Option.ne_none_iff_exists'.1 htracked
    by_contra hback
    obtain ⟨status', hstatus'⟩ := Option.ne_none_iff_exists'.1 hback
    obtain ⟨o, ho, rfl, -⟩ := Exchange.exists_outline_of_status? hstatus'
    -- The identifier was given out before, so whoever has it now had it when it was not tracked.
    have hserial : o.id.serial < y.relay.sessionSide.nextSerial :=
      Nat.lt_of_lt_of_le (Exchange.serial_lt_of_status? h hstatus) (Exchange.advances hlater).nextSerial
    obtain ⟨old, hold, hid, -⟩ := (Exchange.advances hevenLater).tracked o ho hserial
    obtain ⟨status'', hstatus'', -⟩ := Exchange.exists_status?_of_outline hold
    rw [hid, hgone] at hstatus''
    exact absurd hstatus'' (by simp)

/-- Two sessions; while the first is being closed its counters change, it is marked idle, and it is
closed again. -/
theorem sessions_retired_once_of_two :
    ∃ x : Exchange,
      (Exchange.new {} {}).run
        [.start (.openSession none none), .resume 0 (.granting 7), .start (.openSession (some "a") none),
          .resume 1 (.granting 8), .start (.closeSession ⟨1⟩),
          .start (.update ⟨⟨1⟩, none, ⟨7⟩⟩ .queriesExecuted 1), .start (.markIdle ⟨⟨1⟩, none, ⟨7⟩⟩),
          .start (.closeSession ⟨1⟩)] = some x ∧
      (x.status? ⟨1⟩, x.status? ⟨2⟩) = (some .closing, some .created) ∧ RetiresOnce x := by
  have hrun : ((Exchange.new {} {}).run
      [.start (.openSession none none), .resume 0 (.granting 7), .start (.openSession (some "a") none),
        .resume 1 (.granting 8), .start (.closeSession ⟨1⟩),
        .start (.update ⟨⟨1⟩, none, ⟨7⟩⟩ .queriesExecuted 1), .start (.markIdle ⟨⟨1⟩, none, ⟨7⟩⟩),
        .start (.closeSession ⟨1⟩)]).map
      (fun x => (x.status? ⟨1⟩, x.status? ⟨2⟩)) = some (some .closing, some .created) := rfl
  obtain ⟨x, hx, hstatuses⟩ := Option.map_eq_some_iff.1 hrun
  exact ⟨x, hx, hstatuses, sessions_retired_once hx⟩

end QueryRelay
