import QueryRelay.Proofs.Exchange.Step
import QueryRelay.Proofs.Session.Retirement

/-!
# Who closes a closing session

A session is moved to *closing* by the call that then waits for the engine to close it, and nobody else
takes that closing over: others who come to close the session find that there is nothing to do.

* `SessionSide.InPhase` — a session is tracked, in some phase; what the changes make of it.
* `Exchange.Closes`, `Exchange.GivesUpClosing` — a call has a closing session in hand, or had it and was
  dropped.
* `Exchange.closes_or_givesUp` — **every closing session was begun to be closed by some call**, and that
  call has not heard from the engine.
* `Exchange.closing_of_nobody_closes` — **a closing that was given up is never made up for**: the session
  stays closing, and tracked, for good.
-/

namespace QueryRelay

/-! ## Sessions and their phases -/

namespace SessionSide

/-- A session is tracked, in this phase. -/
def InPhase (s : SessionSide) (id : SessionId) (phase : Phase) : Prop :=
  ∃ o ∈ s.sessions, o.id = id ∧ o.phase = phase

variable {s : SessionSide} {id : SessionId} {phase : Phase}

theorem inPhase_congr {s' : SessionSide} (h : s'.sessions = s.sessions) :
    s'.InPhase id phase ↔ s.InPhase id phase := by
  unfold InPhase
  rw [h]

/-- A session that was just opened is live, and no other is new. -/
theorem inPhase_of_track {o : Opening} {remote : RemoteSession} (h : (s.track o remote).InPhase id phase) :
    (id = ⟨s.nextSerial⟩ ∧ phase = .live) ∨ s.InPhase id phase := by
  obtain ⟨o', ho', rfl, rfl⟩ := h
  rcases Multiset.mem_cons.1 ho' with rfl | hrest
  · exact .inl ⟨rfl, rfl⟩
  · exact .inr ⟨o', (mem_others.1 hrest).1, rfl, rfl⟩

/-- The beginning of a closing moves its own session, and no other. -/
theorem inPhase_of_beginClosing {c : Closing} {before : Phase} (h : (s.beginClosing c before).InPhase id phase) :
    (id = c.id ∧ phase = before.close) ∨ (id ≠ c.id ∧ s.InPhase id phase) := by
  obtain ⟨o, ho, rfl, rfl⟩ := h
  rcases Multiset.mem_cons.1 ho with rfl | hrest
  · exact .inl ⟨rfl, rfl⟩
  · obtain ⟨hmem, hne⟩ := mem_others.1 hrest
    exact .inr ⟨hne, o, hmem, rfl, rfl⟩

theorem inPhase_endClosing {c : Closing} {reply : Except Failure Unit} :
    (s.endClosing c reply).InPhase id phase ↔ id ≠ c.id ∧ s.InPhase id phase := by
  constructor
  · rintro ⟨o, ho, rfl, rfl⟩
    obtain ⟨hmem, hne⟩ := mem_others.1 ho
    exact ⟨hne, o, hmem, rfl, rfl⟩
  · rintro ⟨hne, o, hmem, rfl, rfl⟩
    exact ⟨o, mem_others.2 ⟨hmem, hne⟩, rfl, rfl⟩

end SessionSide

theorem Phase.close_ne_live (phase : Phase) : phase.close ≠ .live := by
  cases phase <;> simp [Phase.close]

namespace Advances

variable {before s : SessionSide} {id : SessionId}

/-- A session that is live now was live before, if it was there. -/
theorem live {errands : Multiset Errand} (h : Advances before s) (horderly : Orderly before errands)
    (hknown : id.serial < before.nextSerial) (hlive : s.InPhase id .live) : before.InPhase id .live := by
  obtain ⟨o, ho, rfl, hphase⟩ := hlive
  obtain ⟨old, hold, hid, hstays⟩ := h.tracked o ho hknown
  refine ⟨old, hold, hid, ?_⟩
  cases hcase : old.phase with
  | live => rfl
  | closing => exact absurd (hphase.symm.trans (hstays hcase)) (by simp)
  | ended => exact absurd hcase (horderly.tracked old hold)

/-- A session that was not there does not come. -/
theorem not_inPhase (h : Advances before s) (hknown : id.serial < before.nextSerial)
    (hgone : ∀ phase, ¬before.InPhase id phase) (phase : Phase) : ¬s.InPhase id phase := by
  rintro ⟨o, ho, rfl, -⟩
  obtain ⟨old, hold, hid, -⟩ := h.tracked o ho hknown
  exact hgone old.phase ⟨old, hold, hid, rfl⟩

end Advances

namespace Exchange

variable {x : Exchange} {id : SessionId}

theorem inPhase_of_status? {status : SessionStatus} (h : x.status? id = some status) :
    x.relay.sessionSide.InPhase id status.phase := by
  obtain ⟨o, ho, hid, hphase⟩ := exists_outline_of_status? h
  exact ⟨o, ho, hid, hphase⟩

theorem status?_eq_closing_iff : x.status? id = some .closing ↔ x.relay.sessionSide.InPhase id .closing := by
  constructor
  · exact inPhase_of_status?
  · rintro ⟨o, ho, rfl, hphase⟩
    obtain ⟨status, hstatus, hsame⟩ := exists_status?_of_outline ho
    rw [hstatus, SessionStatus.phase_eq_closing_iff.1 (hsame.trans hphase)]

end Exchange

/-! ## Who closes a closing session -/

/-- What is left of a step as far as closing sessions go: the session was closing, or the step ends with
the errand of closing it. -/
def BeganClosing (before : SessionSide) (id : SessionId) (x : Relay × Option Errand) : Prop :=
  x.1.sessionSide.InPhase id .closing → before.InPhase id .closing ∨ ∃ c, x.2 = some (.closing c) ∧ c.id = id

/-- Whoever moves a session to *closing* waits for the engine then. -/
theorem Deed.beganClosing {before : SessionSide} {id : SessionId} {r : Relay} (h : BeganClosing before id (r, none))
    (d : Deed) : BeganClosing before id (d.perform r) := by
  intro hclosing
  have hold : r.sessionSide.InPhase id .closing → before.InPhase id .closing := by
    intro hr
    rcases h hr with hbefore | ⟨c, hc, -⟩
    · exact hbefore
    · exact absurd hc (by simp)
  by_cases hd : d.concernsSessions = false
  · rw [(Deed.perform_side hd r).1] at hclosing
    exact .inl (hold hclosing)
  cases d with
  | openSession database options =>
    rcases Opening.start_side r database options with ⟨-, hside⟩ | ⟨o, -, -, hside⟩
    · rw [Deed.perform, hside] at hclosing
      exact .inl (hold hclosing)
    · rw [Deed.perform, hside] at hclosing
      exact .inl (hold hclosing)
  | closeSession closed =>
    rcases Closing.start_side r closed with ⟨-, hside⟩ | ⟨c, phase, hpoint, rfl, -, -, hside⟩
    · rw [Deed.perform, hside] at hclosing
      exact .inl (hold hclosing)
    · rw [Deed.perform, hside] at hclosing
      rcases SessionSide.inPhase_of_beginClosing hclosing with ⟨rfl, -⟩ | ⟨-, hr⟩
      · exact .inr ⟨c, by simp [Deed.perform, hpoint], rfl⟩
      · exact .inl (hold hr)
  | _ => exact absurd rfl hd

theorem Leads.beganClosing {before : SessionSide} {id : SessionId} {s t : Relay × Option Errand} (h : Leads s t)
    (hs : BeganClosing before id s) : BeganClosing before id t :=
  h.induct (P := BeganClosing before id) (fun d _ hr => Deed.beganClosing hr d) hs

/-- No errand moves a session to *closing* when it ends. -/
theorem Errand.closing_of_resume {answers : Answers} {e : Errand} {r : Relay} {id : SessionId}
    (h : (e.resume answers r).1.sessionSide.InPhase id .closing) : r.sessionSide.InPhase id .closing := by
  by_cases he : e.concernsSessions = false
  · rwa [(Errand.resume_side answers he r).1] at h
  cases e with
  | opening o =>
    rw [Errand.resume, Opening.resume_side] at h
    cases hreply : answers o.wait with
    | ok remote =>
      rw [hreply] at h
      rcases SessionSide.inPhase_of_track h with ⟨-, hlive⟩ | hr
      · exact absurd hlive (by simp)
      · exact hr
    | error e =>
      rw [hreply] at h
      exact h
  | closing c =>
    rw [Errand.resume, Closing.resume_side] at h
    exact (SessionSide.inPhase_endClosing.1 h).2
  | _ => exact absurd rfl he

/-- Giving up an errand leaves the sessions as they are. -/
theorem Errand.sessions_drop (e : Errand) (r : Relay) : (e.drop r).sessionSide.sessions = r.sessionSide.sessions := by
  by_cases he : e.concernsSessions = false
  · rw [Errand.drop_side he]
  cases e with
  | opening o => rfl
  | closing c => rfl
  | _ => exact absurd rfl he

namespace Exchange

/-- A call of an exchange waits for the engine to close this session. -/
def Closes (x : Exchange) (i : Nat) (id : SessionId) : Prop :=
  ∃ call since c, x.calls[i]? = some (.waiting call since) ∧ call.errand = .closing c ∧ c.id = id

/-- Along some moves, a call is dropped while it waits for the engine to close this session. -/
def GivesUpClosing (x : Exchange) (moves : List Move) (i : Nat) (id : SessionId) : Prop :=
  ∃ before y later, moves = before ++ .drop i :: later ∧ x.run before = some y ∧ y.Closes i id

variable {x y : Exchange} {m : Move} {i : Nat} {id : SessionId}

theorem closes_after {calls : List Standing} {s : Relay × CallProgress} (hcall : calls[i]? = some (.after s))
    {c : Closing} (hc : (situation Call.errand s).2 = some (.closing c)) (relay : Relay) (heard : List Heard) :
    Closes ⟨relay, calls, heard⟩ i c.id := by
  obtain ⟨r, p⟩ := s
  cases p with
  | waiting call => exact ⟨call, r.now, c, hcall, Option.some.inj hc, rfl⟩
  | finished result => exact absurd hc (by simp [situation, Progress.point?])

/-- **How a session comes to be closing**: it was, or a call has just begun to close it. -/
theorem closing_cases (h : x.apply m = some y) (hy : y.relay.sessionSide.InPhase id .closing) :
    x.relay.sessionSide.InPhase id .closing ∨ ∃ i, y.Closes i id := by
  cases m with
  | start demand =>
    cases Option.some.inj h
    have hbegan : BeganClosing x.relay.sessionSide id (situation Call.errand (demand.start x.relay)) :=
      (demand.start_leads x.relay).beganClosing .inl
    rcases hbegan hy with hx | ⟨c, hc, rfl⟩
    · exact .inl hx
    · exact .inr ⟨x.calls.length, closes_after List.getElem?_concat_length hc _ _⟩
  | resume i answers =>
    obtain ⟨call, since, hcall, rfl⟩ := apply_resume h
    have hbegan : BeganClosing x.relay.sessionSide id
        (situation Call.errand (call.resume (answers call.wait) x.relay)) :=
      (call.resume_leads answers x.relay).beganClosing fun hresumed => .inl (Errand.closing_of_resume hresumed)
    rcases hbegan hy with hx | ⟨c, hc, rfl⟩
    · exact .inl hx
    · have hlt := (List.getElem?_eq_some_iff.1 hcall).1
      exact .inr ⟨i, closes_after (List.getElem?_set_self hlt) hc _ _⟩
  | drop i =>
    obtain ⟨call, since, hcall, rfl⟩ := apply_drop h
    rw [call.drop_eq] at hy
    exact .inl ((SessionSide.inPhase_congr (call.errand.sessions_drop x.relay)).1 hy)
  | elapse span =>
    cases Option.some.inj h
    exact .inl hy

/-- When the call that closes a session goes on, the session is gone. -/
theorem Closes.gone_of_resume {answers : Answers} (hcloses : x.Closes i id)
    (h : x.apply (.resume i answers) = some y) (hknown : id.serial < x.relay.sessionSide.nextSerial) (phase : Phase) :
    ¬y.relay.sessionSide.InPhase id phase := by
  obtain ⟨call, since, c, hcall, herrand, rfl⟩ := hcloses
  obtain ⟨call', since', hcall', rfl⟩ := apply_resume h
  cases Option.some.inj (hcall.symm.trans hcall')
  have hended : (call.errand.resume answers x.relay).1.sessionSide =
      x.relay.sessionSide.endClosing c (answers c.wait) := by
    rw [herrand, Errand.resume, Closing.resume_side]
  have hadvances : Advances (x.relay.sessionSide.endClosing c (answers c.wait))
      (call.resume (answers call.wait) x.relay).1.sessionSide := by
    refine @Invariant.leads _ (sessionInvariant_advances (x.relay.sessionSide.endClosing c (answers c.wait))).invariant
      [] 0 _ _ (call.resume_leads answers x.relay) ?_
    exact hended ▸ Advances.refl _
  refine hadvances.not_inPhase hknown (fun phase htracked => ?_) phase
  exact (SessionSide.inPhase_endClosing.1 htracked).1 rfl

/-- A call goes on closing a session until it goes on or is dropped. -/
theorem Closes.of_not_mover (hcloses : x.Closes i id) (h : x.apply m = some y) (hi : x.mover? m ≠ some i) :
    y.Closes i id := by
  obtain ⟨call, since, c, hcall, herrand, hid⟩ := hcloses
  exact ⟨call, since, c, (calls_of_not_mover h hi).trans hcall, herrand, hid⟩

theorem GivesUpClosing.concat {moves : List Move} (h : x.GivesUpClosing moves i id) (m : Move) :
    x.GivesUpClosing (moves ++ [m]) i id := by
  obtain ⟨before, y, later, rfl, hrun, hcloses⟩ := h
  exact ⟨before, y, later ++ [m], by simp, hrun, hcloses⟩

/-- **Every closing session was begun to be closed by some call.**  That call still waits for the engine,
or it was dropped while it did. -/
theorem closes_or_givesUp {settings : Settings} {factory : ClientFactory} {moves : List Move}
    (h : (new settings factory).run moves = some x) (hclosing : x.relay.sessionSide.InPhase id .closing) :
    ∃ i, x.Closes i id ∨ (new settings factory).GivesUpClosing moves i id := by
  induction h using run_induct with
  | nil =>
    obtain ⟨o, ho, -⟩ := hclosing
    exact absurd ho (Multiset.notMem_zero o)
  | @snoc moves m z x hz happly ih =>
    rcases closing_cases happly hclosing with hbefore | ⟨i, hcloses⟩
    · obtain ⟨i, hcloses | hgivesUp⟩ := ih hbefore
      · by_cases hmover : z.mover? m = some i
        · -- The call that closes the session is dropped; it cannot go on, since the session is still there.
          have hcall := hcloses
          obtain ⟨call, since, c, hcall, -, -⟩ := hcall
          obtain ⟨_, _, -, ⟨answers, rfl, -⟩ | ⟨rfl, -⟩⟩ := mover_cases happly hmover hcall
          · obtain ⟨o, ho, rfl, -⟩ := hbefore
            exact absurd hclosing (hcloses.gone_of_resume happly ((orderly hz).1.known o ho) .closing)
          · exact ⟨i, .inr ⟨moves, z, [], rfl, hz, hcloses⟩⟩
        · exact ⟨i, .inl (hcloses.of_not_mover happly hmover)⟩
      · exact ⟨i, .inr (hgivesUp.concat m)⟩
    · exact ⟨i, .inl hcloses⟩

/-! ## Sessions that nobody closes any more -/

end Exchange

/-- A session is closing, and nobody waits for the engine to close it. -/
def Abandoned (id : SessionId) (s : SessionSide) (_opened : List RemoteSession) (errands : Multiset Errand) : Prop :=
  id.serial < s.nextSerial ∧ s.InPhase id .closing ∧ ∀ c : Closing, .closing c ∈ errands → c.id ≠ id

/-- **What was given up stays**: no closing begins for a session that is closing already, and without a
closing it is not dropped. -/
theorem sessionInvariant_abandoned (id : SessionId) : SessionInvariant (Abandoned id) where
  reserve := by
    rintro o s opened errands ⟨hknown, hclosing, hnobody⟩ -
    exact ⟨hknown, hclosing, fun c hc => hnobody c (by simpa using hc)⟩
  track := by
    rintro o remote s opened errands ⟨hknown, ⟨o', ho', hid, hphase⟩, hnobody⟩
    refine ⟨Nat.lt_succ_of_lt hknown, ⟨o', ?_, hid, hphase⟩, fun c hc => hnobody c (Multiset.mem_cons_of_mem hc)⟩
    refine Multiset.mem_cons_of_mem (SessionSide.mem_others.2 ⟨ho', ?_⟩)
    rintro hnext
    rw [← hid, hnext] at hknown
    exact Nat.lt_irrefl _ hknown
  release := by
    rintro o s opened errands ⟨hknown, hclosing, hnobody⟩
    exact ⟨hknown, hclosing, fun c hc => hnobody c (Multiset.mem_cons_of_mem hc)⟩
  beginClosing := by
    rintro c phase s opened errands ⟨hknown, ⟨o, ho, hid, hphase⟩, hnobody⟩ hnotClosing hsessions
    have hother : o.id ≠ c.id := by
      intro hsame
      rw [hsessions] at ho
      rcases Multiset.mem_cons.1 ho with rfl | hrest
      · exact hnotClosing hphase
      · exact (SessionSide.mem_others.1 hrest).2 hsame
    refine ⟨hknown, ⟨o, ?_, hid, hphase⟩, ?_⟩
    · exact Multiset.mem_cons_of_mem (SessionSide.mem_others.2 ⟨ho, hother⟩)
    · intro c' hc'
      rcases Multiset.mem_cons.1 hc' with heq | hold
      · cases heq
        exact fun hsame => hother (hid.trans hsame.symm)
      · exact hnobody c' hold
  endClosing := by
    rintro c reply s opened errands ⟨hknown, hclosing, hnobody⟩
    have hother := hnobody c (Multiset.mem_cons_self _ _)
    exact ⟨hknown, SessionSide.inPhase_endClosing.2 ⟨Ne.symm hother, hclosing⟩,
      fun c' hc' => hnobody c' (Multiset.mem_cons_of_mem hc')⟩
  dropClosing := by
    rintro c s opened errands ⟨hknown, hclosing, hnobody⟩
    exact ⟨hknown, hclosing, fun c' hc' => hnobody c' (Multiset.mem_cons_of_mem hc')⟩

namespace Exchange

variable {x y : Exchange} {id : SessionId}

/-- A session that nobody closes any more is closing for good. -/
theorem closing_of_nobody_closes {settings : Settings} {factory : ClientFactory} {moves later : List Move}
    (h : (new settings factory).run moves = some x) (hclosing : x.relay.sessionSide.InPhase id .closing)
    (hnobody : ∀ i, ¬x.Closes i id) (hlater : x.run later = some y) : y.relay.sessionSide.InPhase id .closing := by
  have hx : x.Satisfies fun r heard errands =>
      Abandoned id r.sessionSide (heard.filterMap Heard.opened?) (sessionErrands errands) := by
    obtain ⟨o, ho, rfl, hphase⟩ := hclosing
    refine ⟨(orderly h).1.known o ho, ⟨o, ho, rfl, hphase⟩, ?_⟩
    rintro c hc hid
    have hmem : Errand.closing c ∈ x.errands := (Multiset.mem_filter.1 hc).1
    obtain ⟨s, hs, herrand⟩ := List.mem_filterMap.1 (Multiset.mem_coe.1 hmem)
    obtain ⟨i, hi⟩ := List.mem_iff_getElem?.1 hs
    cases s with
    | waiting call since => exact hnobody i ⟨call, since, c, hi, Option.some.inj herrand, hid⟩
    | finished result => exact absurd herrand (by simp [Standing.errand?])
    | dropped => exact absurd herrand (by simp [Standing.errand?])
  exact ((sessionInvariant_abandoned id).invariant.satisfies_run hlater hx).2.1

end Exchange

end QueryRelay
