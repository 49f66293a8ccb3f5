import QueryRelay.Proofs.Session.ClosingAll

/-!
# Sessions that nobody closes

A session stays in the registry, in its phase, until some call begins to close it, and that call then waits for the
engine.  So whoever has opened a session finds it live as long as no call waits for the engine to close it; and once the
engine was asked to close it, it is gone when the answer has come.

* `Exchange.mem_sessions_of_apply` — **one move** leaves a session as it is, or a call has begun to close it.
* `Exchange.Closes.unique` — **a session is closed by one call at a time**.
* `Closing.start_of_mem_live` — whoever comes to close a live session asks the engine to, once.
* `sessionInvariant_asked` — what the engine was asked to close, it was asked to close for good.
-/

namespace QueryRelay

/-- A session that was just opened is live. -/
theorem SessionSide.mem_sessions_track (s : SessionSide) (o : Opening) (remote : RemoteSession) :
    ⟨⟨s.nextSerial⟩, remote, .live⟩ ∈ (s.track o remote).sessions := by
  rw [track, sessionsWith]
  exact Multiset.mem_cons_self _ _

/-! ## One step -/

/-- What is left of a step as far as one session goes: the session is as it was, or the step ends with the errand of
closing it. -/
def KeepsOrCloses (o : SessionOutline) (x : Relay × Option Errand) : Prop :=
  o ∈ x.1.sessionSide.sessions ∨ ∃ c, x.2 = some (.closing c) ∧ c.id = o.id

/-- No deed but the beginning of a closing touches a session. -/
theorem Deed.keepsOrCloses {o : SessionOutline} {r : Relay} (h : KeepsOrCloses o (r, none)) (d : Deed) :
    KeepsOrCloses o (d.perform r) := by
  have ho : o ∈ r.sessionSide.sessions := by
    rcases h with ho | ⟨c, hc, -⟩
    · exact ho
    · exact absurd hc (by simp)
  by_cases hd : d.concernsSessions = false
  · refine .inl ?_
    rw [(Deed.perform_side hd r).1]
    exact ho
  cases d with
  | openSession database options =>
    refine .inl ?_
    rcases Opening.start_side r database options with ⟨-, hside⟩ | ⟨_, -, -, hside⟩
    · rw [Deed.perform, hside]
      exact ho
    · rw [Deed.perform, hside]
      exact ho
  | closeSession closed =>
    rcases Closing.start_side r closed with ⟨-, hside⟩ | ⟨c, phase, hpoint, rfl, -, -, hside⟩
    · refine .inl ?_
      rw [Deed.perform, hside]
      exact ho
    · by_cases hid : o.id = c.id
      · exact .inr ⟨c, by simp [Deed.perform, hpoint], hid.symm⟩
      · refine .inl ?_
        rw [Deed.perform, hside]
        exact Multiset.mem_cons_of_mem (SessionSide.mem_others.2 ⟨ho, hid⟩)
  | _ => exact absurd rfl hd

theorem Leads.keepsOrCloses {o : SessionOutline} {s t : Relay × Option Errand} (h : Leads s t)
    (hs : KeepsOrCloses o s) : KeepsOrCloses o t :=
  h.induct (P := KeepsOrCloses o) (fun d _ hr => Deed.keepsOrCloses hr d) hs

/-- No end of an errand touches a session that was there, but the end of its closing. -/
theorem Errand.mem_sessions_of_resume {answers : Answers} {e : Errand} {r : Relay} {o : SessionOutline}
    (ho : o ∈ r.sessionSide.sessions) (hknown : o.id.serial < r.sessionSide.nextSerial)
    (hother : ∀ c, e = .closing c → c.id ≠ o.id) : o ∈ (e.resume answers r).1.sessionSide.sessions := by
  by_cases he : e.concernsSessions = false
  · rw [(Errand.resume_side answers he r).1]
    exact ho
  cases e with
  | opening opening =>
    rw [Errand.resume, Opening.resume_side]
    cases answers opening.wait with
    | error failure => exact ho
    | ok remote =>
      refine Multiset.mem_cons_of_mem (SessionSide.mem_others.2 ⟨ho, fun hnext => ?_⟩)
      rw [hnext] at hknown
      exact Nat.lt_irrefl _ hknown
  | closing c =>
    rw [Errand.resume, Closing.resume_side]
    exact SessionSide.mem_others.2 ⟨ho, (hother c rfl).symm⟩
  | _ => exact absurd rfl he

/-! ## One move -/

/-- A closing under way is not that of a live session. -/
theorem Orderly.closing_id_ne {s : SessionSide} {errands : Multiset Errand} (h : Orderly s errands) {o : SessionOutline}
    (ho : o ∈ s.sessions) (hlive : o.phase = .live) {c : Closing} (hc : .closing c ∈ errands) : c.id ≠ o.id := by
  intro hid
  have hrest := h.underway c hc
  rw [SessionSide.sessions_eq_cons_others h.distinct ho] at hrest
  rcases Multiset.mem_cons.1 hrest with heq | hothers
  · rw [← heq] at hlive
    exact absurd hlive (by simp)
  · exact (SessionSide.mem_others.1 hothers).2 hid

namespace Exchange

variable {settings : Settings} {factory : ClientFactory} {moves : List Move} {x y : Exchange} {m : Move}

/-- The errand of a call that waits is one of those of the exchange. -/
theorem errand_mem_errands {i : Nat} {call : Call} {since : Instant}
    (hcall : x.calls[i]? = some (.waiting call since)) : call.errand ∈ x.errands := by
  obtain ⟨others, herrands, -⟩ := exists_errands_of_getElem? hcall
  rw [errands, herrands]
  exact Multiset.mem_cons_self _ _

/-- A session that a call closes is closing. -/
theorem Closes.inPhase {i : Nat} {id : SessionId} (h : x.Closes i id)
    (horderly : Orderly x.relay.sessionSide (sessionErrands x.errands)) :
    x.relay.sessionSide.InPhase id .closing := by
  obtain ⟨call, since, c, hcall, herrand, rfl⟩ := h
  have hmem : .closing c ∈ sessionErrands x.errands := Multiset.mem_filter.2 ⟨herrand ▸ errand_mem_errands hcall, rfl⟩
  exact ⟨_, horderly.underway c hmem, rfl, rfl⟩

/-- **A session is closed by one call at a time.** -/
theorem Closes.unique {i j : Nat} {id : SessionId} (h : x.Closes i id) (h' : x.Closes j id)
    (horderly : Orderly x.relay.sessionSide (sessionErrands x.errands)) : j = i := by
  obtain ⟨call, since, c, hcall, herrand, rfl⟩ := h
  obtain ⟨call', since', c', hcall', herrand', hid⟩ := h'
  obtain ⟨others, herrands, hset⟩ := exists_errands_of_getElem? hcall
  by_contra hne
  -- Without the first call, the second one is still among the others.
  have hstays : (x.calls.set i .dropped)[j]? = some (.waiting call' since') := by
    rw [List.getElem?_set_ne (Ne.symm hne)]
    exact hcall'
  have hother : .closing c' ∈ sessionErrands others := by
    have hmem : call'.errand ∈ (⟨x.relay, x.calls.set i .dropped, x.heard⟩ : Exchange).errands :=
      errand_mem_errands hstays
    rw [errands, hset, herrand'] at hmem
    exact Multiset.mem_filter.2 ⟨hmem, rfl⟩
  have hexclusive := horderly.exclusive
  rw [errands, herrands, herrand, sessionErrands_closing, retiring_closing, Multiset.nodup_cons] at hexclusive
  exact hexclusive.1 (hid ▸ mem_retiring hother)

/-- **One move leaves a live session as it is**, or some call waits for the engine to close it then. -/
theorem mem_sessions_of_apply (h : (new settings factory).run moves = some x) (happly : x.apply m = some y)
    {o : SessionOutline} (ho : o ∈ x.relay.sessionSide.sessions) (hlive : o.phase = .live) :
    o ∈ y.relay.sessionSide.sessions ∨ ∃ j, y.Closes j o.id := by
  obtain ⟨horderly, -⟩ := orderly h
  cases m with
  | start demand =>
    cases Option.some.inj happly
    have hkept : KeepsOrCloses o (situation Call.errand (demand.start x.relay)) :=
      (demand.start_leads x.relay).keepsOrCloses (.inl ho)
    rcases hkept with hstays | ⟨c, hc, hid⟩
    · exact .inl hstays
    · exact .inr ⟨x.calls.length, hid ▸ closes_after List.getElem?_concat_length hc _ _⟩
  | resume i answers =>
    obtain ⟨call, since, hcall, rfl⟩ := apply_resume happly
    have hother : ∀ c, call.errand = .closing c → c.id ≠ o.id := by
      intro c hc
      refine horderly.closing_id_ne ho hlive (Multiset.mem_filter.2 ⟨?_, rfl⟩)
      exact hc ▸ errand_mem_errands hcall
    have hkept : KeepsOrCloses o (situation Call.errand (call.resume (answers call.wait) x.relay)) :=
      (call.resume_leads answers x.relay).keepsOrCloses
        (.inl (Errand.mem_sessions_of_resume ho (horderly.known o ho) hother))
    rcases hkept with hstays | ⟨c, hc, hid⟩
    · exact .inl hstays
    · have hlt := (List.getElem?_eq_some_iff.1 hcall).1
      exact .inr ⟨i, hid ▸ closes_after (List.getElem?_set_self hlt) hc _ _⟩
  | drop i =>
    obtain ⟨call, since, hcall, rfl⟩ := apply_drop happly
    refine .inl ?_
    rw [call.drop_eq, call.errand.sessions_drop x.relay]
    exact ho
  | elapse span =>
    cases Option.some.inj happly
    exact .inl ho

end Exchange

/-! ## The end of a session -/

/-- **Whoever comes to close a live session** begins to, and asks the engine for it. -/
theorem Closing.start_of_mem_live {r : Relay} {id : SessionId} {remote : RemoteSession}
    (h : ⟨id, remote, .live⟩ ∈ r.sessionSide.sessions) :
    ∃ database, start r id =
      ((r.withRegistry fun g => g.update id fun s => s.transition .closing).ask (.closeSession remote),
        .waiting ⟨id, remote, database⟩) := by
  obtain ⟨t, hget, rfl, hphase⟩ := Registry.mem_outline.1 h
  have hnot : t.state.status ≠ .closing := by
    intro hclosing
    rw [hclosing] at hphase
    exact absurd hphase (by simp [SessionStatus.phase])
  refine ⟨t.state.database, ?_⟩
  simp only [start, hget, if_neg hnot]

/-- What the engine was asked to close, it was asked to close for good. -/
theorem sessionInvariant_asked (remote : RemoteSession) (n : Nat) :
    SessionInvariant fun s _ _ => n ≤ closeRequests remote s.log := by
  have hmore : ∀ {s : SessionSide} (more : List Happening), n ≤ closeRequests remote s.log →
      n ≤ closeRequests remote (s.log ++ more) := by
    intro s more h
    rw [closeRequests_append]
    exact Nat.le_add_right_of_le h
  exact
    { reserve := fun _ _ _ _ h _ => hmore _ h
      track := fun _ _ _ _ _ h => hmore _ h
      release := fun _ _ _ _ h => h
      beginClosing := fun _ _ _ _ _ h _ _ => hmore _ h
      endClosing := fun _ _ _ _ _ h => hmore _ h
      dropClosing := fun _ _ _ _ h => h }

end QueryRelay
