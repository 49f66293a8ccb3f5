import QueryRelay.Proofs.Reaper.Watch
import QueryRelay.Proofs.Session.ClosingAll
import QueryRelay.Proofs.Session.Sweeping

/-!
# A reaper in a sweep

A reaper looks at the registry when it begins a sweep, and only if nobody has told it to stop.  Once it is in a sweep
nothing ends that but its end: a reaper is not dropped, and to be told to stop makes no difference.

* `Sweep.proceed_live`, `Sweep.resume_live` — what a step of a sweep leaves live of its list remains on it.
* `InSweep.live` — **the invariant of a sweep**: of what it saw, whatever is live is still on its list.
* `InSweep.noneLive` — when a reaper comes out of a sweep, nothing that the sweep saw is live.
* `InSweep.goneOrLeft` — so everything is gone by then, but for what others were closing.
* `Exchange.sweep?_of_told` — **a reaper that was told to stop begins no sweep**.
-/

namespace QueryRelay

/-! ## One step of a sweep -/

namespace Sweep

theorem proceed_live {r : Relay} {ids : List SessionId} {closed : Nat} {id : SessionId}
    (h : (proceed r ids closed).1.sessionSide.InPhase id .live) :
    r.sessionSide.InPhase id .live ∧ (id ∈ ids → ∃ s, (proceed r ids closed).2 = .waiting s ∧ id ∈ s.rest) := by
  obtain ⟨next?, closed', hturn, hpoint⟩ := proceed_inTurn r ids closed
  obtain ⟨hlive, hremains⟩ := hturn.live h
  refine ⟨hlive, fun hmem => ?_⟩
  obtain ⟨next, rfl, hrest⟩ := hremains hmem
  exact ⟨_, Progress.eq_waiting_of_point? hpoint, hrest⟩

/-- What is live after a step of a sweep was live before, and is still on the list if it was. -/
theorem resume_live {s : Sweep} {reply : Except Failure Unit} {r : Relay} {id : SessionId}
    (h : (s.resume reply r).1.sessionSide.InPhase id .live) :
    r.sessionSide.InPhase id .live ∧
      (id ∈ s.rest → ∃ s', (s.resume reply r).2 = .waiting s' ∧ id ∈ s'.rest) := by
  have hended := @Closing.live_of_resume s.current reply r id
  simp only [resume] at h ⊢
  generalize s.current.resume reply r = x at h hended
  obtain ⟨r', outcome⟩ := x
  cases outcome with
  | ok _ | error _ =>
    obtain ⟨hlive, hremains⟩ := proceed_live h
    exact ⟨hended hlive, hremains⟩

end Sweep

/-! ## Calls that are reapers -/

namespace Exchange

variable {x y : Exchange} {m : Move} {i : Nat} {reaper : ReaperId}

theorem exists_reaping_of_reaper? (h : x.reaper? i = some reaper) :
    ∃ p since, x.calls[i]? = some (.waiting (.reaping p) since) ∧ p.reaper = reaper := by
  obtain ⟨call, since, hcall, hreaper⟩ := exists_call_of_seen? h
  cases call with
  | reaping p => exact ⟨p, since, hcall, Option.some.inj hreaper⟩
  | _ => exact absurd hreaper (by simp [Call.reaper?])

/-- The only thing that happens to a reaper is that it goes on. -/
theorem resumed_of_reaper (h : x.apply m = some y) (hmover : x.mover? m = some i) {p : Reaping} {since : Instant}
    (hcall : x.calls[i]? = some (.waiting (.reaping p) since)) :
    ∃ answers : Answers, y.relay = (p.resume (answers p.wait) x.relay).1 ∧
      y.calls[i]? = some (.after (Call.lift .reaping (fun _ => .nothing) (p.resume (answers p.wait) x.relay))) := by
  obtain ⟨_, _, hwaits, ⟨answers, rfl, rfl⟩ | ⟨rfl, -⟩⟩ := mover_cases h hmover hcall
  · cases hwaits
    exact ⟨answers, rfl, List.getElem?_set_self (List.getElem?_eq_some_iff.1 hcall).1⟩
  · exact absurd (not_isReaper_of_apply_drop h hcall) (by simp [Call.isReaper])

/-- **A reaper that was told to stop begins no sweep.** -/
theorem sweep?_of_told (h : x.apply m = some y) (hreaper : x.reaper? i = some reaper)
    (htold : x.relay.reaperSide.phase? reaper ≠ some .running) (hy : y.sweep? i ≠ none) : x.sweep? i ≠ none := by
  obtain ⟨p, since, hcall, rfl⟩ := exists_reaping_of_reaper? hreaper
  by_cases hmover : x.mover? m = some i
  · cases p with
    | sweeping reaper s => simp [sweep?, hcall, Call.sweep?]
    | resting reaper interval =>
      obtain ⟨answers, -, hafter⟩ := resumed_of_reaper h hmover hcall
      have hstop : x.relay.reapers.get? reaper ≠ some .running := htold
      rw [Reaping.resume, if_neg hstop] at hafter
      refine absurd ?_ hy
      rcases Reaping.settle_reaperSide x.relay reaper with ⟨hsettle, -⟩ | ⟨ended, hsettle, -⟩
      all_goals
        rw [hsettle] at hafter
        simp [sweep?, hafter, Standing.after, Call.lift, Progress.map, Call.sweep?]
  · rwa [sweep?, calls_of_not_mover h hmover, ← sweep?] at hy

end Exchange

/-! ## A sweep from its look to its end -/

namespace InSweep

variable {settings : Settings} {factory : ClientFactory} {before : List Move} {looked x y : Exchange} {m : Move}
  {i : Nat} {id : SessionId}

theorem serial_lt (hlooked : (Exchange.new settings factory).run before = some looked) (h : InSweep i looked x)
    (hid : id ∈ looked.reapable) : id.serial < x.relay.sessionSide.nextSerial := by
  obtain ⟨s, hs, -⟩ := Registry.mem_reapable.1 hid
  obtain ⟨t, ht, -⟩ := Option.map_eq_some_iff.1 hs
  have hknown : id.serial < looked.relay.registry.nextSerial :=
    (Exchange.orderly hlooked).1.known ⟨id, t.remote, t.state.status.phase⟩ (Registry.mem_outline.2 ⟨t, ht, rfl, rfl⟩)
  obtain ⟨later, hlater⟩ := h.exists_run
  exact Nat.lt_of_lt_of_le hknown (Exchange.since hlater).nextSerial

/-- **Of what a sweep saw, whatever is live is still on its list.** -/
theorem live (hlooked : (Exchange.new settings factory).run before = some looked) (h : InSweep i looked x)
    (hid : id ∈ looked.reapable) (hlive : x.relay.sessionSide.InPhase id .live) :
    ∃ s, x.sweep? i = some s ∧ id ∈ s.rest := by
  induction h with
  | @look m x happly hnone hx =>
    obtain ⟨s, hs⟩ := Option.ne_none_iff_exists'.1 hx
    rcases Exchange.sweep_cases happly hs with ⟨-, hsame⟩ | ⟨-, hstart⟩ | ⟨_, _, hbefore, -⟩
    · exact absurd hsame (by simp [hnone])
    · have hproceed := @Sweep.proceed_live looked.relay looked.reapable 0 id
      have hstart' : Sweep.proceed looked.relay looked.reapable 0 = (x.relay, .waiting s) := hstart
      rw [hstart'] at hproceed
      obtain ⟨s', hs', hrest⟩ := (hproceed hlive).2 hid
      cases hs'
      exact ⟨s, hs, hrest⟩
    · exact absurd hbefore (by simp [hnone])
  | @goOn m x y hin happly hy ih =>
    obtain ⟨s, hs⟩ := Option.ne_none_iff_exists'.1 hy
    rcases Exchange.sweep_cases happly hs with ⟨-, hsame⟩ | ⟨hnone, -⟩ | ⟨last, reply, hlast, hresume⟩
    · obtain ⟨later, hlater⟩ := hin.exists_run
      have horderly := (Exchange.orderly (Exchange.run_trans hlooked hlater)).1
      have hbefore := (Exchange.advances_apply happly).live horderly (serial_lt hlooked hin hid) hlive
      obtain ⟨s', hs', hrest⟩ := ih hbefore
      cases Option.some.inj (hsame.symm.trans hs')
      exact ⟨s, hs, hrest⟩
    · exact absurd hnone hin.sweep?_ne_none
    · have hstep := @Sweep.resume_live last reply x.relay id
      rw [hresume] at hstep
      obtain ⟨hbefore, hremains⟩ := hstep hlive
      obtain ⟨s', hs', hrest⟩ := ih hbefore
      cases Option.some.inj (hlast.symm.trans hs')
      obtain ⟨s'', hs'', hrest'⟩ := hremains hrest
      cases hs''
      exact ⟨s, hs, hrest'⟩

/-- **When a reaper comes out of a sweep**, nothing that the sweep saw is live, and the reaper rests or has ended. -/
theorem noneLive (hlooked : (Exchange.new settings factory).run before = some looked) (h : InSweep i looked x)
    {reaper : ReaperId} (hreaper : x.reaper? i = some reaper) (happly : x.apply m = some y) (hy : y.sweep? i = none) :
    (∀ id ∈ looked.reapable, ¬y.relay.sessionSide.InPhase id .live) ∧
      ((∃ interval since, y.calls[i]? = some (.waiting (.reaping (.resting reaper interval)) since)) ∨
        ∃ result, y.calls[i]? = some (.finished result)) := by
  obtain ⟨p, since, hcall, rfl⟩ := Exchange.exists_reaping_of_reaper? hreaper
  have hmover : x.mover? m = some i := by
    refine Decidable.of_not_not fun hother => h.sweep?_ne_none ?_
    rwa [Exchange.sweep?, Exchange.calls_of_not_mover happly hother, ← Exchange.sweep?] at hy
  have hsweep : x.sweep? i = (Call.reaping p).sweep? := by simp [Exchange.sweep?, hcall]
  cases p with
  | resting reaper interval => exact absurd hsweep h.sweep?_ne_none
  | sweeping reaper s =>
    obtain ⟨answers, hrelay, hafter⟩ := Exchange.resumed_of_reaper happly hmover hcall
    have hstep := fun id => @Sweep.resume_live s (answers s.wait) x.relay id
    rw [Reaping.resume] at hrelay hafter
    generalize s.resume (answers s.wait) x.relay = stepped at hrelay hafter hstep
    obtain ⟨r, p⟩ := stepped
    cases p with
    | waiting s' =>
      exact absurd hy (by
        simp [Exchange.sweep?, hafter, Standing.after, Call.lift, Reaping.ofSweep, Progress.map, Call.sweep?])
    | finished closed =>
      have hside : y.relay.sessionSide = r.sessionSide := by rw [hrelay, Reaping.ofSweep, Reaping.settle_side]
      refine ⟨fun id hid hlive => ?_, ?_⟩
      · rw [hside] at hlive
        obtain ⟨hbefore, hremains⟩ := hstep id hlive
        obtain ⟨s', hs', hrest⟩ := h.live hlooked hid hbefore
        cases Option.some.inj (hsweep.symm.trans hs')
        obtain ⟨s'', hs'', -⟩ := hremains hrest
        exact absurd hs'' (by simp)
      · rw [Reaping.ofSweep] at hafter
        rcases Reaping.settle_reaperSide r reaper with ⟨hrests, -⟩ | ⟨ended, hends, -⟩
        · rw [hrests] at hafter
          exact .inl ⟨_, _, hafter⟩
        · rw [hends] at hafter
          exact .inr ⟨_, hafter⟩

end InSweep

namespace Exchange

/-- What a call finds after some moves of a session that it was to close: it is gone, or it was closing already when
the call came to it, under another call that waits for the engine or was dropped while it did. -/
def GoneOrLeft (x : Exchange) (moves : List Move) (i : Nat) (y : Exchange) (id : SessionId) : Prop :=
  y.status? id = none ∨
    y.status? id = some .closing ∧ ∃ j, j ≠ i ∧ (y.Closes j id ∨ x.GivesUpClosing moves j id)

end Exchange

/-- **A sweep of a reaper is done to its end.**  When the reaper comes out of it, every session that the sweep saw is
gone, but for those that others had begun to close. -/
theorem InSweep.goneOrLeft {settings : Settings} {factory : ClientFactory} {before moves : List Move}
    {looked x y : Exchange} {m : Move} {i : Nat} {reaper : ReaperId}
    (hlooked : (Exchange.new settings factory).run before = some looked) (h : InSweep i looked x)
    (hreaper : x.reaper? i = some reaper) (happly : x.apply m = some y) (hy : y.sweep? i = none)
    (hrun : (Exchange.new settings factory).run moves = some y) :
    ∀ id ∈ looked.reapable, (Exchange.new settings factory).GoneOrLeft moves i y id := by
  obtain ⟨hnotLive, hafter⟩ := h.noneLive hlooked hreaper happly hy
  intro id hid
  by_cases hgone : y.status? id = none
  · exact .inl hgone
  have hclosing := Exchange.status?_eq_closing_of_not_live (Exchange.orderly hrun).1 (hnotLive id hid) hgone
  obtain ⟨j, hj⟩ := Exchange.closes_or_givesUp hrun (Exchange.status?_eq_closing_iff.1 hclosing)
  refine .inr ⟨hclosing, j, ?_, hj⟩
  -- The reaper itself closes nothing now, and was not dropped.
  rintro rfl
  rcases hj with ⟨call, since, c, hcall, herrand, -⟩ | hgave
  · rcases hafter with ⟨interval, since', hrests⟩ | ⟨result, hends⟩
    · cases Option.some.inj (hcall.symm.trans hrests)
      exact absurd herrand (by simp [Call.errand, Reaping.errand])
    · exact absurd (Option.some.inj (hcall.symm.trans hends)) (by simp)
  · have hdropped := hgave.dropped hrun
    rcases hafter with ⟨interval, since', hrests⟩ | ⟨result, hends⟩
    · exact absurd (Option.some.inj (hdropped.symm.trans hrests)) (by simp)
    · exact absurd (Option.some.inj (hdropped.symm.trans hends)) (by simp)

end QueryRelay
