import QueryRelay.Proofs.Session.Closers

/-!
# What closing all sessions leaves behind

Closing all sessions takes the identifiers that are tracked when the reaper has ended, and closes one
after another.  Closing a session that is closing already is nothing to do, so it passes over a session
that someone else had begun to close, and does not wait for that closing.

* `ClosingAll.HasYetToClose` — what a closing of all sessions still has on its list; `proceed_live` and
  `resume_live` — **whatever is live after a step is on it**.
* `ClosesAll` — the invariant of a run that this gives, from the beginning of the call to its result.
* `closeAll_leaves_closings_of_others` — **what is left behind** in the end is what others had begun to
  close and have not heard of since; if they were dropped, it is left for good.
* `closeAll_leaves_dropped_closing` — so it is not true that nothing is left behind.
-/

namespace QueryRelay

/-! ## One step -/

namespace Closing

/-- A closing begins for every live session. -/
theorem start_of_live {r : Relay} {id : SessionId} (h : r.sessionSide.InPhase id .live) :
    (start r id).2.point? ≠ none := by
  obtain ⟨o, ho, rfl, hphase⟩ := h
  obtain ⟨t, hget, -, hstatus⟩ := Registry.mem_outline.1 ho
  have hnot : t.state.status ≠ .closing := by
    intro hclosing
    rw [hclosing] at hstatus
    exact absurd (hstatus.trans hphase) (by simp [SessionStatus.phase])
  simp [start, hget, hnot, Progress.point?]

/-- After the beginning of a closing its session is not live, and no other is live that was not before. -/
theorem live_of_start {r : Relay} {id other : SessionId} (h : (start r id).1.sessionSide.InPhase other .live) :
    other ≠ id ∧ r.sessionSide.InPhase other .live := by
  rcases start_side r id with ⟨hpoint, hside⟩ | ⟨c, phase, -, rfl, -, -, hside⟩
  · rw [hside] at h
    refine ⟨?_, h⟩
    rintro rfl
    exact start_of_live h hpoint
  · rw [hside] at h
    rcases SessionSide.inPhase_of_beginClosing h with ⟨-, hlive⟩ | hother
    · exact absurd hlive.symm phase.close_ne_live
    · exact hother

/-- The end of a closing makes no session live. -/
theorem live_of_resume {c : Closing} {reply : Except Failure Unit} {r : Relay} {id : SessionId}
    (h : (c.resume reply r).1.sessionSide.InPhase id .live) : r.sessionSide.InPhase id .live := by
  rw [resume_side] at h
  exact (SessionSide.inPhase_endClosing.1 h).2

/-- Going through a list, one stops with what is live among the sessions that remain. -/
theorem InTurn.live {r last : Relay} {ids : List SessionId} {next? : Option (Closing × List SessionId)}
    {id : SessionId} (h : InTurn r ids last next?) (hlive : last.sessionSide.InPhase id .live) :
    r.sessionSide.InPhase id .live ∧ (id ∈ ids → ∃ next, next? = some next ∧ id ∈ next.2) := by
  induction h with
  | done r => exact ⟨hlive, fun hmem => absurd hmem List.not_mem_nil⟩
  | @waits r r' first rest c hstart =>
    have hstarted : (start r first).1.sessionSide.InPhase id .live := by rwa [hstart]
    obtain ⟨hne, hbefore⟩ := live_of_start hstarted
    exact ⟨hbefore, fun hmem => ⟨_, rfl, (List.mem_cons.1 hmem).resolve_left hne⟩⟩
  | @passes r r' last first rest outcome next? hstart _ ih =>
    -- Whoever is live afterwards is not the first one, which is passed over only if it was not live.
    obtain ⟨hafter, hremains⟩ := ih hlive
    have hstarted : (start r first).1.sessionSide.InPhase id .live := by rwa [hstart]
    obtain ⟨hne, hbefore⟩ := live_of_start hstarted
    exact ⟨hbefore, fun hmem => hremains ((List.mem_cons.1 hmem).resolve_left hne)⟩

end Closing

namespace ClosingAll

/-- What is still to be closed: everything that is tracked, before the list is drawn up, and then what
remains of the list. -/
def HasYetToClose (id : SessionId) : ClosingAll → Prop
  | stopping _ => True
  | closing _ rest _ => id ∈ rest

theorem proceed_live {r : Relay} {ids : List SessionId} {failures : CloseFailures} {id : SessionId}
    (h : (proceed r ids failures).1.sessionSide.InPhase id .live) :
    r.sessionSide.InPhase id .live ∧
      (id ∈ ids → ∃ p, (proceed r ids failures).2 = .waiting p ∧ p.HasYetToClose id) := by
  obtain ⟨next?, failures', hturn, hpoint⟩ := proceed_inTurn r ids failures
  obtain ⟨hlive, hremains⟩ := hturn.live h
  refine ⟨hlive, fun hmem => ?_⟩
  obtain ⟨next, rfl, hrest⟩ := hremains hmem
  exact ⟨_, Progress.eq_waiting_of_point? hpoint, hrest⟩

/-- The list is drawn up of all that is tracked. -/
theorem closeTracked_live {r : Relay} {id : SessionId} (h : (closeTracked r).1.sessionSide.InPhase id .live) :
    r.sessionSide.InPhase id .live ∧ ∃ p, (closeTracked r).2 = .waiting p ∧ p.HasYetToClose id := by
  obtain ⟨hlive, hremains⟩ := proceed_live h
  refine ⟨hlive, hremains ?_⟩
  obtain ⟨o, ho, rfl, -⟩ := hlive
  obtain ⟨t, hget, -⟩ := Registry.mem_outline.1 ho
  exact Table.mem_keys_iff.2 (by simp [hget])

theorem start_live {r : Relay} {id : SessionId} (h : (start r).1.sessionSide.InPhase id .live) :
    r.sessionSide.InPhase id .live ∧ ∃ p, (start r).2 = .waiting p ∧ p.HasYetToClose id := by
  have hstopped := Stopping.start_side r
  unfold start at h ⊢
  generalize Stopping.start r = x at h hstopped
  obtain ⟨r', p⟩ := x
  dsimp only at hstopped
  rw [← hstopped]
  cases p with
  | waiting s => exact ⟨h, _, rfl, trivial⟩
  | finished _ => exact closeTracked_live h

/-- **A step of closing all sessions**: what is live after it was live before, and if it was on the list
it still is. -/
theorem resume_live {p : ClosingAll} {answer : p.wait.Answer} {r : Relay} {id : SessionId}
    (h : (p.resume answer r).1.sessionSide.InPhase id .live) (hp : p.HasYetToClose id) :
    r.sessionSide.InPhase id .live ∧ ∃ q, (p.resume answer r).2 = .waiting q ∧ q.HasYetToClose id := by
  cases p with
  | stopping s => exact closeTracked_live h
  | closing current rest failures =>
    have hended := @Closing.live_of_resume current answer r id
    simp only [resume] at h ⊢
    generalize current.resume answer r = x at h hended
    obtain ⟨r', outcome⟩ := x
    cases outcome with
    | ok _ =>
      obtain ⟨hlive, hremains⟩ := proceed_live h
      exact ⟨hended hlive, hremains hp⟩
    | error e =>
      obtain ⟨hlive, hremains⟩ := proceed_live h
      exact ⟨hended hlive, hremains hp⟩

end ClosingAll

/-! ## Calls that close all sessions -/

/-- The closing of all sessions in which a call waits. -/
def Call.closingAll? : Call → Option ClosingAll
  | closingAll p => some p
  | shuttingDown (.sessions p) => some p
  | _ => none

namespace Standing

/-- A call has still to close this session, or will not close any since it was dropped. -/
def HasYetToClose (id : SessionId) : Standing → Prop
  | waiting call _ => ∃ p, call.closingAll? = some p ∧ p.HasYetToClose id
  | finished _ => False
  | dropped => True

/-- Whether a call that closes all sessions has come to the end of that: it has its result, or it goes on
with the client. -/
def isPastClosings : Standing → Bool
  | waiting (.shuttingDown (.client _ _)) _ => true
  | finished _ => true
  | _ => false

theorem isPastClosings_cases {s : Standing} (h : s.isPastClosings = true) :
    (∃ c first since, s = .waiting (.shuttingDown (.client c first)) since) ∨ ∃ result, s = .finished result := by
  unfold isPastClosings at h
  split at h
  · exact .inl ⟨_, _, _, rfl⟩
  · exact .inr ⟨_, rfl⟩
  · exact absurd h (by simp)

theorem not_hasYetToClose {s : Standing} (h : s.isPastClosings = true) (id : SessionId) : ¬s.HasYetToClose id := by
  rcases isPastClosings_cases h with ⟨c, first, since, rfl⟩ | ⟨result, rfl⟩
  · rintro ⟨p, hp, -⟩
    exact absurd hp (by simp [Call.closingAll?])
  · exact fun hyet => hyet

end Standing

/-- When a call closes all sessions as one of its parts, it has to close what that part has. -/
theorem Shutdown.ofSessions_live {x : Relay × Progress ClosingAll CloseFailures} {id : SessionId}
    (h : (ofSessions x).1.sessionSide.InPhase id .live) :
    x.1.sessionSide.InPhase id .live ∧ ∀ p, x.2 = .waiting p → (ofSessions x).2 = .waiting (.sessions p) := by
  obtain ⟨r, progress⟩ := x
  cases progress with
  | waiting p =>
    refine ⟨h, fun q hq => ?_⟩
    cases hq
    rfl
  | finished failures =>
    simp only [ofSessions] at h
    rw [ClientClosing.start_side] at h
    exact ⟨h, fun q hq => absurd hq (by simp)⟩

theorem Standing.after_lift {σ α : Type} {point : σ → Call} {result : α → CallResult} {x : Relay × Progress σ α}
    {p : σ} (h : x.2 = .waiting p) : Standing.after (Call.lift point result x) = .waiting (point p) x.1.now := by
  obtain ⟨r, progress⟩ := x
  cases h
  rfl

/-- A call that closes all sessions begins with everything on its list that is live. -/
theorem Demand.start_live {d : Demand} (hd : d = .closeAll ∨ d = .shutDown) {r : Relay} {id : SessionId}
    (h : (d.start r).1.sessionSide.InPhase id .live) : (Standing.after (d.start r)).HasYetToClose id := by
  rcases hd with rfl | rfl
  · obtain ⟨-, p, hwaits, hp⟩ := ClosingAll.start_live h
    rw [Demand.start, Standing.after_lift hwaits]
    exact ⟨p, rfl, hp⟩
  · obtain ⟨hlive, hwraps⟩ := Shutdown.ofSessions_live (x := ClosingAll.start r) h
    obtain ⟨-, p, hwaits, hp⟩ := ClosingAll.start_live hlive
    rw [Demand.start, Shutdown.start, Standing.after_lift (hwraps p hwaits)]
    exact ⟨p, rfl, hp⟩

/-- A call that goes on closing all sessions keeps everything on its list that is live. -/
theorem Call.resume_live {c : Call} {answers : Answers} {r : Relay} {id : SessionId} {p : ClosingAll}
    (hc : c.closingAll? = some p) (hp : p.HasYetToClose id)
    (h : (c.resume (answers c.wait) r).1.sessionSide.InPhase id .live) :
    (Standing.after (c.resume (answers c.wait) r)).HasYetToClose id := by
  cases c with
  | closingAll q =>
    cases Option.some.inj hc
    obtain ⟨-, q, hwaits, hq⟩ := ClosingAll.resume_live h hp
    rw [Call.resume, Standing.after_lift hwaits]
    exact ⟨q, rfl, hq⟩
  | shuttingDown s =>
    cases s with
    | sessions q =>
      cases Option.some.inj hc
      obtain ⟨hlive, hwraps⟩ := Shutdown.ofSessions_live (x := p.resume (answers p.wait) r) h
      obtain ⟨-, q, hwaits, hq⟩ := ClosingAll.resume_live hlive hp
      rw [Call.resume, Shutdown.resume, Standing.after_lift (hwraps q hwaits)]
      exact ⟨q, rfl, hq⟩
    | client c first => exact absurd hc (by simp [closingAll?])
  | _ => exact absurd hc (by simp [closingAll?])

/-! ## The run of such a call -/

namespace Exchange

variable {x y z : Exchange} {i : Nat}

/-- The invariant of a call that closes all sessions, since it began: of the sessions that it may have
to do with, whatever is live remains on its list. -/
structure ClosesAll (x : Exchange) (i : Nat) (y : Exchange) : Prop where
  begun : i < y.calls.length
  nextSerial : x.relay.sessionSide.nextSerial ≤ y.relay.sessionSide.nextSerial
  live : ∀ id : SessionId, id.serial < x.relay.sessionSide.nextSerial → y.relay.sessionSide.InPhase id .live →
    ∃ s, y.calls[i]? = some s ∧ s.HasYetToClose id

theorem advances_apply {m : Move} (h : x.apply m = some y) : Advances x.relay.sessionSide y.relay.sessionSide :=
  (sessionInvariant_advances x.relay.sessionSide).invariant.apply h (Advances.refl _)

theorem ClosesAll.begin {d : Demand} (hd : d = .closeAll ∨ d = .shutDown) (h : x.apply (.start d) = some y) :
    ClosesAll x x.calls.length y := by
  have hserial := (advances_apply h).nextSerial
  cases Option.some.inj h
  exact ⟨by simp, hserial, fun id _ hlive => ⟨_, List.getElem?_concat_length, Demand.start_live hd hlive⟩⟩

/-- **Every move keeps the invariant**: those of other calls, which make no session live, and those of the
call itself. -/
theorem ClosesAll.apply {m : Move} {errands : Multiset Errand} (hall : ClosesAll x i y)
    (horderly : Orderly y.relay.sessionSide errands) (h : y.apply m = some z) : ClosesAll x i z := by
  have hi := hall.begun
  have hadvances := advances_apply h
  refine ⟨Nat.lt_of_lt_of_le hi (length_calls_le h), Nat.le_trans hall.nextSerial hadvances.nextSerial,
    fun id hknown hlive => ?_⟩
  have hbefore := hadvances.live horderly (Nat.lt_of_lt_of_le hknown hall.nextSerial) hlive
  obtain ⟨s, hs, hyet⟩ := hall.live id hknown hbefore
  by_cases hmover : y.mover? m = some i
  · obtain ⟨call, since, rfl, ⟨answers, rfl, rfl⟩ | ⟨rfl, rfl⟩⟩ := mover_cases h hmover hs
    · obtain ⟨p, hp, hyet⟩ := hyet
      exact ⟨_, List.getElem?_set_self hi, Call.resume_live hp hyet hlive⟩
    · exact ⟨_, List.getElem?_set_self hi, trivial⟩
  · exact ⟨s, (calls_of_not_mover h hmover).trans hs, hyet⟩

/-- The invariant holds until the end of the run. -/
theorem closesAll {settings : Settings} {factory : ClientFactory} {moves later : List Move} {d : Demand}
    (h : (new settings factory).run moves = some x) (hd : d = .closeAll ∨ d = .shutDown)
    (hlater : x.run (.start d :: later) = some y) : ClosesAll x x.calls.length y := by
  induction hlater using run_cons_induct with
  | head hbegin => exact .begin hd hbegin
  | snoc hz happly ih => exact ih.apply (orderly (run_trans h hz)).1 happly

/-- The call has come to the end of closing all sessions. -/
def IsPastClosings (x : Exchange) (i : Nat) : Prop := ∃ s, x.calls[i]? = some s ∧ s.isPastClosings = true

/-- In the end nothing is live of what was tracked in the beginning. -/
theorem ClosesAll.not_live (h : ClosesAll x i y) (hpast : y.IsPastClosings i) {id : SessionId}
    (hknown : id.serial < x.relay.sessionSide.nextSerial) : ¬y.relay.sessionSide.InPhase id .live := by
  intro hlive
  obtain ⟨s, hs, hyet⟩ := h.live id hknown hlive
  obtain ⟨s', hs', hdone⟩ := hpast
  cases Option.some.inj (hs.symm.trans hs')
  exact Standing.not_hasYetToClose hdone id hyet

/-- A tracked session that is not live is closing. -/
theorem status?_eq_closing_of_not_live {errands : Multiset Errand} (horderly : Orderly x.relay.sessionSide errands)
    {id : SessionId} (hlive : ¬x.relay.sessionSide.InPhase id .live) (htracked : x.status? id ≠ none) :
    x.status? id = some .closing := by
  obtain ⟨status, hstatus⟩ := Option.ne_none_iff_exists'.1 htracked
  obtain ⟨o, ho, rfl, hphase⟩ := exists_outline_of_status? hstatus
  rw [status?_eq_closing_iff]
  cases hcase : o.phase with
  | live => exact absurd ⟨o, ho, rfl, hcase⟩ hlive
  | closing => exact ⟨o, ho, rfl, hcase⟩
  | ended => exact absurd hcase (horderly.tracked o ho)

/-- A call that has come to the end of closing all sessions does not close any. -/
theorem IsPastClosings.not_closes (h : x.IsPastClosings i) (id : SessionId) : ¬x.Closes i id := by
  rintro ⟨call, since, c, hcall, herrand, -⟩
  obtain ⟨s, hs, hdone⟩ := h
  cases Option.some.inj (hcall.symm.trans hs)
  rcases Standing.isPastClosings_cases hdone with ⟨c, first, since, heq⟩ | ⟨result, heq⟩
  · cases heq
    exact absurd herrand (by simp [Call.errand, Shutdown.errand])
  · exact absurd heq (by simp)

/-- Nor was it dropped. -/
theorem IsPastClosings.not_dropped (h : x.IsPastClosings i) : x.calls[i]? ≠ some .dropped := by
  intro hdropped
  obtain ⟨s, hs, hdone⟩ := h
  cases Option.some.inj (hdropped.symm.trans hs)
  exact absurd hdone (by simp [Standing.isPastClosings])

/-- Whoever gives up a closing is dropped. -/
theorem GivesUpClosing.dropped {moves : List Move} {id : SessionId} (h : x.GivesUpClosing moves i id)
    (hrun : x.run moves = some y) : y.calls[i]? = some .dropped := by
  obtain ⟨before, z, later, rfl, hz, hcloses⟩ := h
  rw [run_append, hz, Option.bind_some, run] at hrun
  split at hrun
  · rename_i w hw
    obtain ⟨call, since, hcall, rfl⟩ := apply_drop hw
    exact dropped_of_run hrun (List.getElem?_set_self (List.getElem?_eq_some_iff.1 hcall).1)
  · exact absurd hrun (by simp)

end Exchange

/-- A closing session that nobody closes any more keeps its status for good. -/
theorem Exchange.status?_of_nobody_closes {settings : Settings} {factory : ClientFactory} {moves : List Move}
    {x : Exchange} {id : SessionId} (h : (Exchange.new settings factory).run moves = some x)
    (hclosing : x.status? id = some .closing) (hnobody : ∀ i, ¬x.Closes i id) {later : List Move} {y : Exchange}
    (hlater : x.run later = some y) : y.status? id = some .closing :=
  status?_eq_closing_iff.2 (closing_of_nobody_closes h (status?_eq_closing_iff.1 hclosing) hnobody hlater)

/-- **What closing all sessions leaves behind.**  Take any call that closes all sessions, in any state that
can be reached and whatever happens while it goes on.  When it has come to the end of its list, a session
that was tracked when it began is gone, unless another call had begun to close it and has not heard from
the engine.  If such a call still waits, the session is left to it.  If they were all dropped while they
waited, the session is left for good: whatever happens later, it is tracked and closing. -/
theorem closeAll_leaves_closings_of_others {settings : Settings} {factory : ClientFactory} {moves later : List Move}
    {x y : Exchange} {d : Demand} (h : (Exchange.new settings factory).run moves = some x)
    (hd : d = .closeAll ∨ d = .shutDown) (hlater : x.run (.start d :: later) = some y)
    (hpast : y.IsPastClosings x.calls.length) {id : SessionId} (htracked : x.status? id ≠ none) :
    y.status? id = none ∨
      (y.status? id = some .closing ∧
        ((∃ i, i ≠ x.calls.length ∧ y.Closes i id) ∨
          ((∃ i, i ≠ x.calls.length ∧
              (Exchange.new settings factory).GivesUpClosing (moves ++ .start d :: later) i id) ∧
            ∀ after z, y.run after = some z → z.status? id = some .closing))) := by
  by_cases hgone : y.status? id = none
  · exact .inl hgone
  have hreached : (Exchange.new settings factory).run (moves ++ .start d :: later) = some y := by
    rw [Exchange.run_append, h]
    exact hlater
  obtain ⟨status, hstatus⟩ := Option.ne_none_iff_exists'.1 htracked
  have hnotLive := (Exchange.closesAll h hd hlater).not_live hpast (Exchange.serial_lt_of_status? h hstatus)
  have hclosing := Exchange.status?_eq_closing_of_not_live (Exchange.orderly hreached).1 hnotLive hgone
  refine .inr ⟨hclosing, ?_⟩
  by_cases hcloser : ∃ i, y.Closes i id
  · -- The call itself closes nothing any more.
    obtain ⟨i, hcloses⟩ := hcloser
    exact .inl ⟨i, fun hself => hpast.not_closes id (hself ▸ hcloses), hcloses⟩
  · have hnobody : ∀ i, ¬y.Closes i id := fun i hcloses => hcloser ⟨i, hcloses⟩
    obtain ⟨i, hi⟩ := Exchange.closes_or_givesUp hreached (Exchange.status?_eq_closing_iff.1 hclosing)
    have hgave := hi.resolve_left (hnobody i)
    -- Nor was it dropped.
    refine .inr ⟨⟨i, fun hself => hpast.not_dropped (hself ▸ hgave.dropped hreached), hgave⟩, fun after z hz => ?_⟩
    exact Exchange.status?_of_nobody_closes hreached hclosing hnobody hz

/-- A session is opened, and somebody begins to close it and is dropped meanwhile. -/
def closingDropped : List Move :=
  [.start (.openSession none none), .resume 0 (.granting 7), .start (.closeSession ⟨1⟩), .drop 1]

/-- All sessions are closed after that, which is over at once; no call waits any more, and the session is
still there. -/
theorem closeAll_after_closingDropped :
    ∃ x y, (Exchange.new {} {}).run closingDropped = some x ∧ x.run [.start .closeAll] = some y ∧
      y.IsPastClosings x.calls.length ∧ x.status? ⟨1⟩ = some .closing ∧ y.status? ⟨1⟩ = some .closing ∧
      ∀ i, ¬y.Closes i ⟨1⟩ := by
  have hrun : ((Exchange.new {} {}).run closingDropped).map
      (fun x => (x.status? ⟨1⟩, x.calls.length,
        (x.run [.start .closeAll]).map fun y =>
          (y.status? ⟨1⟩, (y.calls[2]?).map fun s => s.isPastClosings, y.calls.all fun s => s.errand?.isNone))) =
      some (some .closing, 2, some (some .closing, some true, true)) := rfl
  obtain ⟨x, hx, hparts⟩ := Option.map_eq_some_iff.1 hrun
  obtain ⟨hbefore, hrest⟩ := Prod.mk.inj hparts
  obtain ⟨hlength, hafter⟩ := Prod.mk.inj hrest
  obtain ⟨y, hy, hends⟩ := Option.map_eq_some_iff.1 hafter
  obtain ⟨hstatus, hrest⟩ := Prod.mk.inj hends
  obtain ⟨hpast, hidle⟩ := Prod.mk.inj hrest
  refine ⟨x, y, hx, hy, ?_, hbefore, hstatus, ?_⟩
  · rw [hlength]
    exact Option.map_eq_some_iff.1 hpast
  · rintro i ⟨call, since, c, hcall, -, -⟩
    have hnone := List.all_eq_true.1 hidle _ (List.mem_of_getElem? hcall)
    exact absurd hnone (by simp [Standing.errand?])

/-- So it cannot be said that closing all sessions leaves none of them behind, and one that is left may never
go. -/
theorem closeAll_leaves_dropped_closing :
    (¬ ∀ (settings : Settings) (factory : ClientFactory) (moves later : List Move) (x y : Exchange),
      (Exchange.new settings factory).run moves = some x → x.run (.start .closeAll :: later) = some y →
      y.IsPastClosings x.calls.length → ∀ id : SessionId, x.status? id ≠ none → y.status? id = none) ∧
    ∃ x y, (Exchange.new {} {}).run closingDropped = some x ∧ x.run [.start .closeAll] = some y ∧
      y.IsPastClosings x.calls.length ∧ ∀ later z, y.run later = some z → z.status? ⟨1⟩ = some .closing := by
  obtain ⟨x, y, hx, hy, hpast, hbefore, hafter, hnobody⟩ := closeAll_after_closingDropped
  refine ⟨fun hnothing => ?_, x, y, hx, hy, hpast, fun later z hz => ?_⟩
  · have hgone := hnothing _ _ _ _ x y hx hy hpast ⟨1⟩ (by simp [hbefore])
    exact absurd (hafter.symm.trans hgone) (by simp)
  · exact Exchange.status?_of_nobody_closes (Exchange.run_trans hx hy) hafter hnobody hz

/-- The closing was given up, and the session is left for good. -/
theorem closeAll_leaves_closings_of_others_of_dropped :
    ∃ x y, (Exchange.new {} {}).run closingDropped = some x ∧ x.run [.start .closeAll] = some y ∧
      y.IsPastClosings x.calls.length ∧ x.status? ⟨1⟩ ≠ none ∧
      (∃ i, i ≠ x.calls.length ∧
        (Exchange.new {} {}).GivesUpClosing (closingDropped ++ [.start .closeAll]) i ⟨1⟩) ∧
      ∀ after z, y.run after = some z → z.status? ⟨1⟩ = some .closing := by
  obtain ⟨x, y, hx, hy, hpast, hbefore, hafter, hnobody⟩ := closeAll_after_closingDropped
  have htracked : x.status? ⟨1⟩ ≠ none := by simp [hbefore]
  refine ⟨x, y, hx, hy, hpast, htracked, ?_⟩
  rcases closeAll_leaves_closings_of_others hx (.inl rfl) hy hpast htracked with hgone | ⟨-, ⟨i, -, hcloses⟩ | hleft⟩
  · exact absurd (hafter.symm.trans hgone) (by simp)
  · exact absurd hcloses (hnobody i)
  · exact hleft

end QueryRelay
