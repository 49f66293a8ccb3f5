import Mathlib.Logic.Function.Basic
import QueryRelay.Proofs.Exchange.Step
import QueryRelay.Proofs.Session.Change

/-!
# What happens to reapers

The calls of an exchange have to do with reapers in two ways: a call is a reaper itself, or it waits for one to end.
A `Watch` is what one sees of an exchange who looks for nothing else.  There are five things that can happen to it, and
`Exchange.watch_step` is the inversion: every move is one of them or does not show.

* `Exchange.seen?` — what is seen of each call while it waits; a move changes it at the call that the move is about.
* `Exchange.reaper?`, `Exchange.stopping?` — which reaper a call is, and the end of which it waits for.
* `Watch.Step` — a reaper starts, is told to stop, or ends; somebody has waited for its end.
* `Exchange.watch_step` — **all that moves do to reapers**, as long as nobody who waits for a reaper to end is dropped.
-/

namespace QueryRelay

/-! ## Looking at calls that wait -/

variable {α : Type}

/-- What is seen of a call if it waits. -/
def Standing.seen? (f : Call → Option α) : Standing → Option α
  | waiting call _ => f call
  | _ => none

theorem Standing.seen?_after (f : Call → Option α) (s : Relay × CallProgress) :
    (Standing.after s).seen? f = s.2.point?.bind f := by
  obtain ⟨r, p⟩ := s
  cases p <;> rfl

/-- What is there after a change at one place was there before, or is what came there. -/
theorem update_eq_some {f : Nat → Option α} {i j : Nat} {o : Option α} {a : α} (h : Function.update f i o j = some a) :
    j = i ∧ o = some a ∨ j ≠ i ∧ f j = some a := by
  by_cases hj : j = i
  · subst hj
    exact .inl ⟨rfl, (Function.update_self j o f).symm.trans h⟩
  · exact .inr ⟨hj, (Function.update_of_ne hj o f).symm.trans h⟩

namespace Exchange

/-- What is seen of a call of an exchange if it waits. -/
def seen? (f : Call → Option α) (x : Exchange) (i : Nat) : Option α := x.calls[i]?.bind (Standing.seen? f)

variable {x y : Exchange} {m : Move} {i : Nat} (f : Call → Option α)

theorem seen?_of_getElem? {s : Standing} (h : x.calls[i]? = some s) : x.seen? f i = s.seen? f := by
  rw [seen?, h, Option.bind_some]

theorem exists_call_of_seen? {f : Call → Option α} {a : α} (h : x.seen? f i = some a) :
    ∃ call since, x.calls[i]? = some (.waiting call since) ∧ f call = some a := by
  obtain ⟨s, hs, hseen⟩ := Option.bind_eq_some_iff.1 h
  cases s with
  | waiting call since => exact ⟨call, since, hs, hseen⟩
  | finished | dropped => exact absurd hseen (by simp [Standing.seen?])

/-- A call that has not begun is not seen. -/
theorem seen?_length : x.seen? f x.calls.length = none := by
  rw [seen?, List.getElem?_eq_none_iff.2 (Nat.le_refl _), Option.bind_none]

theorem seen?_of_not_mover (h : x.apply m = some y) (hi : x.mover? m ≠ some i) : y.seen? f i = x.seen? f i := by
  rw [seen?, calls_of_not_mover h hi, ← seen?]

/-- A move changes what is seen at the call that it is about. -/
theorem seen?_of_mover (h : x.apply m = some y) (hi : x.mover? m = some i) {s : Standing}
    (hs : y.calls[i]? = some s) : y.seen? f = Function.update (x.seen? f) i (s.seen? f) := by
  funext j
  by_cases hj : j = i
  · subst hj
    rw [Function.update_self, seen?_of_getElem? f hs]
  · rw [Function.update_of_ne hj, seen?_of_not_mover f h]
    rw [hi]
    exact fun hji => hj (Option.some.inj hji).symm

end Exchange

/-! ## Calls that have to do with reapers -/

/-- The reaper that waits there. -/
def Reaping.reaper : Reaping → ReaperId
  | resting id _ => id
  | sweeping id _ => id

namespace Call

/-- The reaper that a call is, if it is one. -/
def reaper? : Call → Option ReaperId
  | reaping p => some p.reaper
  | _ => none

/-- The reaper whose end a call waits for, if it waits for one to end. -/
def stopping? (c : Call) : Option ReaperId := c.errand.stopping?

theorem reaper?_of_not_isReaper {c : Call} (h : c.isReaper = false) : c.reaper? = none := by
  cases c with
  | reaping p => exact absurd h (by simp [isReaper])
  | _ => rfl

/-- A call goes on as what it is. -/
theorem isReaper_of_resume {c call : Call} {answers : Answers} {r : Relay}
    (h : (c.resume (answers c.wait) r).2.point? = some call) : call.isReaper = c.isReaper := by
  cases c with
  | opening | closing | stopping | closingClient => exact absurd h (by simp [resume, Progress.point?])
  | _ =>
    simp only [resume, lift, Progress.point?_map, Option.map_eq_some_iff] at h
    obtain ⟨p, -, rfl⟩ := h
    rfl

end Call

/-- Who has waited for a reaper to end goes on when it has. -/
theorem Call.ended_of_isOver {c : Call} {id : ReaperId} {since : Instant} {r : Relay} (hc : c.stopping? = some id)
    (hover : c.wait.isOver since r = true) : r.reaperSide.phase? id = some .ended := by
  rw [← c.errand_wait] at hover
  unfold stopping? at hc
  cases he : c.errand with
  | stopping s =>
    rw [he] at hc hover
    cases Option.some.inj hc
    exact of_decide_eq_true hover
  | _ =>
    rw [he] at hc
    exact absurd hc (by simp [Errand.stopping?])

/-- Only the demand for a reaper begins a call that is one. -/
theorem Demand.isReaper_of_start {d : Demand} {r : Relay} {call : Call} (hd : d ≠ .startReaper)
    (h : (d.start r).2.point? = some call) : call.isReaper = false := by
  cases d with
  | startReaper => exact absurd rfl hd
  | update | markIdle | recordError | acquireClient | recreateClient | recordFailure | recordSuccess | canExecute |
    forget | clear => exact absurd h (by simp [start, Progress.point?])
  | _ =>
    simp only [start, Call.lift, Progress.point?_map, Option.map_eq_some_iff] at h
    obtain ⟨p, -, rfl⟩ := h
    rfl

namespace Exchange

/-- The reaper that a call of an exchange is, if it is one and waits. -/
def reaper? (x : Exchange) : Nat → Option ReaperId := x.seen? Call.reaper?

/-- The reaper whose end a call of an exchange waits for. -/
def stopping? (x : Exchange) : Nat → Option ReaperId := x.seen? Call.stopping?

end Exchange

/-! ## What can happen -/

/-- What is seen of an exchange by one who looks for reapers. -/
@[ext]
structure Watch where
  side : ReaperSide
  /-- Which reaper a call is. -/
  reaper? : Nat → Option ReaperId
  /-- The reaper whose end a call waits for. -/
  stopping? : Nat → Option ReaperId

/-- What is seen of an exchange by one who looks for reapers. -/
def Exchange.watch (x : Exchange) : Watch := ⟨x.relay.reaperSide, x.reaper?, x.stopping?⟩

namespace Watch

/-- One thing happens, or nothing that shows; a reaper starts only if that was asked for. -/
inductive Step (asked : Prop) (w : Watch) : Watch → Prop
  | same : Step asked w w
  /-- A reaper starts, and is a call of its own, unless there is one that has not ended and was not told to. -/
  | start (i : Nat) (hasked : asked) (hfree : w.reaper? i = none)
    (hnone : ∀ id, w.side.current = some id → w.side.phase? id = some .ended) :
    Step asked w { w with side := w.side.start, reaper? := Function.update w.reaper? i (some w.side.next) }
  /-- The reaper is told to stop, which has ended already. -/
  | tell (id : ReaperId) (hcurrent : w.side.current = some id) (hended : w.side.phase? id = some .ended) :
    Step asked w { w with side := w.side.tell id }
  /-- The reaper is told to stop by a call that waits for its end then. -/
  | stop (i : Nat) (id : ReaperId) (hfree : w.stopping? i = none) (hcurrent : w.side.current = some id)
    (hgoes : w.side.phase? id ≠ some .ended) :
    Step asked w { w with side := w.side.tell id, stopping? := Function.update w.stopping? i (some id) }
  /-- A reaper ends, which was told to. -/
  | finish (i : Nat) (id : ReaperId) (hwaits : w.reaper? i = some id) (htold : w.side.phase? id ≠ some .running) :
    Step asked w { w with side := w.side.finish id, reaper? := Function.update w.reaper? i none }
  /-- A reaper has ended, and a call has waited for that. -/
  | stopped (i : Nat) (id : ReaperId) (hwaits : w.stopping? i = some id) (hended : w.side.phase? id = some .ended) :
    Step asked w { w with stopping? := Function.update w.stopping? i none }

end Watch

/-! ## Steps of calls -/

/-- Deeds that do not concern reapers leave the reaper side as it is, and lead to no wait for one to end. -/
theorem LeadsBy.reaperSide {may : Deed → Prop} (hmay : ∀ d, may d → d.concernsReapers = false)
    {s t : Relay × Option Errand} (h : LeadsBy may s t) :
    t.1.reaperSide = s.1.reaperSide ∧ (s.2.bind Errand.stopping? = none → t.2.bind Errand.stopping? = none) := by
  induction h with
  | refl => exact ⟨rfl, id⟩
  | deed d hd r _ ih =>
    obtain ⟨hside, hwaits⟩ := ih
    have hnone := hmay d hd
    exact ⟨hside.trans (Deed.perform_quietly hnone r).reapers, fun _ => hwaits (Deed.perform_not_stopping hnone r)⟩

namespace Call

/-- A call that is no reaper does nothing to reapers when it goes on, and waits for none to end. -/
theorem resume_reaperSide (c : Call) (answers : Answers) (r : Relay) (hc : c.isReaper = false) :
    (c.resume (answers c.wait) r).1.reaperSide = r.reaperSide ∧
      (c.resume (answers c.wait) r).2.point?.bind reaper? = none ∧
      (c.resume (answers c.wait) r).2.point?.bind stopping? = none := by
  obtain ⟨hside, hwaits⟩ := (c.resume_leadsPlainly answers hc r).reaperSide fun _ hd => hd.not_concernsReapers
  refine ⟨hside.trans (c.errand.resume_quietly answers r).reapers, ?_, ?_⟩
  · refine Option.bind_eq_none_iff.2 fun call hcall => reaper?_of_not_isReaper ?_
    rw [isReaper_of_resume hcall, hc]
  · have hnone := hwaits (c.errand.resume_not_stopping answers r)
    rwa [situation, Option.bind_map] at hnone

end Call

namespace Sweep

theorem start_reaperSide (r : Relay) : (start r).1.reaperSide = r.reaperSide :=
  ((proceed_leads r _ 0).reaperSide fun _ hd => hd.not_concernsReapers).1

theorem resume_reaperSide (s : Sweep) (answers : Answers) (r : Relay) :
    (s.resume (answers s.wait) r).1.reaperSide = r.reaperSide :=
  ((s.resume_leads answers r).reaperSide fun _ hd => hd.not_concernsReapers).1

end Sweep

namespace Reaping

/-- A reaper waits again, and nothing shows; or it ends, and it was told to. -/
def GoesOnOrEnds (id : ReaperId) (before : ReaperSide) (x : Relay × Progress Reaping Unit) : Prop :=
  (x.1.reaperSide = before ∧ x.2.point?.map reaper = some id) ∨
    (x.2.point? = none ∧ x.1.reaperSide = before.finish id ∧ before.phase? id ≠ some .running)

theorem settle_goesOnOrEnds (r : Relay) (id : ReaperId) : GoesOnOrEnds id r.reaperSide (settle r id) := by
  rcases settle_reaperSide r id with ⟨hrests, -⟩ | ⟨ended, hends, hside, htold⟩
  · rw [hrests]
    exact .inl ⟨rfl, rfl⟩
  · rw [hends]
    exact .inr ⟨rfl, hside, htold⟩

theorem ofSweep_goesOnOrEnds (id : ReaperId) (x : Relay × Progress Sweep Nat) :
    GoesOnOrEnds id x.1.reaperSide (ofSweep id x) := by
  obtain ⟨r, p⟩ := x
  cases p with
  | waiting s => exact .inl ⟨rfl, rfl⟩
  | finished closed => exact settle_goesOnOrEnds r id

/-- **A step of a reaper.** -/
theorem resume_goesOnOrEnds (p : Reaping) (answers : Answers) (r : Relay) :
    GoesOnOrEnds p.reaper r.reaperSide (p.resume (answers p.wait) r) := by
  cases p with
  | resting id interval =>
    simp only [resume]
    split
    · rw [← Sweep.start_reaperSide r]
      exact ofSweep_goesOnOrEnds id _
    · exact settle_goesOnOrEnds r id
  | sweeping id s =>
    rw [← s.resume_reaperSide answers r]
    exact ofSweep_goesOnOrEnds id _

end Reaping

namespace Demand

variable {d : Demand} (r : Relay)

/-- What is seen of a call that has just begun, if it is no reaper. -/
theorem start_not_reaper (hd : d ≠ .startReaper) : (d.start r).2.point?.bind Call.reaper? = none :=
  Option.bind_eq_none_iff.2 fun _ hcall => Call.reaper?_of_not_isReaper (isReaper_of_start hd hcall)

/-- A demand that does not concern reapers does nothing to them, and does not make a call wait for one. -/
theorem start_reaperSide (hd : d.concernsReapers = false) :
    (d.start r).1.reaperSide = r.reaperSide ∧ (d.start r).2.point?.bind Call.stopping? = none := by
  obtain ⟨hside, hwaits⟩ := (d.start_leadsPlainly hd r).reaperSide fun _ hpermitted => hpermitted.2
  refine ⟨hside, ?_⟩
  have hnone := hwaits rfl
  rwa [situation, Option.bind_map] at hnone

/-- A demand to stop the reaper tells it, if there is one, and makes the call wait for its end unless it has ended. -/
theorem start_of_stops (hd : d.stops = true) :
    ((d.start r).1.reaperSide = r.reaperSide ∧ (d.start r).2.point?.bind Call.stopping? = none ∧ r.reaper = none) ∨
      ∃ id, r.reaper = some id ∧ (d.start r).1.reaperSide = r.reaperSide.tell id ∧
        (((d.start r).2.point?.bind Call.stopping? = none ∧ r.reaperSide.phase? id = some .ended) ∨
          ((d.start r).2.point?.bind Call.stopping? = some id ∧ r.reaperSide.phase? id ≠ some .ended)) := by
  have hleads := start_leads_of_stops hd r
  obtain ⟨hside, hwaits⟩ := hleads.reaperSide fun _ hplain => hplain.not_concernsReapers
  simp only [situation, Option.bind_map] at hside hwaits
  rcases Stopping.start_reaperSide r with ⟨hstart, hnone⟩ | ⟨id, hid, htold, ⟨hpoint, hended⟩ | ⟨hpoint, hgoes⟩⟩
  · refine .inl ⟨?_, hwaits ?_, hnone⟩
    · rw [hside, Deed.perform, hstart]
    · rw [Deed.perform, hstart]
      rfl
  · refine .inr ⟨id, hid, hside.trans htold, .inl ⟨hwaits ?_, hended⟩⟩
    rw [Deed.perform, hpoint]
    rfl
  · -- The call waits already, so that nothing follows.
    rw [Deed.perform, hpoint] at hleads
    have heq := hleads.eq_of_some
    refine .inr ⟨id, hid, hside.trans htold, .inr ⟨?_, hgoes⟩⟩
    have hbind : ((d.start r).2.point?.map Call.errand).bind Errand.stopping? = some id := by
      rw [show (d.start r).2.point?.map Call.errand = some (.stopping ⟨id⟩) from congrArg Prod.snd heq]
      rfl
    rwa [Option.bind_map] at hbind

/-- A demand for a reaper starts one, which rests first, unless there is one. -/
theorem start_startReaper :
    startReaper.start r = (r, .finished .nothing) ∨
      ((startReaper.start r).1.reaperSide = r.reaperSide.start ∧
        (∃ interval, (startReaper.start r).2 = .waiting (.reaping (.resting r.reaperSide.next interval))) ∧
        ∀ id, r.reaper = some id → r.reaperSide.phase? id = some .ended) := by
  simp only [start]
  rcases r.startReaper_reaperSide with ⟨hsame, -⟩ | ⟨hid, hside, hnone⟩
  · rw [hsame]
    exact .inl rfl
  · generalize r.startReaper = x at hid hside
    obtain ⟨started, id⟩ := x
    cases hid
    dsimp only at hside ⊢
    rcases Reaping.settle_reaperSide started r.reaperSide.next with ⟨hrests, -⟩ | ⟨-, -, -, htold⟩
    · rw [hrests]
      exact .inr ⟨hside, ⟨_, rfl⟩, hnone⟩
    · rw [hside, ReaperSide.phase?_start, if_pos rfl] at htold
      exact absurd rfl htold

end Demand

namespace Call

/-- A call that is a reaper goes on as it is, or ends because it was told to. -/
theorem resume_reaping (p : Reaping) (answers : Answers) (r : Relay) :
    ((reaping p).resume (answers p.wait) r).2.point?.bind stopping? = none ∧
      ((((reaping p).resume (answers p.wait) r).1.reaperSide = r.reaperSide ∧
          ((reaping p).resume (answers p.wait) r).2.point?.bind reaper? = some p.reaper) ∨
        (((reaping p).resume (answers p.wait) r).1.reaperSide = r.reaperSide.finish p.reaper ∧
          ((reaping p).resume (answers p.wait) r).2.point?.bind reaper? = none ∧
          r.reaperSide.phase? p.reaper ≠ some .running)) := by
  simp only [resume, point?_lift, Option.bind_map]
  refine ⟨Option.bind_eq_none_iff.2 fun q _ => by cases q <;> rfl, ?_⟩
  rcases p.resume_goesOnOrEnds answers r with ⟨hside, hgoesOn⟩ | ⟨hends, hside, htold⟩
  · refine .inl ⟨hside, ?_⟩
    rw [← hgoesOn, Option.map_eq_bind]
    rfl
  · refine .inr ⟨hside, ?_, htold⟩
    rw [hends, Option.bind_none]

end Call

/-! ## Steps of exchanges -/

namespace Exchange

variable {x y : Exchange} {m : Move} {i : Nat}

/-- What a move makes of a watch, by what it makes of the call that it is about. -/
theorem watch_of_mover (h : x.apply m = some y) (hi : x.mover? m = some i) {s : Standing}
    (hs : y.calls[i]? = some s) :
    y.watch = ⟨y.relay.reaperSide, Function.update x.reaper? i (s.seen? Call.reaper?),
      Function.update x.stopping? i (s.seen? Call.stopping?)⟩ :=
  Watch.ext rfl (seen?_of_mover _ h hi hs) (seen?_of_mover _ h hi hs)

section

variable {d : Demand}

/-- What the beginning of a call makes of a watch. -/
theorem watch_of_start (h : x.apply (.start d) = some y) :
    y.watch = ⟨(d.start x.relay).1.reaperSide,
      Function.update x.reaper? x.calls.length ((d.start x.relay).2.point?.bind Call.reaper?),
      Function.update x.stopping? x.calls.length ((d.start x.relay).2.point?.bind Call.stopping?)⟩ := by
  have hcalls : y.calls[x.calls.length]? = some (.after (d.start x.relay)) := by
    cases Option.some.inj h
    exact List.getElem?_concat_length
  have hrelay : y.relay = (d.start x.relay).1 := by
    cases Option.some.inj h
    rfl
  rw [watch_of_mover h rfl hcalls, Standing.seen?_after, Standing.seen?_after, hrelay]

/-- Nothing is seen of a call before it begins. -/
theorem update_length_none (f : Call → Option α) : Function.update (x.seen? f) x.calls.length none = x.seen? f :=
  Function.update_eq_self_iff.2 (seen?_length f).symm

/-- **The beginning of a call that stops the reaper**: there is none, or it is told, and the call waits for its end if
it has not ended. -/
theorem watch_of_stops (h : x.apply (.start d) = some y) (hd : d.stops = true) :
    (y.watch = x.watch ∧ x.relay.reaper = none) ∨
      ∃ id, x.relay.reaper = some id ∧
        ((y.watch = { x.watch with side := x.relay.reaperSide.tell id } ∧
            x.relay.reaperSide.phase? id = some .ended) ∨
          (y.watch = ⟨x.relay.reaperSide.tell id, x.reaper?,
              Function.update x.stopping? x.calls.length (some id)⟩ ∧
            x.relay.reaperSide.phase? id ≠ some .ended)) := by
  have hnot : d ≠ .startReaper := by
    rintro rfl
    exact absurd hd (by simp [Demand.stops])
  rw [watch_of_start h, d.start_not_reaper x.relay hnot, reaper?, update_length_none]
  rcases Demand.start_of_stops x.relay hd with
    ⟨hside, hstopping, hnone⟩ | ⟨id, hid, hside, ⟨hstopping, hended⟩ | ⟨hstopping, hgoes⟩⟩
  · rw [hside, hstopping, stopping?, update_length_none]
    exact .inl ⟨rfl, hnone⟩
  · rw [hside, hstopping, stopping?, update_length_none]
    exact .inr ⟨id, hid, .inl ⟨rfl, hended⟩⟩
  · rw [hside, hstopping]
    exact .inr ⟨id, hid, .inr ⟨rfl, hgoes⟩⟩

/-- **The beginning of a call.** -/
theorem watch_step_start (h : x.apply (.start d) = some y) : x.watch.Step (d = .startReaper) y.watch := by
  by_cases hd : d = .startReaper
  · subst hd
    rw [watch_of_start h]
    rcases Demand.start_startReaper x.relay with hnothing | ⟨hside, ⟨interval, hrests⟩, hnone⟩
    · rw [hnothing]
      simp only [Progress.point?, Option.bind_none]
      rw [reaper?, stopping?, update_length_none, update_length_none]
      exact .same
    · rw [hside, hrests]
      simp only [Progress.point?, Option.bind_some]
      rw [show Call.stopping? (.reaping (.resting x.relay.reaperSide.next interval)) = none from rfl, stopping?,
        update_length_none]
      exact .start (w := x.watch) x.calls.length trivial (seen?_length _) hnone
  · cases hstops : d.stops with
    | false =>
      have hconcerns : d.concernsReapers = false :=
        Bool.eq_false_iff.2 fun h => (Demand.concernsReapers_cases h).elim hd (by simp [hstops])
      obtain ⟨hside, hstopping⟩ := Demand.start_reaperSide x.relay hconcerns
      rw [watch_of_start h, d.start_not_reaper x.relay hd, hside, hstopping, reaper?, stopping?, update_length_none,
        update_length_none]
      exact .same
    | true =>
      rcases watch_of_stops h hstops with ⟨hwatch, -⟩ | ⟨id, hid, ⟨hwatch, hended⟩ | ⟨hwatch, hgoes⟩⟩
      · rw [hwatch]
        exact .same
      · rw [hwatch]
        exact .tell (w := x.watch) id hid hended
      · rw [hwatch]
        exact .stop (w := x.watch) x.calls.length id (seen?_length _) hid hgoes

end

/-- **A call that goes on.** -/
theorem watch_step_resume {answers : Answers} {asked : Prop} (h : x.apply (.resume i answers) = some y) :
    x.watch.Step asked y.watch := by
  obtain ⟨call, since, hcall, hy⟩ := apply_resume h
  have hover := isOver_of_apply_resume h hcall
  have hcalls : y.calls[i]? = some (.after (call.resume (answers call.wait) x.relay)) := by
    rw [hy]
    exact List.getElem?_set_self (List.getElem?_eq_some_iff.1 hcall).1
  have hreaper : x.reaper? i = call.reaper? := seen?_of_getElem? _ hcall
  have hstopping : x.stopping? i = call.stopping? := seen?_of_getElem? _ hcall
  have hwatch := watch_of_mover h rfl hcalls
  rw [Standing.seen?_after, Standing.seen?_after, show y.relay = (call.resume (answers call.wait) x.relay).1 by rw [hy]]
    at hwatch
  rw [hwatch]
  cases hc : call.isReaper with
  | false =>
    obtain ⟨hside, hnoReaper, hnoStop⟩ := call.resume_reaperSide answers x.relay hc
    have hsame : Function.update x.reaper? i none = x.reaper? :=
      Function.update_eq_self_iff.2 (hreaper.trans (Call.reaper?_of_not_isReaper hc)).symm
    rw [hside, hnoReaper, hnoStop, hsame]
    cases hstops : x.stopping? i with
    | none =>
      rw [Function.update_eq_self_iff.2 hstops.symm]
      exact .same
    | some id => exact .stopped (w := x.watch) i id hstops (Call.ended_of_isOver (hstopping.symm.trans hstops) hover)
  | true =>
    cases call with
    | reaping p =>
      obtain ⟨hnoStop, hgoesOnOrEnds⟩ := Call.resume_reaping p answers x.relay
      have hsame : Function.update x.stopping? i none = x.stopping? := by
        refine Function.update_eq_self_iff.2 (hstopping.trans ?_).symm
        cases p <;> rfl
      rw [hnoStop, hsame]
      rcases hgoesOnOrEnds with ⟨hside, hgoesOn⟩ | ⟨hside, hends, htold⟩
      · rw [hside, hgoesOn, Function.update_eq_self_iff.2 hreaper.symm]
        exact .same
      · rw [hside, hends]
        exact .finish (w := x.watch) i p.reaper hreaper htold
    | _ => exact absurd hc (by simp [Call.isReaper])

/-- **A call that is dropped** waits for no reaper any more, and nothing else shows. -/
theorem watch_drop (h : x.apply (.drop i) = some y) :
    y.watch = { x.watch with stopping? := Function.update x.stopping? i none } := by
  obtain ⟨call, since, hcall, rfl⟩ := apply_drop h
  have hreaper : x.reaper? i = none :=
    (seen?_of_getElem? _ hcall).trans (Call.reaper?_of_not_isReaper (not_isReaper_of_apply_drop h hcall))
  have hi := (List.getElem?_eq_some_iff.1 hcall).1
  rw [watch_of_mover h rfl (List.getElem?_set_self hi), call.drop_eq, (call.errand.drop_quietly x.relay).reapers]
  simp only [Standing.seen?]
  rw [Function.update_eq_self_iff.2 hreaper.symm]
  rfl

/-- Nothing shows of a call that is dropped and did not wait for a reaper to end. -/
theorem watch_of_drop (h : x.apply (.drop i) = some y) (hstopping : x.stopping? i = none) : y.watch = x.watch := by
  rw [watch_drop h, Function.update_eq_self_iff.2 hstopping.symm]
  rfl

/-- **All that a move does to reapers.**  Nobody who waits for a reaper to end is dropped. -/
theorem watch_step (h : x.apply m = some y) (hdrop : ∀ i, m = .drop i → x.stopping? i = none) :
    x.watch.Step (m = .start .startReaper) y.watch := by
  cases m with
  | start d =>
    rw [Move.start.injEq]
    exact watch_step_start h
  | resume i answers => exact watch_step_resume h
  | drop i =>
    rw [watch_of_drop h (hdrop i rfl)]
    exact .same
  | elapse span =>
    cases Option.some.inj h
    exact .same

end Exchange

end QueryRelay
