import Mathlib.Data.Multiset.Count
import QueryRelay.Proofs.Session.Invariant

/-!
# Capacity is a hard bound

An opening counts against the limit from the moment it has found a free place.  The place goes over
to the session, or is given back when the opening fails or is dropped: three exits in different
steps of different calls, none of which may be missed or taken twice.

`capacity` is the invariant: no more places are taken than there are, and the places that are taken
but hold no session yet are those of the openings under way.  `occupied_le_maxSessions` says so of
every run: **tracked sessions and pending openings together never exceed the limit**, and the count
of pending openings is never lowered below zero.
-/

namespace QueryRelay

/-- Whether an errand is an opening. -/
def Errand.isOpening : Errand → Bool
  | opening _ => true
  | _ => false

/-- Whether a call waits for the engine to open a session.  It has passed the check of the limit, and
it has neither come back nor been dropped. -/
def Standing.isOpening (s : Standing) : Bool := s.errand?.any Errand.isOpening

/-- How many openings are under way. -/
def Exchange.openings (x : Exchange) : Nat := x.calls.countP Standing.isOpening

/-- Under some limits no more places are taken than there are, and every place without a session
belongs to an opening under way. -/
def capacity (limits : SessionLimits) (s : SessionSide) (_opened : List RemoteSession)
    (errands : Multiset Errand) : Prop :=
  s.limits = limits ∧ s.occupied ≤ limits.maxSessions ∧ s.pending = errands.countP fun e => e.isOpening

namespace SessionSide

theorem card_others_le (s : SessionSide) (id : SessionId) : (s.others id).card ≤ s.sessions.card :=
  Multiset.card_le_card (Multiset.filter_le _ _)

theorem card_sessionsWith_le (s : SessionSide) (remote : RemoteSession) :
    (s.sessionsWith remote).card ≤ s.sessions.card + 1 := by
  rw [sessionsWith, Multiset.card_cons]
  exact Nat.succ_le_succ (s.card_others_le _)

end SessionSide

theorem countP_isOpening_opening (o : Opening) (errands : Multiset Errand) :
    (Errand.opening o ::ₘ errands).countP (fun e => e.isOpening) = errands.countP (fun e => e.isOpening) + 1 :=
  Multiset.countP_cons_of_pos _ rfl

theorem countP_isOpening_closing (c : Closing) (errands : Multiset Errand) :
    (Errand.closing c ::ₘ errands).countP (fun e => e.isOpening) = errands.countP fun e => e.isOpening :=
  Multiset.countP_cons_of_neg _ (by simp [Errand.isOpening])

theorem sessionInvariant_capacity (limits : SessionLimits) : SessionInvariant (capacity limits) where
  reserve := by
    rintro o s opened errands ⟨hlimits, hle, hpending⟩ hfree
    refine ⟨hlimits, ?_, ?_⟩
    · rw [hlimits] at hfree
      exact Nat.succ_le_of_lt hfree
    · rw [countP_isOpening_opening, ← hpending]
      rfl
  track := by
    rintro o remote s opened errands ⟨hlimits, hle, hpending⟩
    rw [countP_isOpening_opening] at hpending
    have hcard := s.card_sessionsWith_le remote
    simp only [SessionSide.occupied] at hle
    refine ⟨hlimits, ?_, ?_⟩
    · simp only [SessionSide.track, SessionSide.occupied]
      omega
    · simp only [SessionSide.track]
      omega
  release := by
    rintro o s opened errands ⟨hlimits, hle, hpending⟩
    rw [countP_isOpening_opening] at hpending
    simp only [SessionSide.occupied] at hle
    refine ⟨hlimits, ?_, ?_⟩
    · simp only [SessionSide.release, SessionSide.occupied]
      omega
    · simp only [SessionSide.release]
      omega
  beginClosing := by
    rintro c phase s opened errands ⟨hlimits, hle, hpending⟩ - hsessions
    refine ⟨hlimits, ?_, ?_⟩
    · rw [SessionSide.occupied, hsessions] at hle
      simpa [SessionSide.beginClosing, SessionSide.occupied] using hle
    · rw [countP_isOpening_closing]
      exact hpending
  endClosing := by
    rintro c reply s opened errands ⟨hlimits, hle, hpending⟩
    have hcard := s.card_others_le c.id
    simp only [SessionSide.occupied] at hle
    refine ⟨hlimits, ?_, ?_⟩
    · simp only [SessionSide.endClosing, SessionSide.occupied]
      omega
    · rw [countP_isOpening_closing] at hpending
      exact hpending
  dropClosing := by
    rintro c s opened errands ⟨hlimits, hle, hpending⟩
    rw [countP_isOpening_closing] at hpending
    exact ⟨hlimits, hle, hpending⟩

/-- The openings under way are the openings among the errands. -/
theorem Exchange.countP_isOpening_errands (x : Exchange) :
    (sessionErrands x.errands).countP (fun e => e.isOpening) = x.openings := by
  have hconcern : ∀ e : Errand, e.isOpening = true ∧ e.concernsSessions = true ↔ e.isOpening = true := by
    intro e
    cases e <;> simp [Errand.isOpening, Errand.concernsSessions]
  rw [sessionErrands, Multiset.countP_filter]
  simp only [hconcern, errands, openings, Multiset.coe_countP, List.countP_filterMap]
  refine List.countP_congr fun s _ => ?_
  cases s <;> simp [Standing.isOpening, Standing.errand?]

/-- **Capacity is a hard bound.**  However many openings, closings, sweeps and other calls run side by
side, whatever the engine answers and whoever is dropped while waiting: tracked sessions and pending
openings together never exceed the limit, and exactly those openings are pending that have passed
the check of the limit and have neither come back nor been dropped.  So there is a pending opening
to take off the count whenever an opening comes back or is dropped. -/
theorem occupied_le_maxSessions {settings : Settings} {factory : ClientFactory} {moves : List Move} {x : Exchange}
    (h : (Exchange.new settings factory).run moves = some x) :
    x.relay.registry.sessions.size + x.relay.registry.pending ≤ settings.limits.maxSessions ∧
      x.relay.registry.pending = x.openings ∧
      ∀ call ∈ x.calls, call.isOpening = true → 0 < x.relay.registry.pending := by
  have hfresh : (Exchange.new settings factory).Satisfies fun r heard errands =>
      capacity settings.limits r.sessionSide (heard.filterMap Heard.opened?) (sessionErrands errands) :=
    ⟨rfl, Nat.zero_le _, rfl⟩
  obtain ⟨-, hle, hpending⟩ := (sessionInvariant_capacity settings.limits).invariant.satisfies_run h hfresh
  rw [x.countP_isOpening_errands] at hpending
  rw [x.relay.occupied_sessionSide] at hle
  refine ⟨hle, hpending, ?_⟩
  intro call hcall hopening
  have hpos : 0 < x.openings := List.countP_pos_iff.2 ⟨call, hcall, hopening⟩
  rwa [← hpending] at hpos

/-- Two places and four openings, of which one is dropped, one succeeds, one waits, and one is refused. -/
theorem occupied_le_maxSessions_of_two :
    ∃ x : Exchange,
      (Exchange.new { limits := { maxSessions := 2 } } {}).run
        [.start (.openSession none none), .start (.openSession (some "a") none), .drop 0,
          .start (.openSession none none), .start (.openSession none none), .resume 1 (.granting 1)] = some x ∧
      (x.relay.registry.sessions.size, x.openings) = (1, 1) ∧
      x.relay.registry.sessions.size + x.relay.registry.pending ≤ 2 ∧
      x.relay.registry.pending = x.openings ∧
      ∀ call ∈ x.calls, call.isOpening = true → 0 < x.relay.registry.pending := by
  have hrun : ((Exchange.new { limits := { maxSessions := 2 } } {}).run
      [.start (.openSession none none), .start (.openSession (some "a") none), .drop 0,
        .start (.openSession none none), .start (.openSession none none), .resume 1 (.granting 1)]).map
      (fun x => (x.relay.registry.sessions.size, x.openings)) = some (1, 1) := rfl
  obtain ⟨x, hx, hcounts⟩ := Option.map_eq_some_iff.1 hrun
  exact ⟨x, hx, hcounts, occupied_le_maxSessions hx⟩

end QueryRelay
