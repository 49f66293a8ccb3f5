import Mathlib.Algebra.BigOperators.Group.List.Basic
import QueryRelay.Proofs.Exchange.Step
import QueryRelay.Proofs.Session.Capacity
import QueryRelay.Proofs.Session.Opening
import QueryRelay.Proofs.Session.Retirement

/-!
# Openings report once

Whoever is let through by the circuit of openings owes it an outcome: a trial that reports none keeps the
circuit waiting, and one that reports two may close it wrongly.  Between the request and the answer
anything may happen to the breaker, the registry and the client, so an outcome is followed here from
stride to stride.

* `OpeningCourse` — the one or two strides of an opening, with what the engine answered in between;
  `exists_course`: every opening that has come to its end has one.
* `OpeningCourse.ReportsOnce` — what is reported and left behind; one lemma for each way out.
* `OpeningCourse.IsOf.reportsOnce` — every course reports one outcome if it was let through, and none if
  it was not; a failure leaves no session, no place and no report behind.
* `opening_reports_once` — **every opening that has come to its end has a course, and every course reports
  once**.
-/

namespace QueryRelay

/-! ## Courses -/

/-- An opening from its beginning to its end. -/
structure OpeningCourse where
  begun : Stride
  /-- What the engine answered, if it was asked, and the stride that followed. -/
  answered? : Option (Except Failure RemoteSession × Stride)
  outcome : Except Failure SessionHandle

namespace OpeningCourse

/-- The courses of openings.  An opening begins on some relay.  If it is not over at once, it goes on in any
exchange at all in which it waits, as a call of its own or as part of another one: whatever happened in
between. -/
inductive IsOf (settings : Settings) (factory : ClientFactory) (database : Option String)
    (options : Option SessionOptions) : OpeningCourse → Prop
  | atOnce {r r' : Relay} {outcome : Except Failure SessionHandle} :
    Opening.start r database options = (r', .finished outcome) →
    IsOf settings factory database options ⟨⟨r, r'⟩, none, outcome⟩
  | answered {r r' : Relay} {o : Opening} {moves : List Move} {x : Exchange} {i : Nat} {call : Call}
      {since : Instant} (reply : Except Failure RemoteSession) :
    Opening.start r database options = (r', .waiting o) →
    (Exchange.new settings factory).run moves = some x →
    x.calls[i]? = some (.waiting call since) → call.errand = .opening o →
    IsOf settings factory database options
      ⟨⟨r, r'⟩, some (reply, ⟨x.relay, (o.resume reply x.relay).1⟩), (o.resume reply x.relay).2⟩

/-- The strides of an opening. -/
def strides (c : OpeningCourse) : List Stride := c.begun :: (c.answered?.map Prod.snd).toList

/-- In all its strides an opening tells the breaker these things, one after the other. -/
def Tells (c : OpeningCourse) (acts : List BreakerAct) : Prop :=
  ∃ parts, List.Forall₂ Stride.Tells c.strides parts ∧ parts.flatten = acts

/-- What is to be reported of an outcome. -/
def act : Except Failure SessionHandle → BreakerAct
  | .ok _ => .success
  | .error _ => .failure

/-- The engine's answer made a session: it was not tracked before, it is tracked from now on, and its place
is the one that the opening had. -/
def Tracks (c : OpeningCourse) (handle : SessionHandle) : Prop :=
  ∃ s, c.answered? = some (.ok handle.remote, s) ∧
    c.begun.after.registry.sessions = c.begun.before.registry.sessions ∧
    s.before.registry.isTracked handle.id = false ∧
    s.after.registry.sessions =
      s.before.registry.sessions.insert handle.id ⟨.new handle.database s.before.now, handle.remote⟩ ∧
    s.after.registry.occupied = s.before.registry.occupied

/-- A stride does not touch the tracked sessions, and reports nothing about them. -/
structure Traceless (s : Stride) : Prop where
  sessions : s.after.registry.sessions = s.before.registry.sessions
  created : reportedValues .sessionsCreated s.written = []
  gauge : reportedValues .sessionsActive s.written = []

/-- What an opening reports and leaves behind, whichever way it goes. -/
structure ReportsOnce (c : OpeningCourse) : Prop where
  /-- Without a free place nobody is asked, and nothing changes: not even the circuit, whose trial would be
  wasted. -/
  full : c.begun.before.isFull = true →
    c.outcome =
        .error (.resourceExhausted c.begun.before.registry.occupied c.begun.before.settings.limits.maxSessions) ∧
      c.answered? = none ∧ c.begun.after = c.begun.before
  /-- Refused by the circuit, neither the factory nor the engine is asked, and nothing changes. -/
  refused : c.begun.before.isFull = false → c.begun.before.admitsOpening = false →
    c.outcome = .error (.circuitOpen sessionCreationKey) ∧ c.answered? = none ∧ c.begun.after = c.begun.before
  /-- Whoever was let through reports one outcome. -/
  admitted : c.begun.before.isFull = false → c.begun.before.admitsOpening = true →
    c.Tells [.question, act c.outcome]
  tracked : ∀ handle, c.outcome = .ok handle → c.Tracks handle
  /-- A failure leaves no session, no report of one, and no place taken. -/
  failed : ∀ failure, c.outcome = .error failure →
    (∀ s ∈ c.strides, Traceless s) ∧ (c.strides.map Stride.placesTaken).sum = 0
  /-- The beginning of an opening asks for a client, once, if it is let through and there is none.  A client
  that there is stays. -/
  acquired :
    (c.begun.clientsAsked = if c.begun.before.wantsClient then 1 else 0) ∧
      c.begun.after.slot = if c.begun.before.wantsClient then c.begun.before.slot.recreate.1 else c.begun.before.slot
  /-- A client is made anew, once, if and only if the engine could not be reached. -/
  recreated : ∀ reply s, c.answered? = some (reply, s) →
    (s.clientsAsked = if Opening.isUnreachable reply then 1 else 0) ∧
      s.after.slot = if Opening.isUnreachable reply then s.before.slot.recreate.1 else s.before.slot
  /-- The engine's failure is returned; if making the client anew fails too, the old client stays. -/
  returned : ∀ failure s, c.answered? = some (.error failure, s) →
    c.outcome = .error failure ∧
      ∀ second, s.before.slot.recreate.2 = .error second → s.after.slot.client = s.before.slot.client

/-! ### What can be seen of each way out -/

theorem traceless_of_written {s : Stride} (hsessions : s.after.registry.sessions = s.before.registry.sessions)
    (hwritten : ∀ h ∈ s.written, ∀ e, h ≠ .reported e) : Traceless s := by
  have hquiet : ∀ m, reportedValues m s.written = [] := by
    intro m
    refine List.filterMap_eq_nil_iff.2 fun h hmem => ?_
    cases h with
    | reported e => exact absurd rfl (hwritten _ hmem e)
    | _ => rfl
  exact ⟨hsessions, hquiet _, hquiet _⟩

theorem traceless_refl (r : Relay) : Traceless ⟨r, r⟩ := by
  have hnothing : (Stride.mk r r).written = [] := Stride.written_of_log (List.append_nil _).symm
  exact traceless_of_written rfl (by simp [hnothing])

theorem acquisition_ne_reported {r : Relay} : ∀ h ∈ Opening.acquisition r, ∀ e, h ≠ .reported e := by
  unfold Opening.acquisition
  split <;> simp

theorem recreation_ne_reported {r : Relay} : ∀ h ∈ Opening.recreation r, ∀ e, h ≠ .reported e := by
  unfold Opening.recreation
  split
  · split <;> simp
  · simp

/-- What the beginning of an opening that was let through does with the client. -/
theorem acquired_of_admitted {r : Relay} (hfree : r.isFull = false) (hadmits : r.admitsOpening = true) :
    ((Opening.acquisition r).countP Happening.asksForClient = if r.wantsClient then 1 else 0) ∧
      r.slot.acquire.1 = if r.wantsClient then r.slot.recreate.1 else r.slot := by
  rw [ClientSlot.acquire_eq, Opening.acquisition, Relay.wantsClient, hfree, hadmits]
  cases r.slot.client with
  | none => exact ⟨rfl, rfl⟩
  | some client => exact ⟨rfl, rfl⟩

theorem countP_recreation (r : Relay) : (Opening.recreation r).countP Happening.asksForClient = 1 := by
  unfold Opening.recreation
  split
  · split <;> rfl
  · rfl

section WaysOut

variable {r : Relay}

/-- A refusal: nothing changes. -/
theorem ReportsOnce.of_refusal {failure : Failure}
    (hfull : r.isFull = true →
      failure = .resourceExhausted r.registry.occupied r.settings.limits.maxSessions)
    (hrefused : r.isFull = false → r.admitsOpening = false ∧ failure = .circuitOpen sessionCreationKey) :
    ReportsOnce ⟨⟨r, r⟩, none, .error failure⟩ where
  full := fun h => ⟨congrArg Except.error (hfull h), rfl, rfl⟩
  refused := fun h _ => ⟨congrArg Except.error (hrefused h).2, rfl, rfl⟩
  admitted := fun h hadmits => absurd ((hrefused h).1.symm.trans hadmits) (by simp)
  tracked := fun handle h => absurd h (by simp)
  failed := by
    intro _ _
    refine ⟨fun s hs => ?_, by simp [strides, Stride.placesTaken]⟩
    rw [List.mem_singleton.1 hs]
    exact traceless_refl r
  acquired := by
    have hnothing : (Stride.mk r r).written = [] := Stride.written_of_log (List.append_nil _).symm
    have hwants : r.wantsClient = false := by
      cases hfree : r.isFull with
      | true => simp [Relay.wantsClient, hfree]
      | false => simp [Relay.wantsClient, hfree, (hrefused hfree).1]
    rw [Stride.clientsAsked, hnothing, hwants]
    exact ⟨rfl, rfl⟩
  recreated := fun _ _ h => absurd h (by simp)
  returned := fun _ _ h => absurd h (by simp)

/-- Let through and over at once, an opening has no client: the place is given back, and the failure is
reported. -/
theorem ReportsOnce.of_no_client {database : Option String} {options : Option SessionOptions} {r' : Relay}
    {outcome : Except Failure SessionHandle} (hstart : Opening.start r database options = (r', .finished outcome))
    (hfree : r.isFull = false) (hadmits : r.admitsOpening = true) : ReportsOnce ⟨⟨r, r'⟩, none, outcome⟩ := by
  obtain ⟨failure, hclient⟩ : ∃ failure, r.slot.acquire.2 = .error failure := by
    cases hclient : r.slot.acquire.2 with
    | ok client =>
      rw [Opening.start_of_client hfree hadmits hclient] at hstart
      exact absurd (congrArg Prod.snd hstart) (by simp)
    | error failure => exact ⟨failure, rfl⟩
  rw [Opening.start_of_no_client hfree hadmits hclient] at hstart
  cases hstart
  set after : Relay :=
    { r with
      breaker := (r.breaker.canExecute r.now sessionCreationKey).1.recordFailure r.now sessionCreationKey
      slot := r.slot.acquire.1
      log := r.log ++ Opening.acquisition r }
  have hwritten : (Stride.mk r after).written = Opening.acquisition r := Stride.written_of_log rfl
  have htells : (Stride.mk r after).Tells [.question, .failure] := rfl
  exact
    { full := fun h => absurd (h.symm.trans hfree) (by simp)
      refused := fun _ h => absurd (h.symm.trans hadmits) (by simp)
      admitted := fun _ _ => ⟨[[.question, .failure]], .cons htells .nil, rfl⟩
      tracked := fun handle h => absurd h (by simp)
      failed := by
        intro _ _
        refine ⟨fun s hs => ?_, by simp [strides, Stride.placesTaken, after]⟩
        rw [List.mem_singleton.1 hs]
        refine traceless_of_written rfl ?_
        rw [hwritten]
        exact acquisition_ne_reported
      acquired := by
        rw [Stride.clientsAsked, hwritten]
        exact acquired_of_admitted hfree hadmits
      recreated := fun _ _ h => absurd h (by simp)
      returned := fun _ _ h => absurd h (by simp) }

/-- What can be seen of the beginning of an opening that has to wait. -/
structure BeginsWaiting (s : Stride) : Prop where
  free : s.before.isFull = false
  admitted : s.before.admitsOpening = true
  tells : s.Tells [.question]
  traceless : Traceless s
  placesTaken : s.placesTaken = 1
  acquired :
    (s.clientsAsked = if s.before.wantsClient then 1 else 0) ∧
      s.after.slot = if s.before.wantsClient then s.before.slot.recreate.1 else s.before.slot

theorem beginsWaiting_of_start {database : Option String} {options : Option SessionOptions} {r' : Relay} {o : Opening}
    (h : Opening.start r database options = (r', .waiting o)) : BeginsWaiting ⟨r, r'⟩ := by
  cases hfull : r.isFull with
  | true =>
    rw [Opening.start_of_full hfull] at h
    exact absurd (congrArg Prod.snd h) (by simp)
  | false =>
    cases hadmits : r.admitsOpening with
    | false =>
      rw [Opening.start_of_refused hfull hadmits] at h
      exact absurd (congrArg Prod.snd h) (by simp)
    | true =>
      cases hclient : r.slot.acquire.2 with
      | error failure =>
        rw [Opening.start_of_no_client hfull hadmits hclient] at h
        exact absurd (congrArg Prod.snd h) (by simp)
      | ok client =>
        rw [Opening.start_of_client hfull hadmits hclient] at h
        cases h
        refine
          { free := hfull, admitted := hadmits, tells := rfl, traceless := ?_, placesTaken := ?_, acquired := ?_ }
        · refine traceless_of_written rfl ?_
          rw [Stride.written_of_log (List.append_assoc _ _ _)]
          intro happening hmem
          rcases List.mem_append.1 hmem with hacquired | hrequested
          · exact acquisition_ne_reported happening hacquired
          · rw [List.mem_singleton.1 hrequested]
            simp
        · simp [Stride.placesTaken, Opening.placed]
        · rw [Stride.clientsAsked, Stride.written_of_log (List.append_assoc _ _ _), List.countP_append]
          exact acquired_of_admitted hfull hadmits

variable {s : Stride} {q : Relay} {o : Opening}

/-- With a session: the success is reported, and the place is the session's. -/
theorem ReportsOnce.of_ok (hs : BeginsWaiting s) (remote : RemoteSession) (hpending : 0 < q.registry.pending)
    (hnew : q.registry.sessions.get? ⟨q.registry.nextSerial⟩ = none) :
    ReportsOnce ⟨s, some (.ok remote, ⟨q, (o.resume (.ok remote) q).1⟩), (o.resume (.ok remote) q).2⟩ := by
  rw [Opening.resume_ok]
  set handle := (q.registry.track o.database remote q.now).2
  set after : Relay :=
    { q with
      registry := (q.registry.track o.database remote q.now).1
      breaker := q.breaker.recordSuccess sessionCreationKey
      log := q.log ++ SessionSide.openedReport o (q.registry.track o.database remote q.now).1.sessions.size }
  have hwritten : (Stride.mk q after).written = SessionSide.openedReport o after.registry.sessions.size :=
    Stride.written_of_log rfl
  have htells : (Stride.mk q after).Tells [.success] := rfl
  exact
    { full := fun h => absurd (h.symm.trans hs.free) (by simp)
      refused := fun _ h => absurd (h.symm.trans hs.admitted) (by simp)
      admitted := fun _ _ => ⟨[[.question], [.success]], .cons hs.tells (.cons htells .nil), rfl⟩
      tracked := by
        intro tracked htracked
        cases Except.ok.inj htracked
        refine ⟨_, rfl, hs.traceless.sessions,
          by simp [Registry.isTracked, Table.contains, handle, Registry.track, hnew], rfl, ?_⟩
        have hsize := Table.size_insert_of_get?_none hnew ⟨.new o.database q.now, remote⟩
        simp only [Registry.occupied, after, Registry.track, hsize]
        omega
      failed := fun failure h => absurd h (by simp)
      acquired := hs.acquired
      recreated := by
        intro reply stride h
        cases h
        exact ⟨by rw [Stride.clientsAsked, hwritten]; rfl, rfl⟩
      returned := by
        intro failure stride h
        exact absurd h (by simp) }

/-- Refused by the engine: the failure is reported and returned, and the place is given back. -/
theorem ReportsOnce.of_error (hs : BeginsWaiting s) (failure : Failure) (hpending : 0 < q.registry.pending) :
    ReportsOnce
      ⟨s, some (.error failure, ⟨q, (o.resume (.error failure) q).1⟩), (o.resume (.error failure) q).2⟩ := by
  rw [Opening.resume_error]
  set after : Relay :=
    { q with
      registry := q.registry.release
      breaker := q.breaker.recordFailure q.now sessionCreationKey
      slot := if failure.kind = .connectionFailure then q.slot.recreate.1 else q.slot
      log := q.log ++ if failure.kind = .connectionFailure then Opening.recreation q else [] }
  have hwritten : (Stride.mk q after).written =
      if failure.kind = .connectionFailure then Opening.recreation q else [] := Stride.written_of_log rfl
  have htells : (Stride.mk q after).Tells [.failure] := rfl
  have htraceless : Traceless ⟨q, after⟩ := by
    refine traceless_of_written rfl ?_
    rw [hwritten]
    split
    · exact recreation_ne_reported
    · simp
  have hplaces : (Stride.mk q after).placesTaken = -1 := by
    simp only [Stride.placesTaken, after, Registry.release]
    omega
  exact
    { full := fun h => absurd (h.symm.trans hs.free) (by simp)
      refused := fun _ h => absurd (h.symm.trans hs.admitted) (by simp)
      admitted := fun _ _ => ⟨[[.question], [.failure]], .cons hs.tells (.cons htells .nil), rfl⟩
      tracked := fun handle h => absurd h (by simp)
      failed := by
        intro _ _
        refine ⟨fun stride hstride => ?_, by simp [strides, hs.placesTaken, hplaces]⟩
        rcases List.mem_cons.1 hstride with rfl | hlast
        · exact hs.traceless
        · rw [List.mem_singleton.1 hlast]
          exact htraceless
      acquired := hs.acquired
      recreated := by
        intro reply stride h
        cases h
        refine ⟨?_, ?_⟩
        · rw [Stride.clientsAsked, hwritten]
          by_cases hkind : failure.kind = .connectionFailure
          · simp [Opening.isUnreachable, hkind, countP_recreation]
          · simp [Opening.isUnreachable, hkind]
        · by_cases hkind : failure.kind = .connectionFailure <;> simp [Opening.isUnreachable, hkind, after]
      returned := by
        intro returned stride h
        cases h
        refine ⟨rfl, fun second hsecond => ?_⟩
        have hkept := ClientSlot.client_recreate_of_error hsecond
        by_cases hkind : failure.kind = .connectionFailure <;> simp [hkind, after, hkept] }

end WaysOut

end OpeningCourse

namespace Exchange

variable {settings : Settings} {factory : ClientFactory} {moves : List Move} {x : Exchange}

/-- While an opening waits, it has a place. -/
theorem pending_pos_of_opening (h : (new settings factory).run moves = some x) {i : Nat} {call : Call}
    {since : Instant} {o : Opening} (hcall : x.calls[i]? = some (.waiting call since))
    (herrand : call.errand = .opening o) : 0 < x.relay.registry.pending := by
  have hfresh : (new settings factory).Satisfies fun r heard errands =>
      capacity settings.limits r.sessionSide (heard.filterMap Heard.opened?) (sessionErrands errands) :=
    ⟨rfl, Nat.zero_le _, rfl⟩
  obtain ⟨-, -, hpending⟩ := (sessionInvariant_capacity settings.limits).invariant.satisfies_run h hfresh
  obtain ⟨others, herrands, -⟩ := exists_errands_of_getElem? hcall
  have hopening : x.errands = .opening o ::ₘ others := by rw [← herrand, ← herrands]; rfl
  rw [hopening, sessionErrands_opening, countP_isOpening_opening] at hpending
  show 0 < x.relay.sessionSide.pending
  omega

/-- The identifier of the next session is not in use. -/
theorem get?_nextSerial (h : (new settings factory).run moves = some x) :
    x.relay.registry.sessions.get? ⟨x.relay.registry.nextSerial⟩ = none := by
  by_contra hsome
  obtain ⟨t, ht⟩ := Option.ne_none_iff_exists'.1 hsome
  let o : SessionOutline := ⟨⟨x.relay.registry.nextSerial⟩, t.remote, t.state.status.phase⟩
  have hmem : o ∈ x.relay.sessionSide.sessions := Registry.mem_outline.2 ⟨t, ht, rfl, rfl⟩
  exact (orderly h).1.id_ne_nextSerial o hmem rfl

end Exchange

/-! ## Every opening has a course -/

section Runs

variable {settings : Settings} {factory : ClientFactory} {database : Option String}
  {options : Option SessionOptions} {x y : Exchange} {i : Nat}

/-- How a call stands that was to open a session on some relay. -/
def OpensFrom (settings : Settings) (factory : ClientFactory) (database : Option String)
    (options : Option SessionOptions) (r : Relay) : Standing → Prop
  | .waiting call _ => ∃ r' o, call = .opening o ∧ Opening.start r database options = (r', .waiting o)
  | .finished result =>
    ∃ c : OpeningCourse, c.IsOf settings factory database options ∧ c.begun.before = r ∧ result = .session c.outcome
  | .dropped => True

theorem opensFrom_start (r : Relay) :
    OpensFrom settings factory database options r (.after ((Demand.openSession database options).start r)) := by
  rw [Demand.start]
  rcases hstart : Opening.start r database options with ⟨r', progress⟩
  cases progress with
  | waiting o => exact ⟨r', o, rfl, hstart⟩
  | finished outcome => exact ⟨_, .atOnce hstart, rfl, rfl⟩

/-- An opening stays what it is when any call moves on, and has a course when it goes on itself. -/
theorem OpensFrom.apply {r : Relay} {moves : List Move} {m : Move} {s : Standing}
    (hopens : OpensFrom settings factory database options r s)
    (h : (Exchange.new settings factory).run moves = some x) (happly : x.apply m = some y)
    (hs : x.calls[i]? = some s) :
    ∃ s', y.calls[i]? = some s' ∧ OpensFrom settings factory database options r s' := by
  by_cases hmover : x.mover? m = some i
  · have hi := (List.getElem?_eq_some_iff.1 hs).1
    obtain ⟨call, since, rfl, ⟨answers, rfl, rfl⟩ | ⟨rfl, rfl⟩⟩ := Exchange.mover_cases happly hmover hs
    · obtain ⟨r', o, rfl, hstart⟩ := hopens
      refine ⟨_, List.getElem?_set_self hi, ?_⟩
      exact ⟨_, .answered (answers o.wait) hstart h hs rfl, rfl, rfl⟩
    · exact ⟨_, List.getElem?_set_self hi, trivial⟩
  · exact ⟨s, (Exchange.calls_of_not_mover happly hmover).trans hs, hopens⟩

/-- **Every opening that has come to its end has a course.** -/
theorem exists_course {moves later : List Move} {outcome : Except Failure SessionHandle}
    (h : (Exchange.new settings factory).run moves = some x)
    (hlater : x.run (.start (.openSession database options) :: later) = some y)
    (hdone : y.calls[x.calls.length]? = some (.finished (.session outcome))) :
    ∃ c : OpeningCourse, c.IsOf settings factory database options ∧ c.begun.before = x.relay ∧ c.outcome = outcome := by
  have hopens : ∃ s, y.calls[x.calls.length]? = some s ∧ OpensFrom settings factory database options x.relay s := by
    clear hdone
    induction hlater using Exchange.run_cons_induct with
    | head hbegin =>
      cases Option.some.inj hbegin
      exact ⟨_, List.getElem?_concat_length, opensFrom_start x.relay⟩
    | snoc hz happly ih =>
      obtain ⟨s, hs, hopens⟩ := ih
      exact hopens.apply (Exchange.run_trans h hz) happly hs
  obtain ⟨s, hs, hopens⟩ := hopens
  cases Option.some.inj (hdone.symm.trans hs)
  obtain ⟨c, hc, hbefore, hresult⟩ := hopens
  cases hresult
  exact ⟨c, hc, hbefore, rfl⟩

end Runs

/-- Whatever the state in which an opening begins, whatever happens while it waits, and whatever the engine
answers: it goes one of the five ways. -/
theorem OpeningCourse.IsOf.reportsOnce {settings : Settings} {factory : ClientFactory} {database : Option String}
    {options : Option SessionOptions} {c : OpeningCourse} (h : c.IsOf settings factory database options) :
    c.ReportsOnce := by
  cases h with
  | @atOnce r r' outcome hstart =>
    cases hfull : r.isFull with
    | true =>
      rw [Opening.start_of_full hfull] at hstart
      cases hstart
      exact .of_refusal (fun _ => rfl) fun hfree => absurd (hfull.symm.trans hfree) (by simp)
    | false =>
      cases hadmits : r.admitsOpening with
      | false =>
        rw [Opening.start_of_refused hfull hadmits] at hstart
        cases hstart
        exact .of_refusal (fun h => absurd (hfull.symm.trans h) (by simp)) fun _ => ⟨hadmits, rfl⟩
      | true => exact .of_no_client hstart hfull hadmits
  | answered reply hstart hrun hcall herrand =>
    have hbegins := OpeningCourse.beginsWaiting_of_start hstart
    have hpending := Exchange.pending_pos_of_opening hrun hcall herrand
    cases reply with
    | ok remote => exact .of_ok hbegins remote hpending (Exchange.get?_nextSerial hrun)
    | error failure => exact .of_error hbegins failure hpending

/-- **Whoever was let through reports one outcome, and a failure leaves nothing behind.**  This is so of
every course, and every opening that has come to its end has one, in any state that can be reached and
whatever happens while it waits. -/
theorem opening_reports_once (settings : Settings) (factory : ClientFactory) (database : Option String)
    (options : Option SessionOptions) :
    (∀ c : OpeningCourse, c.IsOf settings factory database options → c.ReportsOnce) ∧
      ∀ (moves later : List Move) (x y : Exchange) (outcome : Except Failure SessionHandle),
        (Exchange.new settings factory).run moves = some x →
        x.run (.start (.openSession database options) :: later) = some y →
        y.calls[x.calls.length]? = some (.finished (.session outcome)) →
        ∃ c : OpeningCourse,
          c.IsOf settings factory database options ∧ c.begun.before = x.relay ∧ c.outcome = outcome :=
  ⟨fun _ hc => hc.reportsOnce, fun _ _ _ _ _ h hlater hdone => exists_course h hlater hdone⟩

/-- The engine cannot be reached, and neither can the client be made anew: the failure of the engine is
reported and returned, and the old client stays. -/
theorem opening_reports_once_of_unreachable :
    ∃ (y : Exchange) (c : OpeningCourse),
      (Exchange.new {} { outcomes := [none, some (.configuration "no route")] }).run
        [.start (.openSession none none), .resume 0 (.refusing (.connectionFailure "reset"))] = some y ∧
      y.calls[0]? = some (.finished (.session (.error (.connectionFailure "reset")))) ∧
      y.relay.slot.client = some ⟨1⟩ ∧
      c.IsOf {} { outcomes := [none, some (.configuration "no route")] } none none ∧
      c.outcome = .error (.connectionFailure "reset") ∧ c.ReportsOnce := by
  have hrun : ((Exchange.new {} { outcomes := [none, some (.configuration "no route")] }).run
      [.start (.openSession none none), .resume 0 (.refusing (.connectionFailure "reset"))]).map
        (fun y => (y.calls[0]?, y.relay.slot.client)) =
      some (some (.finished (.session (.error (.connectionFailure "reset")))), some ⟨1⟩) := rfl
  obtain ⟨y, hy, hparts⟩ := Option.map_eq_some_iff.1 hrun
  obtain ⟨hdone, hclient⟩ := Prod.mk.inj hparts
  obtain ⟨hreports, hcourses⟩ :=
    opening_reports_once {} { outcomes := [none, some (.configuration "no route")] } none none
  obtain ⟨c, hc, -, houtcome⟩ := hcourses [] [.resume 0 (.refusing (.connectionFailure "reset"))] _ y _ rfl hy hdone
  exact ⟨y, c, hy, hdone, hclient, hc, houtcome, hreports c hc⟩

end QueryRelay
