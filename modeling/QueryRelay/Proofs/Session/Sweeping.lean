import QueryRelay.Proofs.Exchange.Step
import QueryRelay.Proofs.Session.Retirement
import QueryRelay.Proofs.Session.Since

/-!
# What an idle sweep closes

A sweep looks at the registry once, when it begins, and then closes the sessions that were reapable
one after another, waiting for the engine every time.  By the time it comes to a session, someone may
have used it: the sweep does not look again.

* `InSweep` — a call is in a sweep, from the moment when the sweep looked.
* `InSweep.seen` — the sessions that the sweep has to do with are those that it saw reapable.
* `sweep_closes_idle_or_used_since` — **what a sweep closes**: a session in use or idle, which it saw
  reapable, and which still is unless it was used since.
* `sweep_closes_used_session` — the proviso is needed: a session that is used while the sweep closes
  another one is closed all the same.
-/

namespace QueryRelay

/-! ## What a sweep does next -/

theorem Closing.start_of_finished {r r' : Relay} {id : SessionId} {outcome : Except Failure Unit}
    (h : Closing.start r id = (r', .finished outcome)) : r' = r := by
  unfold Closing.start at h
  split at h
  · exact (congrArg Prod.fst h).symm
  · dsimp only at h
    split at h
    · exact (congrArg Prod.fst h).symm
    · exact absurd (congrArg Prod.snd h) (by simp)

/-- By one step a tracked session is moved to *closing*, where it was not. -/
def MovesToClosing (r : Relay) (id : SessionId) (r' : Relay) : Prop :=
  ∃ t, r.registry.sessions.get? id = some t ∧ t.state.status ≠ .closing ∧
    r'.registry.state? id = some (t.state.transition .closing)

theorem Closing.start_of_waiting {r r' : Relay} {id : SessionId} {c : Closing}
    (h : Closing.start r id = (r', .waiting c)) : c.id = id ∧ MovesToClosing r id r' := by
  unfold Closing.start at h
  split at h
  · exact absurd (congrArg Prod.snd h) (by simp)
  · rename_i t ht
    dsimp only at h
    split at h
    · exact absurd (congrArg Prod.snd h) (by simp)
    · rename_i hstatus
      cases h
      refine ⟨rfl, t, ht, hstatus, ?_⟩
      simp [Registry.state?, Relay.ask, Relay.note, Relay.withRegistry, Registry.update, Table.get?_modify, ht]

/-- Whoever goes through a list has passed over some of the sessions that remained, and moved the next one to
*closing*. -/
theorem Closing.InTurn.suffix_of_some {r last : Relay} {ids : List SessionId}
    {next? : Option (Closing × List SessionId)} (h : InTurn r ids last next?) {c : Closing} {rest : List SessionId}
    (hnext : next? = some (c, rest)) : c.id :: rest <:+ ids ∧ MovesToClosing r c.id last := by
  induction h with
  | done r => exact nomatch hnext
  | @waits r r' id rest c hstart =>
    cases hnext
    obtain ⟨rfl, hmoves⟩ := start_of_waiting hstart
    exact ⟨List.suffix_refl _, hmoves⟩
  | @passes r r' last id rest outcome next? hstart _ ih =>
    cases start_of_finished hstart
    obtain ⟨hsuffix, hmoves⟩ := ih hnext
    exact ⟨hsuffix.trans (List.suffix_cons id rest), hmoves⟩

namespace Sweep

theorem proceed_of_waiting {r r' : Relay} {ids : List SessionId} {closed : Nat} {s : Sweep}
    (h : proceed r ids closed = (r', .waiting s)) :
    s.current.id :: s.rest <:+ ids ∧ MovesToClosing r s.current.id r' := by
  obtain ⟨next?, closed', hturn, hpoint⟩ := proceed_inTurn r ids closed
  rw [h] at hturn hpoint
  obtain ⟨next, rfl, rfl⟩ := Option.map_eq_some_iff.1 hpoint.symm
  exact hturn.suffix_of_some rfl

theorem start_of_waiting {r r' : Relay} {s : Sweep} (h : start r = (r', .waiting s)) :
    s.current.id :: s.rest <:+ r.registry.reapable r.settings.limits r.now ∧ MovesToClosing r s.current.id r' :=
  proceed_of_waiting h

/-- What a sweep closes next is tracked already when the answer comes for which the sweep waits. -/
theorem resume_of_waiting {s s' : Sweep} {reply : Except Failure Unit} {r r' : Relay}
    (h : s.resume reply r = (r', .waiting s')) :
    s'.current.id :: s'.rest <:+ s.rest ∧ MovesToClosing r s'.current.id r' := by
  have hproceed : ∃ closed, proceed (s.current.resume reply r).1 s.rest closed = (r', .waiting s') := by
    simp only [resume] at h
    split at h
    all_goals
      rename_i hresume
      rw [hresume]
      exact ⟨_, h⟩
  obtain ⟨closed, hproceed⟩ := hproceed
  obtain ⟨hsuffix, t, ht, hstatus, hafter⟩ := proceed_of_waiting hproceed
  refine ⟨hsuffix, t, ?_, hstatus, hafter⟩
  have hremoved : (s.current.resume reply r).1.registry = r.registry.remove s.current.id := rfl
  rw [hremoved, Registry.remove, Table.get?_erase] at ht
  split at ht
  · exact absurd ht (by simp)
  · exact ht

end Sweep

/-! ## Calls in a sweep -/

/-- The sweep in which a call waits. -/
def Call.sweep? : Call → Option Sweep
  | sweeping s => some s
  | reaping (.sweeping _ s) => some s
  | _ => none

/-- The sweep in which a call of an exchange waits. -/
def Exchange.sweep? (x : Exchange) (i : Nat) : Option Sweep :=
  match x.calls[i]? with
  | some (.waiting call _) => call.sweep?
  | _ => none

theorem Call.lift_of_waiting {σ α : Type} {point : σ → Call} {result : α → CallResult}
    {s : Relay × Progress σ α} {r : Relay} {call : Call} (h : Call.lift point result s = (r, .waiting call)) :
    ∃ p, s = (r, .waiting p) ∧ call = point p := by
  obtain ⟨r', p⟩ := s
  cases p with
  | waiting p =>
    simp only [lift, Progress.map, Prod.mk.injEq, Progress.waiting.injEq] at h
    exact ⟨p, by rw [h.1], h.2.symm⟩
  | finished a => exact absurd (congrArg Prod.snd h) (by simp [lift, Progress.map])

theorem Reaping.settle_not_sweep {r r' : Relay} {id : ReaperId} {p : Reaping}
    (h : settle r id = (r', .waiting p)) : (Call.reaping p).sweep? = none := by
  unfold settle at h
  split at h
  · cases h
    rfl
  · exact absurd (congrArg Prod.snd h) (by simp)

theorem Reaping.ofSweep_of_waiting {id : ReaperId} {x : Relay × Progress Sweep Nat} {r : Relay} {p : Reaping}
    {s : Sweep} (h : ofSweep id x = (r, .waiting p)) (hs : (Call.reaping p).sweep? = some s) :
    x = (r, .waiting s) := by
  obtain ⟨q, progress⟩ := x
  cases progress with
  | waiting sweep =>
    cases h
    cases hs
    rfl
  | finished closed => exact absurd hs (by simp [settle_not_sweep h])

/-- A call begins in a sweep only by looking at the registry. -/
theorem Demand.start_sweep {d : Demand} {r r' : Relay} {call : Call} {s : Sweep}
    (h : d.start r = (r', .waiting call)) (hs : call.sweep? = some s) : Sweep.start r = (r', .waiting s) := by
  cases d with
  | sweep =>
    obtain ⟨p, hstart, rfl⟩ := Call.lift_of_waiting h
    cases hs
    exact hstart
  | startReaper =>
    simp only [Demand.start] at h
    split at h
    · obtain ⟨p, hsettle, rfl⟩ := Call.lift_of_waiting h
      exact absurd hs (by simp [Reaping.settle_not_sweep hsettle])
    · exact absurd (congrArg Prod.snd h) (by simp)
  | update | markIdle | recordError | acquireClient | recreateClient | recordFailure | recordSuccess | canExecute |
      forget | clear => exact absurd (congrArg Prod.snd h) (by simp [Demand.start])
  | _ =>
    rw [Demand.start] at h
    obtain ⟨p, -, rfl⟩ := Call.lift_of_waiting h
    exact absurd hs (by simp [Call.sweep?])

/-- A call comes to wait in a sweep by looking at the registry, or by going on with its sweep. -/
theorem Call.resume_sweep {c : Call} {answers : Answers} {r r' : Relay} {call : Call} {s : Sweep}
    (h : c.resume (answers c.wait) r = (r', .waiting call)) (hs : call.sweep? = some s) :
    (c.sweep? = none ∧ Sweep.start r = (r', .waiting s)) ∨
      ∃ before reply, c.sweep? = some before ∧ before.resume reply r = (r', .waiting s) := by
  cases c with
  | sweeping before =>
    obtain ⟨p, hresume, rfl⟩ := Call.lift_of_waiting h
    cases hs
    exact .inr ⟨before, _, rfl, hresume⟩
  | reaping p =>
    obtain ⟨p', hresume, rfl⟩ := Call.lift_of_waiting h
    cases p with
    | resting id interval =>
      dsimp only at hresume
      split at hresume
      · exact .inl ⟨rfl, Reaping.ofSweep_of_waiting hresume hs⟩
      · exact absurd hs (by simp [Reaping.settle_not_sweep hresume])
    | sweeping id before => exact .inr ⟨before, _, rfl, Reaping.ofSweep_of_waiting hresume hs⟩
  | opening | closing | stopping | closingClient => exact absurd (congrArg Prod.snd h) (by simp [Call.resume])
  | _ =>
    rw [Call.resume] at h
    obtain ⟨p, -, rfl⟩ := Call.lift_of_waiting h
    exact absurd hs (by simp [Call.sweep?])

namespace Exchange

variable {x y : Exchange} {m : Move} {i : Nat} {s : Sweep}

theorem exists_call_of_sweep? (h : x.sweep? i = some s) :
    ∃ call since, x.calls[i]? = some (.waiting call since) ∧ call.sweep? = some s := by
  unfold sweep? at h
  split at h
  · rename_i call since hcall
    exact ⟨call, since, hcall, h⟩
  · exact absurd h (by simp)

/-- **How a call comes to be in a sweep**: it was in it and the move is not about it, or it has just
looked at the registry, or it went on with its sweep. -/
theorem sweep_cases (h : x.apply m = some y) (hs : y.sweep? i = some s) :
    (x.mover? m ≠ some i ∧ x.sweep? i = some s) ∨
      (x.sweep? i = none ∧ Sweep.start x.relay = (y.relay, .waiting s)) ∨
        ∃ before reply, x.sweep? i = some before ∧ before.resume reply x.relay = (y.relay, .waiting s) := by
  by_cases hmover : x.mover? m = some i
  · obtain ⟨call, since, hcall, hsweep⟩ := exists_call_of_sweep? hs
    have hcomes : ComesToWait x m i call y := ⟨h, hmover, since, hcall⟩
    rcases hcomes.cases with ⟨demand, rfl, hstart⟩ | ⟨answers, before, begun, rfl, hbefore, hresume⟩
    · cases Option.some.inj hmover
      exact .inr (.inl ⟨by simp [sweep?], Demand.start_sweep hstart hsweep⟩)
    · cases Option.some.inj hmover
      have hx : x.sweep? i = before.sweep? := by simp [sweep?, hbefore]
      rw [hx]
      exact .inr (Call.resume_sweep hresume hsweep)
  · refine .inl ⟨hmover, ?_⟩
    rw [sweep?, ← calls_of_not_mover h hmover]
    exact hs

end Exchange

/-- A call is in a sweep, which began with a look at the registry. -/
inductive InSweep (i : Nat) (looked : Exchange) : Exchange → Prop
  | look {m : Move} {x : Exchange} :
    looked.apply m = some x → looked.sweep? i = none → x.sweep? i ≠ none → InSweep i looked x
  | goOn {m : Move} {x y : Exchange} :
    InSweep i looked x → x.apply m = some y → y.sweep? i ≠ none → InSweep i looked y

/-- What a sweep sees that begins now. -/
def Exchange.reapable (x : Exchange) : List SessionId :=
  x.relay.registry.reapable x.relay.settings.limits x.relay.now

namespace InSweep

variable {i : Nat} {looked x : Exchange}

theorem sweep?_ne_none (h : InSweep i looked x) : x.sweep? i ≠ none := by
  cases h with
  | look _ _ hx => exact hx
  | goOn _ _ hx => exact hx

theorem exists_run (h : InSweep i looked x) : ∃ later, looked.run later = some x := by
  induction h with
  | @look m x happly _ _ => exact ⟨[m], by simp [Exchange.run, happly]⟩
  | @goOn m x y _ happly _ ih =>
    obtain ⟨later, hlater⟩ := ih
    exact ⟨later ++ [m], by rw [Exchange.run_concat, hlater]; exact happly⟩

/-- **A sweep has to do with nothing but what it saw.** -/
theorem seen (h : InSweep i looked x) {s : Sweep} (hs : x.sweep? i = some s) :
    s.current.id :: s.rest <:+ looked.reapable := by
  induction h generalizing s with
  | look happly hnone hx =>
    rcases Exchange.sweep_cases happly hs with ⟨-, hsame⟩ | ⟨-, hstart⟩ | ⟨before, reply, hbefore, -⟩
    · exact absurd hsame (by simp [hnone])
    · exact (Sweep.start_of_waiting hstart).1
    · exact absurd hbefore (by simp [hnone])
  | goOn hin happly hy ih =>
    rcases Exchange.sweep_cases happly hs with ⟨-, hsame⟩ | ⟨hnone, -⟩ | ⟨before, reply, hbefore, hresume⟩
    · exact ih hsame
    · exact absurd hnone hin.sweep?_ne_none
    · exact (Sweep.resume_of_waiting hresume).1.trans ((List.suffix_cons _ _).trans (ih hbefore))

end InSweep

/-- Whoever is in a sweep has looked at the registry for it. -/
theorem Exchange.exists_inSweep {settings : Settings} {factory : ClientFactory} {moves : List Move} {x : Exchange}
    {i : Nat} (h : (new settings factory).run moves = some x) (hx : x.sweep? i ≠ none) :
    ∃ before looked, (new settings factory).run before = some looked ∧ InSweep i looked x := by
  induction h using run_induct with
  | nil => exact absurd rfl hx
  | @snoc moves m z x hz happly ih =>
    by_cases hsweep : z.sweep? i = none
    · exact ⟨moves, z, hz, .look happly hsweep hx⟩
    · obtain ⟨before, looked, hbefore, hin⟩ := ih hsweep
      exact ⟨before, looked, hbefore, hin.goOn happly hx⟩

/-! ## What a sweep closes -/

/-- By a move, a sweep moves a session to *closing*. -/
structure Reaps (x : Exchange) (m : Move) (i : Nat) (id : SessionId) (y : Exchange) : Prop where
  applied : x.apply m = some y
  moved : x.mover? m = some i
  sweeps : ∃ s, y.sweep? i = some s ∧ s.current.id = id

namespace Registry

theorem mem_reapable {g : Registry} {limits : SessionLimits} {now : Instant} {id : SessionId} :
    id ∈ g.reapable limits now ↔ ∃ s, g.state? id = some s ∧ s.isReapable limits.sessionTimeout now = true := by
  simp only [reapable, state?, List.mem_map, List.mem_filter, Option.map_eq_some_iff]
  constructor
  · rintro ⟨⟨key, t⟩, ⟨hmem, hreapable⟩, rfl⟩
    exact ⟨t.state, ⟨t, Table.mem_entries_iff.1 hmem, rfl⟩, hreapable⟩
  · rintro ⟨_, ⟨t, hget, rfl⟩, hreapable⟩
    exact ⟨(id, t), ⟨Table.mem_entries_iff.2 hget, hreapable⟩, rfl⟩

end Registry

theorem SessionState.isReapable_iff {s : SessionState} {timeout : Duration} {now : Instant} :
    s.isReapable timeout now = true ↔
      (s.status = .active ∨ s.status = .idle) ∧ timeout.nanos ≤ now - s.lastUsedAt := by
  simp only [isReapable, Bool.and_eq_true, Bool.or_eq_true, decide_eq_true_eq]
  exact Iff.rfl

/-- A session that was reapable at some moment, and is tracked and not closing, is in use or idle.
It is still reapable unless it was used since. -/
theorem SessionState.Since.reapable_or_used {moment now : Instant} {old s : SessionState} {timeout : Duration}
    (h : Since moment old s) (hnow : moment ≤ now) (hold : old.isReapable timeout moment = true)
    (hlive : s.status.phase = .live) :
    (s.status = .active ∨ s.status = .idle) ∧ (s.isReapable timeout now = true ∨ moment ≤ s.lastUsedAt) := by
  obtain ⟨hstatus, hidle⟩ := isReapable_iff.1 hold
  have hnotCreated : s.status ≠ .created := by
    intro hcreated
    rw [h.created hcreated] at hstatus
    simp at hstatus
  have hinUse : s.status = .active ∨ s.status = .idle := by
    cases hs : s.status <;> simp_all [SessionStatus.phase]
  refine ⟨hinUse, ?_⟩
  rcases h.lastUsedAt with hsame | hused
  · refine .inl (isReapable_iff.2 ⟨hinUse, ?_⟩)
    rw [hsame]
    exact Nat.le_trans hidle (Nat.sub_le_sub_right hnow _)
  · exact .inr hused

/-- A tracked session that is not closing is live. -/
theorem Orderly.phase_eq_live_of_get? {r : Relay} {errands : Multiset Errand} (h : Orderly r.sessionSide errands)
    {id : SessionId} {t : TrackedSession} (ht : r.registry.sessions.get? id = some t)
    (hclosing : t.state.status ≠ .closing) : t.state.status.phase = .live := by
  have htracked := h.tracked ⟨id, t.remote, t.state.status.phase⟩ (Registry.mem_outline.2 ⟨t, ht, rfl, rfl⟩)
  cases hphase : t.state.status.phase with
  | live => rfl
  | closing => exact absurd (SessionStatus.phase_eq_closing_iff.1 hphase) hclosing
  | ended => exact absurd hphase htracked

/-- Whoever reaps has looked, and what it moves to *closing* was reapable at that look. -/
theorem Reaps.exists_look {settings : Settings} {factory : ClientFactory} {moves : List Move} {x y : Exchange}
    {m : Move} {i : Nat} {id : SessionId} (h : (Exchange.new settings factory).run moves = some x)
    (hreaps : Reaps x m i id y) :
    MovesToClosing x.relay id y.relay ∧
      ∃ before looked later, (Exchange.new settings factory).run before = some looked ∧
        looked.run later = some x ∧ InSweep i looked y ∧ id ∈ looked.reapable ∧
        (x.sweep? i = none → looked = x) := by
  obtain ⟨happly, hmoved, s, hs, rfl⟩ := hreaps
  have hy : y.sweep? i ≠ none := by simp [hs]
  rcases Exchange.sweep_cases happly hs with ⟨hother, -⟩ | ⟨hnone, hstart⟩ | ⟨last, reply, hlast, hresume⟩
  · exact absurd hmoved hother
  · have hin : InSweep i x y := .look happly hnone hy
    exact ⟨(Sweep.start_of_waiting hstart).2, moves, x, [], h, rfl, hin,
      (hin.seen hs).subset (List.mem_cons_self ..), fun _ => rfl⟩
  · have hsweeping : x.sweep? i ≠ none := by simp [hlast]
    obtain ⟨before, looked, hbefore, hx⟩ := Exchange.exists_inSweep h hsweeping
    obtain ⟨later, hlater⟩ := hx.exists_run
    have hin : InSweep i looked y := hx.goOn happly hy
    exact ⟨(Sweep.resume_of_waiting hresume).2, before, looked, later, hbefore, hlater, hin,
      (hin.seen hs).subset (List.mem_cons_self ..), fun hnone => absurd hnone hsweeping⟩

/-- **What a sweep closes**: a session that it saw reapable when it looked.  The session is in use or
idle now, and it still is reapable unless it was used since the look, while the sweep was closing
others. -/
theorem sweep_closes_idle_or_used_since {settings : Settings} {factory : ClientFactory} {moves : List Move}
    {x y : Exchange} {m : Move} {i : Nat} {id : SessionId} (h : (Exchange.new settings factory).run moves = some x)
    (hreaps : Reaps x m i id y) :
    ∃ before looked s, (Exchange.new settings factory).run before = some looked ∧ InSweep i looked y ∧
      id ∈ looked.reapable ∧ x.relay.registry.state? id = some s ∧ (s.status = .active ∨ s.status = .idle) ∧
      y.status? id = some .closing ∧
      (s.isReapable settings.limits.sessionTimeout x.relay.now = true ∨
        x.sweep? i ≠ none ∧ looked.relay.now ≤ s.lastUsedAt) := by
  obtain ⟨⟨t, ht, hstatus, hafter⟩, before, looked, later, hbefore, hlater, hin, hseen, hlook⟩ :=
    hreaps.exists_look h
  have hlive := (Exchange.orderly h).1.phase_eq_live_of_get? ht hstatus
  have hsettings : looked.relay.settings = settings := Exchange.settings_run hbefore
  obtain ⟨old, hold, hreapable⟩ := Registry.mem_reapable.1 hseen
  rw [hsettings] at hreapable
  -- The session was tracked at the look, so its identifier was given out before.
  obtain ⟨t', ht', rfl⟩ := Option.map_eq_some_iff.1 hold
  have hserial : id.serial < looked.relay.registry.nextSerial :=
    (Exchange.orderly hbefore).1.known ⟨id, t'.remote, t'.state.status.phase⟩
      (Registry.mem_outline.2 ⟨t', ht', rfl, rfl⟩)
  have hsince := Exchange.since hlater
  obtain ⟨t'', ht'', hstate⟩ := hsince.tracked id t ht hserial
  rw [ht', Option.some.injEq] at ht''
  subst ht''
  obtain ⟨hinUse, hcases⟩ := hstate.reapable_or_used hsince.now hreapable hlive
  refine ⟨before, looked, t.state, hbefore, hin, hseen, Option.map_eq_some_iff.2 ⟨t, ht, rfl⟩, hinUse, ?_, ?_⟩
  · obtain ⟨closing, hclosing, hstate'⟩ := Option.map_eq_some_iff.1 hafter
    refine Option.map_eq_some_iff.2 ⟨closing, hclosing, SessionStatus.phase_eq_closing_iff.1 ?_⟩
    rw [hstate', SessionState.phase_transition_closing, hlive]
    rfl
  · rcases hcases with hstill | hused
    · exact .inl hstill
    · by_cases hnone : x.sweep? i = none
      · cases hlook hnone
        rw [ht', Option.some.injEq] at ht
        exact .inl (ht ▸ hreapable)
      · exact .inr ⟨hnone, hused⟩

/-- Two sessions are in use, and idle for the timeout; a sweep closes the first one, and the second
one is used before the engine has answered. -/
def usedWhileSwept : List Move :=
  [.start (.openSession none none), .resume 0 (.granting 7), .start (.openSession none none),
    .resume 1 (.granting 8), .start (.update ⟨⟨1⟩, none, ⟨7⟩⟩ .queriesExecuted 1),
    .start (.update ⟨⟨2⟩, none, ⟨8⟩⟩ .queriesExecuted 1), .elapse ⟨10⟩, .start .sweep,
    .start (.update ⟨⟨2⟩, none, ⟨8⟩⟩ .queriesExecuted 1)]

/-- When the engine answers, the sweep closes the second session, which is not reapable. -/
theorem reaps_usedWhileSwept :
    ∃ x y, (Exchange.new { limits := { sessionTimeout := ⟨10⟩ } } {}).run usedWhileSwept = some x ∧
      Reaps x (.resume 4 (.granting 0)) 4 ⟨2⟩ y ∧
      (x.relay.registry.state? ⟨2⟩).map (fun s => s.isReapable ⟨10⟩ x.relay.now) = some false := by
  have hrun : ((Exchange.new { limits := { sessionTimeout := ⟨10⟩ } } {}).run usedWhileSwept).map
      (fun x =>
        ((x.apply (.resume 4 (.granting 0))).map fun y => (y.sweep? 4).map fun s => s.current.id,
          (x.relay.registry.state? ⟨2⟩).map fun s => s.isReapable ⟨10⟩ x.relay.now)) =
      some (some (some ⟨2⟩), some false) := rfl
  obtain ⟨x, hx, hboth⟩ := Option.map_eq_some_iff.1 hrun
  obtain ⟨hsweeps, hstate⟩ := Prod.mk.inj hboth
  obtain ⟨y, hy, hsweep⟩ := Option.map_eq_some_iff.1 hsweeps
  exact ⟨x, y, hx, ⟨hy, rfl, Option.map_eq_some_iff.1 hsweep⟩, hstate⟩

/-- So it cannot be said of all sweeps that what they close is reapable at that moment. -/
theorem sweep_closes_used_session :
    ¬ ∀ (settings : Settings) (factory : ClientFactory) (moves : List Move) (x y : Exchange) (m : Move) (i : Nat)
      (id : SessionId), (Exchange.new settings factory).run moves = some x → Reaps x m i id y →
      ∃ s, x.relay.registry.state? id = some s ∧
        s.isReapable settings.limits.sessionTimeout x.relay.now = true := by
  intro hreapable
  obtain ⟨x, y, hx, hreaps, hstate⟩ := reaps_usedWhileSwept
  obtain ⟨s, hs, hstill⟩ := hreapable _ _ _ x y _ _ _ hx hreaps
  rw [hs, Option.map_some, Option.some.injEq] at hstate
  exact absurd hstill (by simp [hstate])

/-- The session that is closed was used since the sweep looked. -/
theorem sweep_closes_idle_or_used_since_of_two :
    ∃ x y, (Exchange.new { limits := { sessionTimeout := ⟨10⟩ } } {}).run usedWhileSwept = some x ∧
      Reaps x (.resume 4 (.granting 0)) 4 ⟨2⟩ y ∧
      ∃ before looked s, (Exchange.new { limits := { sessionTimeout := ⟨10⟩ } } {}).run before = some looked ∧
        InSweep 4 looked y ∧ ⟨2⟩ ∈ looked.reapable ∧ x.relay.registry.state? ⟨2⟩ = some s ∧
        (s.status = .active ∨ s.status = .idle) ∧ y.status? ⟨2⟩ = some .closing ∧
        (s.isReapable ⟨10⟩ x.relay.now = true ∨ x.sweep? 4 ≠ none ∧ looked.relay.now ≤ s.lastUsedAt) := by
  obtain ⟨x, y, hx, hreaps, -⟩ := reaps_usedWhileSwept
  exact ⟨x, y, hx, hreaps, sweep_closes_idle_or_used_since hx hreaps⟩

end QueryRelay
