import QueryRelay.Proofs.Exchange.Step
import QueryRelay.Proofs.Session.Change
import QueryRelay.Proofs.Session.Retirement
import QueryRelay.Proofs.Transaction.Side

/-!
# When transactions begin

A run looks at the registry once, when it starts; between two attempts it does not look again.  So
the session of a later attempt may have been closed, and the first attempt may begin on a session
whose closing has not been answered yet.

* `Numbered` — identifiers number the remote sessions in the order in which the engine opened them.
* `SessionHandle.IsGivenOut` — a handle names a session and its remote side.
* `Exchange.closeRequests_pos_iff` — the engine has been asked to close a session if and only if the
  session is closing or gone.
* `begins_after_close_iff` — **on which sessions transactions begin**.
* `begins_on_closed_session` — a transaction begins on a session that was closed.
-/

namespace QueryRelay

/-! ## Identifiers and remote sessions -/

/-- The session with some identifier was the one that the engine opened as this remote session. -/
def SessionId.Numbers (opened : List RemoteSession) (id : SessionId) (remote : RemoteSession) : Prop :=
  ∃ before, opened[before]? = some remote ∧ id.serial = before + 1

/-- Identifiers number the remote sessions in the order in which the engine opened them. -/
structure Numbered (s : SessionSide) (opened : List RemoteSession) : Prop where
  nextSerial : s.nextSerial = opened.length + 1
  tracked : ∀ o ∈ s.sessions, o.id.Numbers opened o.remote

namespace SessionId.Numbers

variable {opened : List RemoteSession} {id : SessionId} {remote : RemoteSession}

theorem concat (h : id.Numbers opened remote) (last : RemoteSession) : id.Numbers (opened ++ [last]) remote := by
  obtain ⟨before, hopened, hserial⟩ := h
  refine ⟨before, ?_, hserial⟩
  rw [List.getElem?_append_left (List.getElem?_eq_some_iff.1 hopened).1]
  exact hopened

theorem last (opened : List RemoteSession) (remote : RemoteSession) :
    (⟨opened.length + 1⟩ : SessionId).Numbers (opened ++ [remote]) remote :=
  ⟨opened.length, List.getElem?_concat_length, rfl⟩

/-- An identifier has one remote session. -/
theorem remote_eq {other : RemoteSession} (h : id.Numbers opened remote) (h' : id.Numbers opened other) :
    remote = other := by
  obtain ⟨before, hopened, hserial⟩ := h
  obtain ⟨before', hopened', hserial'⟩ := h'
  have heq : before = before' := Nat.succ.inj (hserial.symm.trans hserial')
  rw [← heq, hopened] at hopened'
  exact Option.some.inj hopened'

/-- Where the engine opens each remote session once, a remote session has one identifier. -/
theorem id_eq {other : SessionId} (hnodup : opened.Nodup) (h : id.Numbers opened remote)
    (h' : other.Numbers opened remote) : id = other := by
  obtain ⟨before, hopened, hserial⟩ := h
  obtain ⟨before', hopened', hserial'⟩ := h'
  obtain ⟨hlt, -⟩ := List.getElem?_eq_some_iff.1 hopened
  have heq : before = before' := (List.getElem?_inj hlt hnodup).1 (hopened.trans hopened'.symm)
  cases id
  cases other
  simp_all

end SessionId.Numbers

namespace Numbered

variable {s : SessionSide} {opened : List RemoteSession}

/-- Fewer sessions, or other phases, do not matter. -/
theorem of_sessions {s' : SessionSide} (h : Numbered s opened) (hserial : s'.nextSerial = s.nextSerial)
    (hsessions : ∀ o ∈ s'.sessions, ∃ old ∈ s.sessions, old.id = o.id ∧ old.remote = o.remote) :
    Numbered s' opened where
  nextSerial := hserial.trans h.nextSerial
  tracked := by
    intro o ho
    obtain ⟨old, hold, hid, hremote⟩ := hsessions o ho
    exact hid ▸ hremote ▸ h.tracked old hold

theorem track (o : Opening) (remote : RemoteSession) (h : Numbered s opened) :
    Numbered (s.track o remote) (opened ++ [remote]) where
  nextSerial := by simp [SessionSide.track, h.nextSerial]
  tracked := by
    intro o' ho'
    rcases Multiset.mem_cons.1 ho' with rfl | hold
    · simp only [h.nextSerial]
      exact SessionId.Numbers.last opened remote
    · exact (h.tracked o' (SessionSide.mem_others.1 hold).1).concat remote

end Numbered

theorem sessionInvariant_numbered : SessionInvariant fun s opened _ => Numbered s opened where
  reserve := fun _ _ _ _ h _ => ⟨h.nextSerial, h.tracked⟩
  track := fun o remote _ _ _ h => h.track o remote
  release := fun _ _ _ _ h => ⟨h.nextSerial, h.tracked⟩
  beginClosing := by
    intro c phase s opened errands h _ hsessions
    refine h.of_sessions rfl fun o ho => ?_
    rcases Multiset.mem_cons.1 ho with rfl | hold
    · exact ⟨⟨c.id, c.remote, phase⟩, hsessions ▸ Multiset.mem_cons_self _ _, rfl, rfl⟩
    · exact ⟨o, (SessionSide.mem_others.1 hold).1, rfl, rfl⟩
  endClosing := fun _ _ _ _ _ h => h.of_sessions rfl fun o ho => ⟨o, (SessionSide.mem_others.1 ho).1, rfl, rfl⟩
  dropClosing := fun _ _ _ _ h => h

theorem Exchange.numbered {settings : Settings} {factory : ClientFactory} {moves : List Move} {x : Exchange}
    (h : (new settings factory).run moves = some x) : Numbered x.relay.sessionSide x.opened :=
  sessionInvariant_numbered.invariant.satisfies_run h ⟨rfl, fun o ho => absurd ho (Multiset.notMem_zero o)⟩

/-! ## Sessions that were closed -/

/-- A handle names a session that was opened, and its remote side. -/
def SessionHandle.IsGivenOut (h : SessionHandle) (x : Exchange) : Prop := h.id.Numbers x.opened h.remote

theorem liveOn_eq_zero_iff {remote : RemoteSession} {sessions : Multiset SessionOutline} :
    liveOn remote sessions = 0 ↔ ∀ o ∈ sessions, o.remote = remote → o.phase ≠ .live := by
  unfold liveOn
  rw [Multiset.countP_eq_zero]
  exact ⟨fun h o ho hremote hphase => h o ho ⟨hremote, hphase⟩, fun h o ho hboth => h o ho hboth.1 hboth.2⟩

/-- **The engine has been asked to close a session** if and only if the session is closing or gone. -/
theorem Exchange.closeRequests_pos_iff {settings : Settings} {factory : ClientFactory} {moves : List Move}
    {x : Exchange} (h : (new settings factory).run moves = some x) (hnodup : x.opened.Nodup) {session : SessionHandle}
    (hsession : session.IsGivenOut x) :
    0 < closeRequests session.remote x.relay.log ↔
      x.status? session.id = none ∨ x.status? session.id = some .closing := by
  obtain ⟨horderly, haccounted⟩ := orderly h
  have hnumbered := numbered h
  -- The remote session was opened once, so it was asked to close unless a session on it is live.
  have hlive : 0 < closeRequests session.remote x.relay.log ↔
      liveOn session.remote x.relay.sessionSide.sessions = 0 := by
    obtain ⟨before, hopened, -⟩ := hsession
    have hcloses := haccounted.closes session.remote
    rw [List.count_eq_one_of_mem hnodup (List.mem_of_getElem? hopened)] at hcloses
    simp only [Relay.sessionSide, closeRequests_filter] at hcloses ⊢
    omega
  rw [hlive, liveOn_eq_zero_iff]
  constructor
  · intro hnone
    cases hstatus : x.status? session.id with
    | none => exact .inl rfl
    | some status =>
      obtain ⟨o, ho, hid, hphase⟩ := exists_outline_of_status? hstatus
      have hremote : o.remote = session.remote :=
        SessionId.Numbers.remote_eq (hnumbered.tracked o ho) (hid.symm ▸ hsession)
      have hnotLive := hnone o ho hremote
      have hnotEnded := horderly.tracked o ho
      rw [hphase] at hnotLive hnotEnded
      cases status <;> simp_all [SessionStatus.phase]
  · intro hclosed o ho hremote hphase
    have hid : o.id = session.id := SessionId.Numbers.id_eq hnodup (hremote ▸ hnumbered.tracked o ho) hsession
    obtain ⟨status, hstatus, hstatusPhase⟩ := exists_status?_of_outline ho
    rw [hid] at hstatus
    rw [hstatus] at hclosed
    rcases hclosed with hnone | hclosing
    · exact absurd hnone (by simp)
    · rw [Option.some.inj hclosing, hphase] at hstatusPhase
      exact absurd hstatusPhase (by simp [SessionStatus.phase])

/-! ## Attempts -/

/-- A call waits for the beginning of a transaction only after it has asked for it, and for that of a
first attempt only on a session that is tracked. -/
def BeginsAsAsked (s : Relay × Option Errand) : Prop :=
  ∀ t retries, s.2 = some (.transacting (.beginning t retries)) →
    s.1.requests.getLast? = some (.beginTransaction t.session.remote) ∧
      (retries = 0 → s.1.registry.isTracked t.session.id = true)

namespace BeginsAsAsked

theorem of_ne {s : Relay × Option Errand} (h : ∀ p, s.2 ≠ some (.transacting p)) : BeginsAsAsked s :=
  fun _ _ hbeginning => absurd hbeginning (h _)

theorem of_point {σ : Type} {r : Relay} {errand : σ → Errand} {point? : Option σ}
    (h : ∀ point p, errand point ≠ .transacting p) : BeginsAsAsked (r, point?.map errand) := by
  refine of_ne fun p hp => ?_
  obtain ⟨point, -, hpoint⟩ := Option.map_eq_some_iff.1 hp
  exact h point p hpoint

end BeginsAsAsked

namespace TransactionRun

/-- When a run comes to wait for the beginning of a transaction, it has asked for it last. -/
theorem Step.getLast?_requests {key : String} {r : Relay} {x : Relay × Progress TransactionRun Outcome}
    (h : Step key r x) {t : Transaction} {retries : Nat} (hx : x.2 = .waiting (beginning t retries)) :
    x.1.requests.getLast? = some (.beginTransaction t.session.remote) := by
  rw [h.requests, hx]
  exact List.getLast?_concat ..

theorem start_beginsAsAsked (r : Relay) (session : SessionHandle) (statements : List Statement)
    (substrings : Option (List String)) :
    BeginsAsAsked
      ((start r session statements substrings).1,
        (start r session statements substrings).2.point?.map .transacting) := by
  intro t retries hbeginning
  obtain ⟨p, hp, heq⟩ := Option.map_eq_some_iff.1 hbeginning
  cases heq
  have hwaiting := Progress.eq_waiting_of_point? hp
  by_cases htracked : r.registry.isTracked session.id = true
  · refine ⟨(start_step htracked statements substrings).getLast?_requests hwaiting, fun _ => ?_⟩
    have hsession : t.session = session := by
      rw [start_of_isTracked htracked, attempt_snd] at hwaiting
      split at hwaiting
      · cases hwaiting
        rfl
      · exact absurd hwaiting (by simp)
    have hregistry := congrArg (fun s => s.registry.registry) (start_quietSide r session statements substrings)
    simp only [Relay.quietSide, Relay.registrySide] at hregistry
    rw [hregistry, hsession]
    exact htracked
  · rw [start, if_neg htracked] at hwaiting
    exact absurd hwaiting (by simp)

section

variable {t t' : Transaction} {retries retries' : Nat} {r : Relay}

theorem next_ne_beginning {results : List QueryResult} {rest : List Statement} :
    (next t retries results rest r).2 ≠ .waiting (beginning t' retries') := by
  cases rest <;> simp [next]

theorem afterFailure_ne_beginning {failure : Failure} :
    (afterFailure t retries failure r).2 ≠ .waiting (beginning t' retries') := by
  rcases afterFailure_cases t retries r failure with ⟨-, h⟩ | ⟨-, -, h⟩ | ⟨-, -, h⟩ <;> simp [h]

end

/-- Only a run that has waited for a delay comes back to the beginning of a transaction. -/
theorem retries_pos_of_resume {p : TransactionRun} {answer : p.wait.Answer} {r : Relay} {t : Transaction}
    {retries : Nat} (h : (p.resume answer r).2 = .waiting (beginning t retries)) : 0 < retries := by
  cases p with
  | beginning t' retries' =>
    cases answer with
    | ok _ => exact absurd h next_ne_beginning
    | error e => exact absurd h afterFailure_ne_beginning
  | running t' retries' results current rest =>
    cases answer with
    | ok raw =>
      simp only [resume] at h
      split at h
      · exact absurd h next_ne_beginning
      · exact absurd h (by simp [rollBack])
    | error e => exact absurd h (by simp [resume, rollBack])
  | rollingBack t' retries' e => exact absurd h afterFailure_ne_beginning
  | committing t' retries' results =>
    cases answer with
    | ok _ => exact absurd h (by simp [resume, afterCommit, finish])
    | error e => exact absurd h (by simp [resume, rollBack])
  | backingOff t' retries' delay =>
    simp only [resume, attempt_snd] at h
    split at h
    · cases h
      exact Nat.succ_pos _
    · exact absurd h (by simp)

theorem resume_beginsAsAsked (p : TransactionRun) (answer : p.wait.Answer) (r : Relay) :
    BeginsAsAsked ((p.resume answer r).1, (p.resume answer r).2.point?.map .transacting) := by
  intro t retries hbeginning
  obtain ⟨p', hp, heq⟩ := Option.map_eq_some_iff.1 hbeginning
  cases heq
  have hwaiting := Progress.eq_waiting_of_point? hp
  have hretries := retries_pos_of_resume hwaiting
  exact ⟨(resume_step r p answer).getLast?_requests hwaiting, fun hzero => absurd hretries (by simp [hzero])⟩

end TransactionRun

theorem Deed.perform_beginsAsAsked (d : Deed) (r : Relay) : BeginsAsAsked (d.perform r) := by
  cases d with
  | transact session statements substrings => exact TransactionRun.start_beginsAsAsked r session statements substrings
  | openSession | closeSession | execute | closeClient | stopReaper =>
    exact .of_point fun _ _ h => by simp at h
  | settleReaper reaper =>
    refine .of_point fun point p h => ?_
    cases point <;> simp [Reaping.errand] at h
  | _ => exact .of_ne fun p h => by simp [perform] at h

theorem Errand.resume_beginsAsAsked (answers : Answers) (e : Errand) (r : Relay) :
    BeginsAsAsked (e.resume answers r) := by
  cases e with
  | transacting t => exact t.resume_beginsAsAsked (answers t.wait) r
  | executing e => exact .of_point fun _ _ h => by simp at h
  | _ => exact .of_ne fun p h => by simp [resume] at h

/-- By a move, a transaction comes to wait for its beginning. -/
def Begins (x : Exchange) (m : Move) (t : Transaction) (retries : Nat) (y : Exchange) : Prop :=
  ∃ i call, ComesToWait x m i call y ∧ call.errand = .transacting (.beginning t retries)

/-- **A step to the beginning of a transaction.** -/
theorem Begins.asAsked {x y : Exchange} {m : Move} {t : Transaction} {retries : Nat} (h : Begins x m t retries y) :
    y.relay.requests.getLast? = some (.beginTransaction t.session.remote) ∧
      (retries = 0 → y.relay.registry.isTracked t.session.id = true) := by
  obtain ⟨i, call, hcomes, herrand⟩ := h
  have hled : BeginsAsAsked (y.relay, some call.errand) := by
    rcases hcomes.cases with ⟨demand, -, hstart⟩ | ⟨answers, before, since, -, -, hresume⟩
    · have hleads := demand.start_leads x.relay
      rw [hstart] at hleads
      exact hleads.induct (fun d r _ => d.perform_beginsAsAsked r) (.of_ne fun _ => by simp)
    · have hleads := before.resume_leads answers x.relay
      rw [hresume] at hleads
      exact hleads.induct (fun d r _ => d.perform_beginsAsAsked r) (before.errand.resume_beginsAsAsked answers x.relay)
  exact hled t retries (congrArg some herrand)

/-- **On which sessions transactions begin.**  When a transaction comes to wait for its beginning, its
handle having been given out and the engine having numbered its sessions apart, the engine was asked
to begin it last of all; the session was asked to close before if and only if it is closing or gone;
and it is not gone if this is the first attempt. -/
theorem begins_after_close_iff {settings : Settings} {factory : ClientFactory} {moves : List Move} {x y : Exchange}
    {m : Move} {t : Transaction} {retries : Nat} (h : (Exchange.new settings factory).run moves = some x)
    (hbegins : Begins x m t retries y) (hnodup : y.opened.Nodup) (hsession : t.session.IsGivenOut y) :
    y.relay.requests.getLast? = some (.beginTransaction t.session.remote) ∧
      (0 < closeRequests t.session.remote y.relay.log ↔
        y.status? t.session.id = none ∨ y.status? t.session.id = some .closing) ∧
      (retries = 0 → y.status? t.session.id ≠ none) := by
  obtain ⟨hrequest, htracked⟩ := hbegins.asAsked
  obtain ⟨i, call, hcomes, -⟩ := hbegins
  have hy : (Exchange.new settings factory).run (moves ++ [m]) = some y := by
    rw [Exchange.run_concat, h]
    exact hcomes.applied
  refine ⟨hrequest, Exchange.closeRequests_pos_iff hy hnodup hsession, fun hfirst hnone => ?_⟩
  have hsome := htracked hfirst
  rw [Registry.isTracked, Table.contains, ← Option.isSome_map, ← Exchange.status?, hnone] at hsome
  exact absurd hsome (by simp)

/-- A transaction cannot begin; while it waits for its second attempt its session is closed, and gone. -/
def closedWhileBackingOff : List Move :=
  [.start (.openSession none none), .resume 0 (.granting 7), .start (.transact ⟨⟨1⟩, none, ⟨7⟩⟩ [] none),
    .resume 1 (.refusing (.transientRemote .sessionExpired "gone")), .start (.closeSession ⟨1⟩),
    .resume 2 (.granting 7), .elapse (.ofWholeSeconds 1)]

/-- The transaction for whose beginning a call waits, and how often it was retried. -/
def Exchange.beginning? (x : Exchange) (i : Nat) : Option (Transaction × Nat) :=
  match x.calls[i]? with
  | some (.waiting (.transacting (.beginning t retries)) _) => some (t, retries)
  | _ => none

theorem Begins.of_beginning? {x y : Exchange} {m : Move} {i : Nat} {t : Transaction} {retries : Nat}
    (happly : x.apply m = some y) (hmover : x.mover? m = some i) (hy : y.beginning? i = some (t, retries)) :
    Begins x m t retries y := by
  unfold Exchange.beginning? at hy
  split at hy
  · rename_i since hcall
    cases hy
    exact ⟨i, _, ⟨happly, hmover, since, hcall⟩, rfl⟩
  · exact absurd hy (by simp)

/-- When the delay is over, the second attempt begins all the same. -/
theorem begins_closedWhileBackingOff :
    ∃ x y t, (Exchange.new {} {}).run closedWhileBackingOff = some x ∧
      Begins x (.resume 1 (.granting 7)) t 1 y ∧ y.opened.Nodup ∧ t.session.IsGivenOut y ∧
      closeRequests t.session.remote y.relay.log = 1 := by
  have hrun : ((Exchange.new {} {}).run closedWhileBackingOff).bind
      (fun x => (x.apply (.resume 1 (.granting 7))).map fun y =>
        ((y.beginning? 1).map fun b => (b.1.session, b.2), y.opened, closeRequests ⟨7⟩ y.relay.log)) =
      some (some (⟨⟨1⟩, none, ⟨7⟩⟩, 1), [⟨7⟩], 1) := by decide +kernel
  obtain ⟨x, hx, happlied⟩ := Option.bind_eq_some_iff.1 hrun
  obtain ⟨y, hy, hfound⟩ := Option.map_eq_some_iff.1 happlied
  simp only [Prod.mk.injEq] at hfound
  obtain ⟨hbeginning, hopened, hcloses⟩ := hfound
  obtain ⟨⟨t, retries⟩, hwaits, hboth⟩ := Option.map_eq_some_iff.1 hbeginning
  obtain ⟨hsession, rfl⟩ := Prod.mk.inj hboth
  refine ⟨x, y, t, hx, .of_beginning? hy rfl hwaits, by simp [hopened], ?_, ?_⟩
  · rw [SessionHandle.IsGivenOut, hopened, hsession]
    exact ⟨0, rfl, rfl⟩
  · rw [hsession]
    exact hcloses

/-- So it cannot be said of all transactions that they begin on sessions that were not asked to close. -/
theorem begins_on_closed_session :
    ¬ ∀ (settings : Settings) (factory : ClientFactory) (moves : List Move) (x y : Exchange) (m : Move)
      (t : Transaction) (retries : Nat), (Exchange.new settings factory).run moves = some x →
      Begins x m t retries y → y.opened.Nodup → t.session.IsGivenOut y →
      closeRequests t.session.remote y.relay.log = 0 := by
  intro hnever
  obtain ⟨x, y, t, hx, hbegins, hnodup, hgiven, hcloses⟩ := begins_closedWhileBackingOff
  have hzero := hnever _ _ _ x y _ t _ hx hbegins hnodup hgiven
  exact absurd (hcloses.symm.trans hzero) (by decide)

/-- The second attempt begins on a session that was closed and is gone. -/
theorem begins_after_close_iff_of_retry :
    ∃ x y t, (Exchange.new {} {}).run closedWhileBackingOff = some x ∧
      Begins x (.resume 1 (.granting 7)) t 1 y ∧ y.opened.Nodup ∧ t.session.IsGivenOut y ∧
      y.relay.requests.getLast? = some (.beginTransaction t.session.remote) ∧
      (0 < closeRequests t.session.remote y.relay.log ↔
        y.status? t.session.id = none ∨ y.status? t.session.id = some .closing) ∧
      (1 = 0 → y.status? t.session.id ≠ none) := by
  obtain ⟨x, y, t, hx, hbegins, hnodup, hgiven, -⟩ := begins_closedWhileBackingOff
  exact ⟨x, y, t, hx, hbegins, hnodup, hgiven, begins_after_close_iff hx hbegins hnodup hgiven⟩

end QueryRelay
