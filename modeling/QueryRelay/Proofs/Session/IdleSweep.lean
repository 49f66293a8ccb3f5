import QueryRelay.Proofs.Executor.Alone
import QueryRelay.Proofs.Session.InTurn
import QueryRelay.Proofs.Session.Sweeping

/-!
# An idle sweep by itself

While a sweep runs and nobody else moves, time passes and the engine answers, late or soon, well or with a failure.
Which sessions the sweep closes was decided when it began: those in use or idle that had not been used for the session
timeout.  This module shows that it closes these and no others, each of them once.

* `Exchange.HasExpired`, `Exchange.expired` — what a sweep finds that begins now.
* `Sweep.HasCome` — how far a sweep has come; `HasCome.proceed`, `HasCome.resume` are its steps.
* `Exchange.SweepsAlone` — the invariant of the run.
* `sweep_exact` — **a sweep by itself is exact**: it ends after one answer for each expired session, and then these are
  gone, whatever the answers were, and every other session is as it was.
-/

namespace QueryRelay

/-! ## What a sweep finds -/

namespace Exchange

/-- A session of an exchange is in use or idle, and was not used for the session timeout. -/
def HasExpired (x : Exchange) (s : SessionState) : Prop :=
  (s.status = .active ∨ s.status = .idle) ∧
    x.relay.settings.limits.sessionTimeout.nanos ≤ x.relay.now - s.lastUsedAt

instance (x : Exchange) (s : SessionState) : Decidable (x.HasExpired s) := inferInstanceAs (Decidable (_ ∧ _))

/-- The tracked sessions that have expired, in the order in which they are tracked. -/
def expired (x : Exchange) : List (SessionId × TrackedSession) :=
  x.relay.registry.sessions.entries.filter fun e => decide (x.HasExpired e.2.state)

variable (x : Exchange)

theorem reapable_eq_expired : x.reapable = x.expired.map Prod.fst := by
  refine congrArg (List.map Prod.fst) (List.filter_congr fun e _ => ?_)
  rw [Bool.eq_iff_iff, decide_eq_true_eq]
  exact SessionState.isReapable_iff

theorem expired_sublist : x.expired.Sublist x.relay.registry.sessions.entries := List.filter_sublist

/-- Expired sessions can be closed in turn. -/
theorem closable_expired : Closable x.relay x.expired :=
  .of_sublist x.expired_sublist fun e he hclosing => by
    have hstatus := (of_decide_eq_true (List.mem_filter.1 he).2 : x.HasExpired e.2.state).1
    rw [hclosing] at hstatus
    simp at hstatus

/-- What is tracked and has expired, by its identifier. -/
theorem mem_expired_iff {e : SessionId × TrackedSession} (he : e ∈ x.relay.registry.sessions.entries) :
    e.1 ∈ x.expired.map Prod.fst ↔ x.HasExpired e.2.state := by
  constructor
  · intro hid
    obtain ⟨e', he', hsame⟩ := List.mem_map.1 hid
    obtain ⟨hmem, hexpired⟩ := List.mem_filter.1 he'
    have hget := Table.mem_entries_iff.1 (show (e.1, e'.2) ∈ x.relay.registry.sessions.entries from hsame ▸ hmem)
    rw [Table.mem_entries_iff.1 he, Option.some.injEq] at hget
    rw [hget]
    exact of_decide_eq_true hexpired
  · exact fun hexpired => List.mem_map_of_mem (List.mem_filter.2 ⟨he, decide_eq_true hexpired⟩)

/-- What remains without the expired sessions. -/
theorem entries_without_expired :
    (x.relay.registry.without (x.expired.map Prod.fst)).sessions.entries =
      x.relay.registry.sessions.entries.filter fun e => !decide (x.HasExpired e.2.state) := by
  refine List.filter_congr fun e he => ?_
  rw [← decide_not]
  exact decide_eq_decide.2 (not_congr (x.mem_expired_iff he))

end Exchange

/-! ## How far a sweep has come -/

namespace Sweep

/-- How far a sweep of some sessions has come when the engine has given these answers: there is one more session to be
closed, or there is none. -/
inductive HasCome (before : Relay) (line : List (SessionId × TrackedSession)) (replies : List (Except Failure Unit))
    (r : Relay) : Progress Sweep Nat → Prop
  | waiting {done rest : List (SessionId × TrackedSession)} {e : SessionId × TrackedSession}
    (hline : line = done ++ e :: rest) (hlength : replies.length = done.length) (hnext : ClosesNext before done e r) :
    HasCome before line replies r (.waiting ⟨.ofEntry e, rest.map Prod.fst, replies.countP Except.isOk⟩)
  | finished (hlength : replies.length = line.length) (hclosed : ClosedInTurn before line r) :
    HasCome before line replies r (.finished (replies.countP Except.isOk))

namespace HasCome

variable {before r r' : Relay} {line done rest : List (SessionId × TrackedSession)}
  {replies : List (Except Failure Unit)} {p : Progress Sweep Nat}

/-- **Going through the sessions that remain**, a sweep stops at the next one. -/
theorem proceed (hclosable : Closable before line) (hline : line = done ++ rest)
    (hlength : replies.length = done.length) (h : ClosedInTurn before done r) :
    HasCome before line replies (Sweep.proceed r (rest.map Prod.fst) (replies.countP Except.isOk)).1
      (Sweep.proceed r (rest.map Prod.fst) (replies.countP Except.isOk)).2 := by
  cases rest with
  | nil =>
    rw [List.append_nil] at hline
    subst hline
    exact .finished hlength h
  | cons e rest =>
    rw [hline] at hclosable
    obtain ⟨r', hstart, hnext⟩ := h.start hclosable
    rw [List.map_cons, Sweep.proceed, hstart]
    exact .waiting hline hlength hnext

/-- **The engine answers**, well or not: the sweep goes on. -/
theorem resume (hclosable : Closable before line) {s : Sweep} (h : HasCome before line replies r (.waiting s))
    (reply : Except Failure Unit) :
    HasCome before line (replies ++ [reply]) (s.resume reply r).1 (s.resume reply r).2 := by
  cases h with
  | @waiting done rest e hline hlength hnext =>
    obtain ⟨r', hresume, hclosed⟩ := hnext.resume reply
    have hcount : (replies ++ [reply]).countP Except.isOk =
        replies.countP Except.isOk + if reply.isOk then 1 else 0 := by
      rw [List.countP_append, List.countP_singleton]
    have hlonger : (replies ++ [reply]).length = (done ++ [e]).length := by simp [hlength]
    have hproceed := proceed hclosable (hline.trans (List.append_cons done e rest)) hlonger hclosed
    rw [hcount] at hproceed
    rw [Sweep.resume, hresume]
    cases reply with
    | ok _ => exact hproceed
    | error failure => exact hproceed

/-- How far a sweep has come does not depend on the time. -/
theorem elapse (h : HasCome before line replies r p) (now : Instant) :
    HasCome before line replies { r with now := now } p := by
  cases h with
  | waiting hline hlength hnext => exact .waiting hline hlength (hnext.congr rfl rfl rfl)
  | finished hlength hclosed => exact .finished hlength (hclosed.congr rfl rfl rfl)

theorem length_le (h : HasCome before line replies r p) : replies.length ≤ line.length := by
  cases h with
  | waiting hline hlength hnext => simp [hline, hlength]
  | finished hlength hclosed => exact Nat.le_of_eq hlength

/-- The sessions of the list have been asked to be closed as far as there are answers, and one more. -/
theorem requests (h : HasCome before line replies r p) :
    r.requests = before.requests ++ (line.take (replies.length + 1)).map closeRequest := by
  cases h with
  | @waiting done rest e hline hlength hnext =>
    have htake : (done ++ e :: rest).take (done.length + 1) = done ++ [e] := by
      rw [List.append_cons]
      exact List.take_left' (by simp)
    rw [hnext.requests, hline, hlength, htake]
  | finished hlength hclosed =>
    rw [hclosed.requests, List.take_of_length_le (by omega)]

/-- Whatever is not on the list is as it was. -/
theorem get?_of_not_mem (h : HasCome before line replies r p) {id : SessionId} (hid : id ∉ line.map Prod.fst) :
    r.registry.sessions.get? id = before.registry.sessions.get? id := by
  cases h with
  | waiting hline hlength hnext => exact hnext.get?_of_not_mem (hline ▸ hid)
  | finished hlength hclosed => exact hclosed.get?_of_not_mem hid

end HasCome

end Sweep

/-! ## The run -/

namespace Exchange

/-- A sweep that has the exchange for itself has made some moves, and the engine has given these answers. -/
structure SweepsAlone (x : Exchange) (replies : List (Except Failure Unit)) (y : Exchange) : Prop where
  /-- The other calls stand where they stood. -/
  calls : ∃ q p, y.calls = x.calls ++ [.after (Call.lift .sweeping .swept (q, p))] ∧
    Sweep.HasCome x.relay x.expired replies y.relay p
  heard : y.heard = x.heard ++ closingsHeard x.expired replies

namespace SweepsAlone

variable {x y z : Exchange} {replies : List (Except Failure Unit)}

/-- **The beginning.** -/
theorem begin (h : x.apply (.start .sweep) = some z) : x.SweepsAlone [] z := by
  have hnone : ([] : List (Except Failure Unit)).length = ([] : List (SessionId × TrackedSession)).length := rfl
  have hcome := Sweep.HasCome.proceed x.closable_expired (List.nil_append x.expired).symm hnone (.nil x.relay)
  rw [← reapable_eq_expired] at hcome
  cases Option.some.inj h
  exact ⟨⟨(Sweep.start x.relay).1, (Sweep.start x.relay).2, rfl, hcome⟩, by simp [closingsHeard]⟩

/-- **The engine answers.** -/
theorem own (h : x.SweepsAlone replies y) {answers : Answers}
    (happly : y.apply (.resume x.calls.length answers) = some z) :
    ∃ reply, x.SweepsAlone (replies ++ [reply]) z := by
  obtain ⟨⟨q, p, hcalls, hcome⟩, hheard⟩ := h
  obtain ⟨call, since, hcall, rfl⟩ := apply_resume happly
  rw [hcalls, List.getElem?_concat_length, Option.some.injEq] at hcall
  cases p with
  | finished closed => exact absurd hcall (by simp [Call.lift, Standing.after, Progress.map])
  | waiting s =>
    cases hcall
    have hstep := hcome.resume x.closable_expired (answers s.wait)
    have hcalls' : y.calls.set x.calls.length
        (.after (Call.lift .sweeping .swept (s.resume (answers s.wait) y.relay))) =
          x.calls ++ [.after (Call.lift .sweeping .swept (s.resume (answers s.wait) y.relay))] := by
      rw [hcalls, List.set_append_right _ _ (Nat.le_refl _), Nat.sub_self]
      rfl
    have hheard' : y.heard ++ [⟨s.wait, answers s.wait⟩] =
        x.heard ++ closingsHeard x.expired (replies ++ [answers s.wait]) := by
      cases hcome with
      | waiting hline hlength hnext =>
        rw [hheard, hline, closingsHeard_concat hlength, ← List.append_assoc]
        rfl
    exact ⟨answers s.wait, ⟨_, _, hcalls', hstep⟩, hheard'⟩

/-- **Time passes.** -/
theorem elapse (h : x.SweepsAlone replies y) {span : Duration} (happly : y.apply (.elapse span) = some z) :
    x.SweepsAlone replies z := by
  obtain ⟨⟨q, p, hcalls, hcome⟩, hheard⟩ := h
  cases Option.some.inj happly
  exact ⟨⟨q, p, hcalls, hcome.elapse _⟩, hheard⟩

/-- **The induction over runs.** -/
theorem of_run {later : List Move} (hy : x.run (.start .sweep :: later) = some y)
    (halone : ∀ m ∈ later, m.GoesOn x.calls.length) : ∃ replies, x.SweepsAlone replies y := by
  induction hy using run_cons_induct with
  | head hbegin => exact ⟨[], begin hbegin⟩
  | @snoc later m y z hy hlast ih =>
    obtain ⟨replies, hbefore⟩ := ih fun m hm => halone m (List.mem_append_left _ hm)
    cases halone m (List.mem_append_right _ List.mem_cons_self) with
    | resume answers =>
      obtain ⟨reply, hafter⟩ := hbefore.own hlast
      exact ⟨_, hafter⟩
    | elapse span => exact ⟨replies, hbefore.elapse hlast⟩

end SweepsAlone

end Exchange

/-! ## What a sweep by itself amounts to -/

/-- A sweep that began at `x` has come to `y`, and the engine has given these answers. -/
structure SweepsExactly (x : Exchange) (replies : List (Except Failure Unit)) (y : Exchange) : Prop where
  /-- Nothing is heard but one answer for each expired session, in turn. -/
  heard : y.heard = x.heard ++ closingsHeard x.expired replies
  bounded : replies.length ≤ x.expired.length
  /-- The engine is asked to close each expired session once, in turn, and is asked for nothing else. -/
  requests : y.relay.requests = x.relay.requests ++ (x.expired.take (replies.length + 1)).map closeRequest
  /-- Every other session keeps its whole state, all the time. -/
  others : ∀ e ∈ x.relay.registry.sessions.entries, ¬x.HasExpired e.2.state →
    y.relay.registry.sessions.get? e.1 = some e.2
  /-- As long as an answer is missing, the sweep waits for it, and goes on whatever it is. -/
  goesOn : replies.length < x.expired.length → ∀ answers, (y.apply (.resume x.calls.length answers)).isSome
  /-- With the last answer the sweep is over.  Its result is how many closings went well, and what is tracked is what
  was tracked and has not expired, whatever the answers were. -/
  ends : replies.length = x.expired.length →
    y.calls[x.calls.length]? = some (.finished (.swept (replies.countP Except.isOk))) ∧
      y.relay.registry.sessions.entries =
        x.relay.registry.sessions.entries.filter fun e => !decide (x.HasExpired e.2.state)

/-- **A sweep by itself is exact.**  Let any sessions be tracked at any time, and let nobody else move while a sweep
goes on.  Whatever the engine answers and however long it takes, the sweep closes exactly the sessions that had expired
when it began, each of them once, drops them whether or not their closing goes well, and returns how many went well. -/
theorem sweep_exact {x y : Exchange} {later : List Move} (hy : x.run (.start .sweep :: later) = some y)
    (halone : ∀ m ∈ later, m.GoesOn x.calls.length) : ∃ replies, SweepsExactly x replies y := by
  obtain ⟨replies, ⟨q, p, hcalls, hcome⟩, hheard⟩ := Exchange.SweepsAlone.of_run hy halone
  have hstands : y.calls[x.calls.length]? = some (.after (Call.lift .sweeping .swept (q, p))) := by
    rw [hcalls]
    exact List.getElem?_concat_length
  refine ⟨replies, hheard, hcome.length_le, hcome.requests, fun e he hkept => ?_, fun hmissing answers => ?_,
    fun hall => ?_⟩
  · rw [hcome.get?_of_not_mem (mt (x.mem_expired_iff he).1 hkept)]
    exact Table.mem_entries_iff.1 he
  · cases hcome with
    | waiting hline hlength hnext =>
      rw [Exchange.apply_resume_of_waiting hstands rfl answers]
      rfl
    | finished hlength hclosed => exact absurd hlength (Nat.ne_of_lt hmissing)
  · cases hcome with
    | waiting hline hlength hnext =>
      rw [hline, List.length_append, List.length_cons] at hall
      omega
    | finished hlength hclosed =>
      refine ⟨hstands, ?_⟩
      rw [hclosed.registry]
      exact x.entries_without_expired

/-- Three sessions are opened; the first is in use and the second is idle when time passes. -/
def twoUsed : List Move :=
  [.start (.openSession none none), .resume 0 (.granting 7), .start (.openSession none none),
    .resume 1 (.granting 8), .start (.openSession none none), .resume 2 (.granting 9),
    .start (.update ⟨⟨1⟩, none, ⟨7⟩⟩ .queriesExecuted 1), .start (.update ⟨⟨2⟩, none, ⟨8⟩⟩ .queriesExecuted 1),
    .start (.markIdle ⟨⟨2⟩, none, ⟨8⟩⟩), .elapse ⟨10⟩]

/-- The engine refuses the first closing, and grants the second one later. -/
def refusesThenGrants : List Move :=
  [.resume 6 (.refusing (.remote "Engine.Busy" "busy")), .elapse ⟨5⟩, .resume 6 (.granting 0)]

/-- A sweep of three sessions closes the two that were used, and counts one. -/
theorem sweep_exact_of_three :
    ∃ x y, (Exchange.new { limits := { sessionTimeout := ⟨10⟩ } } {}).run twoUsed = some x ∧
      x.run (.start .sweep :: refusesThenGrants) = some y ∧ (∀ m ∈ refusesThenGrants, m.GoesOn x.calls.length) ∧
      (∃ replies, SweepsExactly x replies y) ∧ y.relay.registry.sessions.keys = [⟨3⟩] ∧
      y.calls[6]? = some (.finished (.swept 1)) := by
  have hrun : ((Exchange.new { limits := { sessionTimeout := ⟨10⟩ } } {}).run twoUsed).map
      (fun x =>
        (x.calls.length,
          (x.run (.start .sweep :: refusesThenGrants)).map fun y =>
            (y.relay.registry.sessions.keys, y.calls[6]?))) =
      some (6, some ([⟨3⟩], some (.finished (.swept 1)))) := rfl
  obtain ⟨x, hx, hparts⟩ := Option.map_eq_some_iff.1 hrun
  obtain ⟨hlength, hafter⟩ := Prod.mk.inj hparts
  obtain ⟨y, hy, hends⟩ := Option.map_eq_some_iff.1 hafter
  obtain ⟨hkeys, hresult⟩ := Prod.mk.inj hends
  have halone : ∀ m ∈ refusesThenGrants, m.GoesOn x.calls.length := by
    rw [hlength]
    simp only [refusesThenGrants, List.forall_mem_cons, List.not_mem_nil, false_imp_iff, implies_true, and_true]
    exact ⟨.resume _, .elapse _, .resume _⟩
  exact ⟨x, y, hx, hy, halone, sweep_exact hy halone, hkeys, hresult⟩

end QueryRelay
