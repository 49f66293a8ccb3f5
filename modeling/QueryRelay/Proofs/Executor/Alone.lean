import QueryRelay.Proofs.Executor.Release
import QueryRelay.Proofs.Transaction.Committed

/-!
# An operation by itself

While an operation runs, nobody else may move: other calls stand where they stood, and time passes.  Whatever the engine
answers, the operation then leaves the tracked sessions as it found them, and everything that is heard and asked for is
what the operation itself hears and asks for.

* `Move.GoesOn` — the moves of a run in which one call has the exchange for itself.
* `KeepsSessions` — which sessions there are at each point of an operation by itself.
* `RunsAlone` — the invariant of the run; `RunsAlone.begin`, `RunsAlone.own`, `RunsAlone.elapse` are its steps.
* `query_alone` — what a query by itself amounts to: it **commits its statement exactly if it returns a result**.
-/

namespace QueryRelay

/-- A move by which a call goes on, or time passes. -/
inductive Move.GoesOn (i : Nat) : Move → Prop
  | resume (answers : Answers) : GoesOn i (.resume i answers)
  | elapse (span : Duration) : GoesOn i (.elapse span)

/-! ## The sessions -/

namespace SessionSide

variable {s : SessionSide}

/-- The next identifier is not in use. -/
theorem others_nextSerial (hknown : ∀ o ∈ s.sessions, o.id.serial < s.nextSerial) :
    s.others ⟨s.nextSerial⟩ = s.sessions := by
  refine Multiset.filter_eq_self.2 fun o ho hid => ?_
  have hserial := hknown o ho
  rw [hid] at hserial
  exact Nat.lt_irrefl _ hserial

theorem others_beginClosing (s : SessionSide) (c : Closing) (phase : Phase) :
    (s.beginClosing c phase).others c.id = s.others c.id := by
  rw [others, beginClosing, Multiset.filter_cons_of_neg _ (by simp)]
  exact Multiset.filter_eq_self.2 fun o ho => (mem_others.1 ho).2

end SessionSide

/-- Which sessions there are when an operation by itself has come so far: those that there were before, and its own. -/
def KeepsSessions (before now : SessionSide) : Progress Operation TransactionRun.Outcome → Prop
  | .waiting (.opening _ _) => now.sessions = before.sessions ∧ now.nextSerial = before.nextSerial
  | .waiting (.transacting _ session _) =>
    session.id = ⟨before.nextSerial⟩ ∧ now.sessions = ⟨session.id, session.remote, .live⟩ ::ₘ before.sessions
  | .waiting (.releasing _ c _) => c.id = ⟨before.nextSerial⟩ ∧ now.others c.id = before.sessions
  | .finished _ => now.sessions = before.sessions

namespace KeepsSessions

variable {before : SessionSide} {q : Relay} {f : OperationFrame}

/-- A step of an operation leads to where the sessions are kept. -/
abbrev After (before : SessionSide) (s : Relay × Progress Operation TransactionRun.Outcome) : Prop :=
  KeepsSessions before s.1.sessionSide s.2

theorem finish (f : OperationFrame) (outcome : TransactionRun.Outcome)
    (h : q.sessionSide.sessions = before.sessions) : After before (Operation.finish f outcome q) := by
  have hsessions : (Operation.finish f outcome q).1.sessionSide.sessions = before.sessions := by
    rw [Operation.finish_side]
    exact h
  cases outcome <;> exact hsessions

section Known

variable (hknown : ∀ o ∈ before.sessions, o.id.serial < before.nextSerial)

include hknown

/-- **The transaction has come so far**: the own session is live until it is released. -/
theorem ofRun {session : SessionHandle} (hid : session.id = ⟨before.nextSerial⟩)
    (hsessions : q.sessionSide.sessions = ⟨session.id, session.remote, .live⟩ ::ₘ before.sessions)
    (progress : Progress TransactionRun TransactionRun.Outcome) :
    After before (Operation.ofRun f session (q, progress)) := by
  cases progress with
  | waiting run => exact ⟨hid, hsessions⟩
  | finished outcome =>
    have hidle := q.sessionSide_markIdle session
    have hlive : ⟨session.id, session.remote, .live⟩ ∈ (q.markIdle session).1.sessionSide.sessions := by
      rw [hidle, hsessions]
      exact Multiset.mem_cons_self _ _
    obtain ⟨database, hstart⟩ := Closing.start_of_mem_live hlive
    rcases Closing.start_side (q.markIdle session).1 session.id with ⟨hnone, -⟩ | ⟨c, phase, hpoint, -, -, -, hside⟩
    · rw [hstart] at hnone
      exact absurd hnone (by simp [Progress.point?])
    · rw [hstart] at hpoint
      cases Option.some.inj hpoint
      have hothers : (Closing.start (q.markIdle session).1 session.id).1.sessionSide.others session.id =
          before.sessions := by
        rw [hside]
        refine (SessionSide.others_beginClosing _ _ _).trans ?_
        rw [SessionSide.others, hidle, hsessions, Multiset.filter_cons_of_neg _ (by simp), hid]
        exact SessionSide.others_nextSerial hknown
      have hrelease : Operation.ofRun f session (q, .finished outcome) =
          ((Closing.start (q.markIdle session).1 session.id).1,
            .waiting (.releasing f ⟨session.id, session.remote, database⟩ outcome)) := by
        rw [Operation.ofRun, Operation.release, hstart]
      rw [After, hrelease]
      exact ⟨hid, hothers⟩

/-- **The engine has answered the opening**: there is a session more, or there is none. -/
theorem ofOpening {o : Opening} (hsessions : q.sessionSide.sessions = before.sessions)
    (hserial : q.sessionSide.nextSerial = before.nextSerial) (reply : Except Failure RemoteSession) :
    After before (Operation.ofOpening f (o.resume reply q)) := by
  have hside := o.resume_side reply q
  cases reply with
  | error failure =>
    rw [Opening.resume_error] at hside ⊢
    refine finish f (.error failure) ?_
    rw [hside]
    exact hsessions
  | ok remote =>
    have hopened : o.resume (.ok remote) q =
        ((o.resume (.ok remote) q).1, .ok (q.registry.track o.database remote q.now).2) := by
      rw [Opening.resume_ok]
    have hothers : q.sessionSide.others ⟨q.sessionSide.nextSerial⟩ = before.sessions := by
      rw [SessionSide.others_nextSerial (by rw [hsessions, hserial]; exact hknown), hsessions]
    rw [hopened]
    generalize (o.resume (.ok remote) q).1 = q' at hside
    have hsame := TransactionRun.start_side q' (q.registry.track o.database remote q.now).2 f.statements f.substrings
    rw [Operation.ofOpening]
    generalize TransactionRun.start q' (q.registry.track o.database remote q.now).2 f.statements f.substrings = s
      at hsame
    refine ofRun hknown (q := s.1) (congrArg SessionId.mk hserial) ?_ s.2
    rw [hsame, hside]
    exact congrArg (⟨⟨q.sessionSide.nextSerial⟩, remote, .live⟩ ::ₘ ·) hothers

/-- **A step of the operation.** -/
theorem resume {operation : Operation} (h : KeepsSessions before q.sessionSide (.waiting operation))
    (answer : operation.wait.Answer) : After before (operation.resume answer q) := by
  cases operation with
  | opening f o => exact ofOpening hknown h.1 h.2 answer
  | transacting f session run =>
    refine ofRun hknown (q := (run.resume answer q).1) h.1 ?_ (run.resume answer q).2
    rw [TransactionRun.resume_side]
    exact h.2
  | releasing f c outcome =>
    refine finish f outcome ?_
    rw [Closing.resume_side]
    exact h.2

end Known

/-- The beginning: nobody has a session at once. -/
theorem start (order : OperationOrder) (r : Relay) : After r.sessionSide (order.start r) := by
  have hside := Opening.start_side r (order.frame r.now).database order.options.session
  rcases Opening.start_cases r (order.frame r.now).database order.options.session with
    ⟨r', failure, hover, -⟩ | ⟨r', o, hwaits, -, -⟩
  · rw [hover] at hside
    rcases hside with ⟨-, hside⟩ | ⟨o, hpoint, -⟩
    · rw [After, (OperationOrder.start_of_opening hover).2 _ rfl]
      exact finish _ (.error failure) (congrArg SessionSide.sessions hside)
    · exact absurd hpoint (by simp [Progress.point?])
  · rw [hwaits] at hside
    rcases hside with ⟨hpoint, -⟩ | ⟨_, -, -, hside⟩
    · exact absurd hpoint (by simp [Progress.point?])
    · rw [After, (OperationOrder.start_of_opening hwaits).1 _ rfl]
      show r'.sessionSide.sessions = _ ∧ r'.sessionSide.nextSerial = _
      rw [show r'.sessionSide = _ from hside]
      exact ⟨rfl, rfl⟩

end KeepsSessions

/-! ## The run -/

/-- How a call stands when its operation has come so far. -/
inductive OperationForm.Shows (form : OperationForm) : Progress Operation TransactionRun.Outcome → Standing → Prop
  | waiting (o : Operation) (since : Instant) : Shows form (.waiting o) (.waiting (form.point o) since)
  | finished (outcome : TransactionRun.Outcome) : Shows form (.finished outcome) (.finished (form.result outcome))

namespace OperationForm

variable (form : OperationForm)

theorem shows_after (s : Relay × Progress Operation TransactionRun.Outcome) :
    form.Shows s.2 (.after (Call.lift form.point form.result s)) := by
  obtain ⟨r, progress⟩ := s
  cases progress with
  | waiting o => exact .waiting o r.now
  | finished outcome => exact .finished outcome

theorem point_injective : Function.Injective form.point := by
  intro o o' h
  cases form with
  | several => exact Call.operating.inj h
  | single statement => exact congrArg Query.operation (Call.query.inj h)

end OperationForm

/-- An operation that has the exchange for itself has made some moves. -/
structure RunsAlone (settings : Settings) (factory : ClientFactory) (order : OperationOrder) (x : Exchange)
    (moves : List Move) (y : Exchange) : Prop where
  accompanies : Accompanies settings factory order x moves y
  /-- The other calls stand where they stood. -/
  calls : ∃ p s, y.calls = x.calls ++ [s] ∧ order.form.Shows p s ∧
    KeepsSessions x.relay.sessionSide y.relay.sessionSide p
  heard : y.heard = x.heard ++ x.heardBy x.calls.length moves
  requests : y.relay.requests = x.relay.requests ++ x.requestsOf x.calls.length moves
  /-- Nothing is heard but answers to what was asked. -/
  answered : ∀ h ∈ x.heardBy x.calls.length moves, ∀ request, h.request? = some request →
    request ∈ x.requestsOf x.calls.length moves

/-- Others that stand where they stood close no session that is new. -/
theorem leavesSession_of_shows {settings : Settings} {factory : ClientFactory} {earlier : List Move} {x z : Exchange}
    {form : OperationForm} {p : Progress Operation TransactionRun.Outcome} {s : Standing}
    (hx : (Exchange.new settings factory).run earlier = some x) (hcalls : z.calls = x.calls ++ [s])
    (hshows : form.Shows p s) (hkeeps : KeepsSessions x.relay.sessionSide z.relay.sessionSide p) :
    z.LeavesSession x.calls.length := by
  intro call since session hcall hsession j ⟨call', since', c, hcall', herrand, hid⟩
  rw [hcalls, List.getElem?_concat_length] at hcall
  cases Option.some.inj hcall
  obtain ⟨run, hrun⟩ := Call.errand_of_session? hsession
  have hj : j ≠ x.calls.length := by
    rintro rfl
    rw [hcalls, List.getElem?_concat_length] at hcall'
    cases Option.some.inj hcall'
    exact absurd (hrun.symm.trans herrand) (by simp)
  -- The other call has been closing a session since before this one was opened.
  have hbefore : x.calls[j]? = some (.waiting call' since') := by
    have hlength := (List.getElem?_eq_some_iff.1 hcall').1
    rw [hcalls, List.length_append, List.length_singleton] at hlength
    rw [hcalls, List.getElem?_append_left (by omega)] at hcall'
    exact hcall'
  have hcloses : x.Closes j session.id := ⟨call', since', c, hbefore, herrand, hid⟩
  have horderly := (Exchange.orderly hx).1
  obtain ⟨o, ho, hsame, -⟩ := hcloses.inPhase horderly
  have hserial := horderly.known o ho
  cases hshows with
  | waiting operation since =>
    rw [form.session?_point] at hsession
    cases operation with
    | transacting f session' run' =>
      cases Option.some.inj hsession
      rw [hsame, hkeeps.1] at hserial
      exact Nat.lt_irrefl _ hserial
    | _ => exact absurd hsession (by simp [Operation.session?])

/-! ### What was asked for -/

section Asked

variable {settings : Settings} {factory : ClientFactory} {order : OperationOrder} {r : Relay}
  {session : SessionHandle} {o : Opening} {c : Course}

/-- The transaction of an operation begins on a session that is tracked. -/
theorem TransactsOn.exists_course (h : TransactsOn settings factory order r session o c) :
    ∃ (q : Relay) (script : Script) (n : Nat), q.registry.isTracked session.id = true ∧
      c = (Course.begin q session order.statements order.options.substrings).under script n := by
  obtain ⟨opening, stride, script, n, hopening, -, hok, hanswered, hcourse⟩ := h.opened
  obtain ⟨stride', hanswered', -, -, hinserted, -⟩ := hopening.reportsOnce.tracked session hok
  cases Option.some.inj (hanswered.symm.trans hanswered')
  refine ⟨stride.after, script, n, ?_, hcourse⟩
  rw [Registry.isTracked, hinserted, Table.contains, Table.get?_insert, if_pos rfl]
  rfl

theorem TransactsOn.sent_eq (h : TransactsOn settings factory order r session o c) :
    c.sent = c.heard.filterMap Heard.request? ++ TransactionRun.awaited c.progress := by
  obtain ⟨q, script, n, htracked, rfl⟩ := h.exists_course
  exact Course.sent_eq htracked script n

/-- **A call has asked for what it waits for.** -/
theorem Stage.awaited_mem {record : CallRecord} {custody : Custody} {call : Call} {since : Instant}
    (h : Stage settings factory order r record custody (.waiting call since)) {request : Request}
    (hrequest : call.errand.wait.request? = some request) : request ∈ record.requests := by
  cases h with
  | opening hstart =>
    rw [order.form.errand_point] at hrequest
    cases Option.some.inj hrequest
    exact List.mem_cons_self
  | @transacting session o c run last since htransacts hprogress =>
    rw [order.form.errand_point] at hrequest
    have hawaited : request ∈ TransactionRun.awaited c.progress := by
      rw [hprogress]
      exact Option.mem_toList.2 hrequest
    refine List.mem_cons_of_mem _ ?_
    rw [htransacts.sent_eq]
    exact List.mem_append_right _ hawaited
  | releasing htransacts hprogress hid hremote =>
    rw [order.form.errand_point] at hrequest
    cases Option.some.inj hrequest
    rw [hremote]
    exact List.mem_cons_of_mem _ (List.mem_append_right _ List.mem_cons_self)

end Asked

/-! ### The steps -/

namespace RunsAlone

variable {settings : Settings} {factory : ClientFactory} {order : OperationOrder} {x y z : Exchange}
  {moves earlier : List Move}

/-- **The beginning.** -/
theorem begin {demand : Demand} (hx : (Exchange.new settings factory).run earlier = some x)
    (horder : demand.order? = some order) (happly : x.apply (.start demand) = some z) :
    RunsAlone settings factory order x [.start demand] z := by
  have hnothing : x.run [] = some x := rfl
  have hz := (Option.some.inj happly).symm
  rw [demand.start_of_order horder] at hz
  have hrelay : z.relay = (order.start x.relay).1 := congrArg Exchange.relay hz
  have hcalls : z.calls = x.calls ++ [.after (Call.lift order.form.point order.form.result (order.start x.relay))] :=
    congrArg Exchange.calls hz
  have hsilent : z.heard = x.heard ++ [] := (congrArg Exchange.heard hz).trans (List.append_nil _).symm
  have hshows := order.form.shows_after (order.start x.relay)
  have hkeeps := KeepsSessions.start order x.relay
  obtain ⟨asked, reported, custody, hwrites, -⟩ := Stage.begin settings factory order x.relay
  rw [KeepsSessions.After, ← hrelay] at hkeeps
  rw [← hrelay] at hwrites
  have hleaves := leavesSession_of_shows hx hcalls hshows hkeeps
  have hrecord := Exchange.recordOf_concat (i := x.calls.length) hnothing happly rfl hsilent hwrites
  have hheard : x.heardBy x.calls.length [.start demand] = [] := congrArg CallRecord.heard hrecord
  have hrequests : x.requestsOf x.calls.length [.start demand] = asked := congrArg CallRecord.requests hrecord
  refine ⟨.begin hx horder happly hleaves, ⟨_, _, hcalls, hshows, hkeeps⟩, ?_, ?_, ?_⟩
  · rw [hheard]
    exact hsilent
  · rw [hrequests]
    exact hwrites.requests
  · rw [hheard]
    exact fun h hmem => absurd hmem List.not_mem_nil

/-- **The operation goes on.** -/
theorem own (hx : (Exchange.new settings factory).run earlier = some x)
    (h : RunsAlone settings factory order x moves y) (hrun : x.run moves = some y) {answers : Answers}
    (happly : y.apply (.resume x.calls.length answers) = some z) :
    RunsAlone settings factory order x (moves ++ [.resume x.calls.length answers]) z := by
  obtain ⟨p, s, hcalls, hshows, hkeeps⟩ := h.calls
  obtain ⟨s', custody, hs', hcustody, -, hstage⟩ := h.accompanies.stage
  have hs : y.calls[x.calls.length]? = some s := by
    rw [hcalls]
    exact List.getElem?_concat_length
  obtain ⟨call, since, hcall, hz⟩ := Exchange.apply_resume happly
  cases Option.some.inj (hs.symm.trans hcall)
  cases Option.some.inj (hs.symm.trans hs')
  cases hshows with
  | waiting o since =>
    obtain ⟨operation, hsame, asked, reported, custody', hwrites, -⟩ :=
      hstage.resume (Exchange.run_trans hx hrun) hs hcustody answers
    cases order.form.point_injective hsame
    have hanswered : ∀ request, o.wait.request? = some request → request ∈ x.requestsOf x.calls.length moves := by
      intro request hrequest
      refine hstage.awaited_mem ?_
      rw [order.form.errand_point, o.errand_wait]
      exact hrequest
    rw [order.form.resume_point, order.form.heard_point] at hz
    have hrelay : z.relay = (o.resume (answers o.wait) y.relay).1 := congrArg Exchange.relay hz
    have htold : z.heard = y.heard ++ [⟨o.wait, answers o.wait⟩] := congrArg Exchange.heard hz
    have hcalls' : z.calls =
        x.calls ++ [.after (Call.lift order.form.point order.form.result (o.resume (answers o.wait) y.relay))] := by
      rw [hz]
      dsimp only
      rw [hcalls, List.set_append_right _ _ (Nat.le_refl _), Nat.sub_self]
      rfl
    have hshows' := order.form.shows_after (o.resume (answers o.wait) y.relay)
    have hkeeps' := hkeeps.resume (Exchange.orderly hx).1.known (answers o.wait)
    rw [KeepsSessions.After, ← hrelay] at hkeeps'
    rw [← hrelay] at hwrites
    have hleaves := leavesSession_of_shows hx hcalls' hshows' hkeeps'
    have hrecord := Exchange.recordOf_concat hrun happly rfl htold hwrites
    have hheard : x.heardBy x.calls.length (moves ++ [.resume x.calls.length answers]) =
        x.heardBy x.calls.length moves ++ [⟨o.wait, answers o.wait⟩] := congrArg CallRecord.heard hrecord
    have hrequests : x.requestsOf x.calls.length (moves ++ [.resume x.calls.length answers]) =
        x.requestsOf x.calls.length moves ++ asked := congrArg CallRecord.requests hrecord
    refine ⟨h.accompanies.own hx hrun happly hleaves rfl, ⟨_, _, hcalls', hshows', hkeeps'⟩, ?_, ?_, ?_⟩
    · rw [hheard, ← List.append_assoc, ← h.heard]
      exact htold
    · rw [hrequests, ← List.append_assoc, ← h.requests]
      exact hwrites.requests
    · rw [hheard, hrequests]
      intro told hmem request hrequest
      rcases List.mem_append.1 hmem with hbefore | hnew
      · exact List.mem_append_left _ (h.answered told hbefore request hrequest)
      · cases List.mem_singleton.1 hnew
        exact List.mem_append_left _ (hanswered request hrequest)

/-- **Time passes.** -/
theorem elapse (hx : (Exchange.new settings factory).run earlier = some x)
    (h : RunsAlone settings factory order x moves y) (hrun : x.run moves = some y) {span : Duration}
    (happly : y.apply (.elapse span) = some z) :
    RunsAlone settings factory order x (moves ++ [.elapse span]) z := by
  obtain ⟨p, s, hcalls, hshows, hkeeps⟩ := h.calls
  have hmover : y.mover? (.elapse span) ≠ some x.calls.length := by simp [Exchange.mover?]
  have hrecord := Exchange.recordOf_concat_of_not_mover hrun happly hmover
  have hheard : x.heardBy x.calls.length (moves ++ [.elapse span]) = x.heardBy x.calls.length moves :=
    congrArg CallRecord.heard hrecord
  have hrequests : x.requestsOf x.calls.length (moves ++ [.elapse span]) = x.requestsOf x.calls.length moves :=
    congrArg CallRecord.requests hrecord
  cases Option.some.inj happly
  have hleaves := leavesSession_of_shows hx hcalls hshows hkeeps
  refine ⟨h.accompanies.others hx hrun happly hleaves hmover, ⟨p, s, hcalls, hshows, hkeeps⟩, ?_, ?_, ?_⟩
  · rw [hheard]
    exact h.heard
  · rw [hrequests]
    exact h.requests
  · rw [hheard, hrequests]
    exact h.answered

/-- **The induction over runs.** -/
theorem of_run {demand : Demand} {later : List Move} (horder : demand.order? = some order)
    (hx : (Exchange.new settings factory).run earlier = some x) (hy : x.run (.start demand :: later) = some y)
    (halone : ∀ m ∈ later, m.GoesOn x.calls.length) :
    RunsAlone settings factory order x (.start demand :: later) y := by
  induction hy using Exchange.run_cons_induct with
  | head hbegin => exact begin hx horder hbegin
  | @snoc later m y z hrun hlast ih =>
    have hbefore := ih fun m hm => halone m (List.mem_append_left _ hm)
    cases halone m (List.mem_append_right _ List.mem_cons_self) with
    | resume answers => exact own hx hbefore hrun hlast
    | elapse span => exact elapse hx hbefore hrun hlast

end RunsAlone

/-! ## A query by itself -/

/-- What was committed and is returned of a transaction on which an operation ran its statements. -/
theorem TransactsOn.grammatical {settings : Settings} {factory : ClientFactory} {order : OperationOrder} {r : Relay}
    {session : SessionHandle} {o : Opening} {c : Course} {outcome : TransactionRun.Outcome}
    (h : TransactsOn settings factory order r session o c) (hprogress : c.progress = .finished outcome) :
    (∃ maxRetries, Grammatical session order.statements maxRetries
        (c.heard.filter fun call => call.request?.isSome) outcome) ∧
      ∀ results, outcome = .ok results → results.map QueryResult.statement = order.statements := by
  obtain ⟨q, script, n, htracked, rfl⟩ := h.exists_course
  have horderly : ((Course.begin q session order.statements order.options.substrings).under script n).Orderly
      q.settings.retry (q.nextRun session order.statements order.options.substrings) True :=
    .under htracked order.statements order.options.substrings script (.inl trivial) n
  have hending := horderly.follows
  rw [hprogress] at hending
  refine ⟨⟨_, Ending.grammatical hending⟩, ?_⟩
  rintro results rfl
  exact Ending.statements_eq hending

/-- What a query by itself amounts to. -/
structure QueryReturns (x y : Exchange) (statement : Statement) (outcome : Except Failure QueryResult) : Prop where
  /-- The tracked sessions are as before. -/
  sessions : y.relay.sessionSide.sessions = x.relay.sessionSide.sessions
  /-- The statement is committed, once, if there is a result; otherwise nothing is. -/
  committed : ∃ heard, y.heard = x.heard ++ heard ∧ ∀ log : CommitLog, (log.after heard).committed =
    log.committed ++ if outcome.isOk then [[statement]] else []
  /-- The statement is sent as often as it is tried, and no other is sent. -/
  sent : ∃ asked n, y.relay.requests = x.relay.requests ++ asked ∧
    asked.filterMap Request.statement? = List.replicate n statement
  /-- The result is that of the statement. -/
  result : ∀ result, outcome = .ok result → result.statement = statement

namespace QueryReturns

variable {settings : Settings} {factory : ClientFactory} {x y : Exchange} {moves : List Move} {config : ExecutorConfig}
  {statement : Statement} {options : OperationOptions}
  (hkept : y.relay.sessionSide.sessions = x.relay.sessionSide.sessions)
  (hrun : RunsAlone settings factory (queryOrder config statement options) x moves y)

include hkept hrun

/-- A query that got no session has heard nothing of its statement, and has not sent it. -/
theorem of_refused {failure : Failure}
    (hgot : GotNoSession settings factory (queryOrder config statement options) x moves failure) :
    QueryReturns x y statement (.error failure) where
  sessions := hkept
  committed := by
    refine ⟨_, hrun.heard, fun log => (log.committed_after_of_not fun h hmem => ?_).trans (List.append_nil _).symm⟩
    refine Bool.eq_false_iff.2 fun hcommitted => ?_
    obtain ⟨remote, hrequest⟩ := h.exists_commit_of_isCommitted hcommitted
    obtain ⟨o, ho⟩ := hgot.requests _ (hrun.answered h hmem _ hrequest)
    exact absurd ho (by simp [Opening.request])
  sent := by
    refine ⟨_, 0, hrun.requests, List.filterMap_eq_nil_iff.2 fun request hmem => ?_⟩
    obtain ⟨o, rfl⟩ := hgot.requests request hmem
    rfl
  result := fun result hresult => absurd hresult (by simp)

/-- Around its transaction, a query opens its session and closes it. -/
theorem of_released {session : SessionHandle} {outcome : TransactionRun.Outcome}
    (hreleased : ReleasedSession settings factory (queryOrder config statement options) x moves y session outcome) :
    QueryReturns x y statement (lastResult statement outcome) := by
  obtain ⟨o, c, closing, reply, htransacts, hprogress, -, hheard, hrequests⟩ := hreleased.course
  obtain ⟨⟨maxRetries, hgrammatical⟩, hresults⟩ := htransacts.grammatical hprogress
  have hafter : ∀ log : CommitLog, log.after (x.heardBy x.calls.length moves) =
      log.after (c.heard.filter fun call => call.request?.isSome) := by
    intro log
    rw [hheard, List.cons_append, log.after_cons, CommitLog.after_append, log.after_filter_request]
    rfl
  have hsent : (x.requestsOf x.calls.length moves).filterMap Request.statement? =
      (c.heard.filter fun call => call.request?.isSome).filterMap Heard.statement? := by
    rw [hrequests, htransacts.sent_eq, hprogress, sent_filter_request, TransactionRun.awaited, List.append_nil,
      List.cons_append, List.filterMap_cons_none (by rfl), List.filterMap_append, List.filterMap_filterMap]
    exact List.append_nil _
  have hsame : (x.requestsOf x.calls.length moves).filterMap Request.statement? =
      List.replicate ((x.requestsOf x.calls.length moves).filterMap Request.statement?).length statement := by
    refine List.eq_replicate_of_mem fun other hother => ?_
    rw [hsent] at hother
    exact List.mem_singleton.1 (hgrammatical.sent_subset hother)
  cases outcome with
  | error failure =>
    refine ⟨hkept, ⟨_, hrun.heard, fun log => ?_⟩, ⟨_, _, hrun.requests, hsame⟩,
      fun result hresult => absurd hresult (by simp [lastResult])⟩
    rw [hafter, hgrammatical.committed_of_error]
    exact (List.append_nil _).symm
  | ok results =>
    obtain ⟨result, rfl, hresult⟩ := List.map_eq_singleton_iff.1 (hresults results rfl)
    refine ⟨hkept, ⟨_, hrun.heard, fun log => ?_⟩, ⟨_, _, hrun.requests, hsame⟩, ?_⟩
    · rw [hafter, hgrammatical.committed_of_ok]
      rfl
    · rintro other hother
      cases Except.ok.inj hother
      exact hresult

end QueryReturns

/-- **A query by itself** leaves the sessions as they were, and commits its statement exactly if it returns a result. -/
theorem query_alone {settings : Settings} {factory : ClientFactory} {earlier later : List Move} {x y : Exchange}
    {config : ExecutorConfig} {statement : Statement} {options : OperationOptions}
    {outcome : Except Failure QueryResult} (hx : (Exchange.new settings factory).run earlier = some x)
    (hy : x.run (.start (.query config statement options) :: later) = some y)
    (halone : ∀ m ∈ later, m.GoesOn x.calls.length)
    (hdone : y.calls[x.calls.length]? = some (.finished (.result outcome))) : QueryReturns x y statement outcome := by
  have horder : (Demand.query config statement options).order? = some (queryOrder config statement options) := rfl
  have hrun := RunsAlone.of_run horder hx hy halone
  have hkept : y.relay.sessionSide.sessions = x.relay.sessionSide.sessions := by
    obtain ⟨p, s, hcalls, hshows, hkeeps⟩ := hrun.calls
    rw [hcalls, List.getElem?_concat_length] at hdone
    cases Option.some.inj hdone
    cases hshows
    exact hkeeps
  obtain ⟨outcome', hresult, -, hsession⟩ := hrun.accompanies.returns hx hy hdone
  cases CallResult.result.inj hresult
  rcases hsession with ⟨failure, rfl, hgot⟩ | ⟨session, hreleased⟩
  · exact .of_refused hkept hrun hgot
  · exact .of_released hkept hrun hreleased

end QueryRelay
