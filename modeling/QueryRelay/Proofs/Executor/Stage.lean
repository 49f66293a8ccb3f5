import QueryRelay.Proofs.Executor.Report
import QueryRelay.Proofs.Session.Keeping
import QueryRelay.Proofs.Session.Reporting
import QueryRelay.Proofs.Session.Since
import QueryRelay.Proofs.Transaction.Course

/-!
# The stages of an operation

An operation waits for its session, then with the run of its transaction, and then for the end of its session; in the
end it has the outcome of that run, or the failure to open a session.  At each stage it is known what the operation has
heard, asked for and reported so far, and what it owes: a session that it holds is to be handed back.

* `OperationOrder` — what operations are asked for, in the two forms in which they give their results.
* `Custody` — how an operation has to do with a session; `Custody.At` says what holds of the session then.
* `Stage` — where an operation stands, with the record of what it did and the session in its custody.
* `Stage.begin`, `Stage.resume` — **an operation goes from stage to stage**, and writes to the log what its record says.
-/

namespace QueryRelay

/-! ## Operations as calls -/

/-- How an operation gives its results: all of them, or that of its one statement. -/
inductive OperationForm where
  | several
  | single (statement : Statement)

namespace OperationForm

/-- The call that waits where an operation waits. -/
def point : OperationForm → Operation → Call
  | several, o => .operating o
  | single statement, o => .query ⟨statement, o⟩

/-- What the caller is given of an outcome. -/
def result : OperationForm → TransactionRun.Outcome → CallResult
  | several, outcome => .results outcome
  | single statement, outcome => .result (lastResult statement outcome)

theorem errand_point (form : OperationForm) (o : Operation) : (form.point o).errand = o.errand := by
  cases form <;> rfl

theorem lift_ofOperation (statement : Statement) (s : Relay × Progress Operation TransactionRun.Outcome) :
    Call.lift .query .result (Query.ofOperation statement s) =
      Call.lift (point (.single statement)) (result (.single statement)) s := by
  obtain ⟨r, p⟩ := s
  cases p <;> rfl

/-- The call goes on as the operation does. -/
theorem resume_point (form : OperationForm) (o : Operation) (answers : Answers) (r : Relay) :
    (form.point o).resume (answers (form.point o).wait) r =
      Call.lift form.point form.result (o.resume (answers o.wait) r) := by
  cases form with
  | several => rfl
  | single statement => exact lift_ofOperation statement _

theorem heard_point (form : OperationForm) (o : Operation) (answers : Answers) :
    (⟨(form.point o).wait, answers (form.point o).wait⟩ : Heard) = ⟨o.wait, answers o.wait⟩ := by
  cases form <;> rfl

end OperationForm

/-- What an operation is asked to do. -/
structure OperationOrder where
  form : OperationForm
  kind : OperationKind
  /-- The database of operations that do not name one. -/
  configured : Option String
  statements : List Statement
  options : OperationOptions

namespace OperationOrder

/-- What stays the same through an operation that begins at some moment. -/
def frame (order : OperationOrder) (now : Instant) : OperationFrame :=
  ⟨order.kind, order.options.database <|> order.configured, order.statements, order.options.substrings, now⟩

/-- Begins the operation. -/
def start (order : OperationOrder) (r : Relay) : Relay × Progress Operation TransactionRun.Outcome :=
  Operation.start r order.kind order.configured order.statements order.options

end OperationOrder

/-- The query that a statement is run as. -/
def queryOrder (config : ExecutorConfig) (statement : Statement) (options : OperationOptions) : OperationOrder :=
  ⟨.single statement, .query, config.database, [statement], options⟩

/-- The operation that a demand asks for.  A job is the query of its statement. -/
def Demand.order? : Demand → Option OperationOrder
  | query config statement options => some (queryOrder config statement options)
  | job config work => some (queryOrder config (work.statement config) work.options)
  | operate config statements options => some ⟨.several, .transaction, config.database, statements, options⟩
  | _ => none

theorem Demand.start_of_order {demand : Demand} {order : OperationOrder} (h : demand.order? = some order) (r : Relay) :
    demand.start r = Call.lift order.form.point order.form.result (order.start r) := by
  cases demand with
  | query config statement options =>
    cases Option.some.inj h
    exact OperationForm.lift_ofOperation statement _
  | job config work =>
    cases Option.some.inj h
    rw [start_job]
    exact OperationForm.lift_ofOperation (work.statement config) _
  | operate config statements options =>
    cases Option.some.inj h
    rfl
  | _ => exact absurd h (by simp [order?])

/-- The session in whose transaction an operation waits. -/
def Operation.session? : Operation → Option SessionHandle
  | .transacting _ session _ => some session
  | _ => none

/-- The session in whose transaction a call waits. -/
def Call.session? : Call → Option SessionHandle
  | .query q => q.operation.session?
  | .operating o => o.session?
  | _ => none

theorem OperationForm.session?_point (form : OperationForm) (o : Operation) : (form.point o).session? = o.session? := by
  cases form <;> rfl

theorem Operation.errand_of_session? {o : Operation} {session : SessionHandle} (h : o.session? = some session) :
    ∃ run, o.errand = .transacting run := by
  cases o with
  | transacting f session run => exact ⟨run, rfl⟩
  | _ => exact absurd h (by simp [session?])

/-- A call that waits in the transaction on a session waits with a run. -/
theorem Call.errand_of_session? {call : Call} {session : SessionHandle} (h : call.session? = some session) :
    ∃ run, call.errand = .transacting run := by
  cases call with
  | query q => exact Operation.errand_of_session? h
  | operating o => exact Operation.errand_of_session? h
  | _ => exact absurd h (by simp [session?])

/-! ## Courses of transactions -/

namespace Course

variable {c : Course}

/-- At its beginning a run has asked for what it waits for. -/
theorem begin_sent {r : Relay} {session : SessionHandle} {statements : List Statement}
    {substrings : Option (List String)} (h : r.registry.isTracked session.id = true) :
    (begin r session statements substrings).sent =
      TransactionRun.awaited (TransactionRun.start r session statements substrings).2 := by
  rw [begin, (TransactionRun.start_step h statements substrings).requests, List.drop_left]

/-- Whatever the relay is when a run goes on, there is a turn that goes on there, if the settings are the same. -/
theorem exists_turn {run : TransactionRun} (h : c.progress = .waiting run) (answers : Answers) {q : Relay}
    (hsettings : q.settings = c.relay.settings) :
    ∃ u : Turn, c.turn u =
      { relay := (run.resume (answers run.wait) q).1
        progress := (run.resume (answers run.wait) q).2
        heard := c.heard ++ [⟨run.wait, answers run.wait⟩]
        sent := c.sent ++ TransactionRun.awaited (run.resume (answers run.wait) q).2 } := by
  refine ⟨⟨answers, fun r => { q with settings := r.settings }, fun _ => rfl⟩, ?_⟩
  have hsame : { q with settings := c.relay.settings } = q := by rw [← hsettings]
  rw [turn_of_waiting h]
  dsimp only
  rw [hsame]

/-- Only the turns that are taken matter. -/
theorem under_congr {script other : Script} {n : Nat} (h : ∀ k < n, script k = other k) :
    c.under script n = c.under other n := by
  induction n with
  | zero => rfl
  | succ n ih =>
    rw [under, under, ih fun k hk => h k (Nat.lt_succ_of_lt hk), h n (Nat.lt_succ_self n)]

/-- What comes of some turns and one more comes of a script. -/
theorem exists_under_succ (c : Course) (script : Script) (n : Nat) (u : Turn) :
    ∃ script' : Script, c.under script' (n + 1) = (c.under script n).turn u := by
  refine ⟨fun k => if k = n then u else script k, ?_⟩
  have hsame : ∀ k < n, (if k = n then u else script k) = script k := fun k hk => if_neg (Nat.ne_of_lt hk)
  rw [under, if_pos rfl, under_congr hsame]

end Course

/-- What a run waits for is not about the session as such. -/
theorem TransactionRun.awaited_concernsSessions (progress : Progress TransactionRun Outcome) :
    ∀ request ∈ awaited progress, request.concernsSessions = false := by
  intro request hrequest
  cases progress with
  | finished outcome => exact absurd hrequest List.not_mem_nil
  | waiting run =>
    have hwait : run.wait.request? = some request := Option.mem_toList.1 hrequest
    cases run <;> cases hwait <;> rfl

/-- On a relay, an operation has opened a session through some opening, and its transaction has come so far on that
session. -/
structure TransactsOn (settings : Settings) (factory : ClientFactory) (order : OperationOrder) (r : Relay)
    (session : SessionHandle) (o : Opening) (c : Course) : Prop where
  begun : ∃ r', Opening.start r (order.frame r.now).database order.options.session = (r', .waiting o)
  /-- The session was opened in a course of its own, and the transaction begins where that course ends. -/
  opened : ∃ (opening : OpeningCourse) (stride : Stride) (script : Script) (n : Nat),
    opening.IsOf settings factory (order.frame r.now).database order.options.session ∧ opening.begun.before = r ∧
      opening.outcome = .ok session ∧ opening.answered? = some (.ok session.remote, stride) ∧
      c = (Course.begin stride.after session order.statements order.options.substrings).under script n
  settings : c.relay.settings = settings
  /-- The transaction itself neither opens nor closes sessions. -/
  sent : ∀ request ∈ c.sent, request.concernsSessions = false

/-- The beginning of the transaction, on a session that was just opened. -/
theorem TransactsOn.begin {settings : Settings} {factory : ClientFactory} {order : OperationOrder} {r r' : Relay}
    {session : SessionHandle} {o : Opening} {opening : OpeningCourse} {stride : Stride}
    (hstart : Opening.start r (order.frame r.now).database order.options.session = (r', .waiting o))
    (hopening : opening.IsOf settings factory (order.frame r.now).database order.options.session)
    (hbefore : opening.begun.before = r) (hok : opening.outcome = .ok session)
    (hanswered : opening.answered? = some (.ok session.remote, stride))
    (htracked : stride.after.registry.isTracked session.id = true) (hsettings : stride.after.settings = settings) :
    TransactsOn settings factory order r session o
      (Course.begin stride.after session order.statements order.options.substrings) where
  begun := ⟨r', hstart⟩
  opened :=
    ⟨opening, stride, fun _ => { answers := .granting 0 }, 0, hopening, hbefore, hok, hanswered, rfl⟩
  settings := (TransactionRun.start_step htracked _ _).settings.trans hsettings
  sent := by
    rw [Course.begin_sent htracked]
    exact TransactionRun.awaited_concernsSessions _

/-- A turn of the transaction. -/
theorem TransactsOn.turn {settings : Settings} {factory : ClientFactory} {order : OperationOrder} {r : Relay}
    {session : SessionHandle} {o : Opening} {c : Course} {run : TransactionRun}
    (h : TransactsOn settings factory order r session o c) (hrun : c.progress = .waiting run) (u : Turn) :
    TransactsOn settings factory order r session o (c.turn u) where
  begun := h.begun
  opened := by
    obtain ⟨opening, stride, script, n, hopening, hbefore, hok, hanswered, rfl⟩ := h.opened
    obtain ⟨script', hscript'⟩ := Course.exists_under_succ _ script n u
    exact ⟨opening, stride, script', n + 1, hopening, hbefore, hok, hanswered, hscript'.symm⟩
  settings := by
    rw [Course.turn_of_waiting hrun]
    exact (TransactionRun.resume_step _ run _).settings.trans ((u.settings_others _).trans h.settings)
  sent := by
    rw [Course.turn_of_waiting hrun]
    intro request hrequest
    rcases List.mem_append.1 hrequest with hbefore | hnew
    · exact h.sent request hbefore
    · exact TransactionRun.awaited_concernsSessions _ request hnew

/-! ## Custody -/

/-- How an operation has to do with a session. -/
inductive Custody where
  | nothing
  /-- It holds a session. -/
  | holding (session : SessionHandle)
  /-- It has asked the engine to close its session. -/
  | closing (session : SessionHandle)
  /-- Its session is closed. -/
  | closed (session : SessionHandle)

/-- The session in custody. -/
def Custody.session? : Custody → Option SessionHandle
  | nothing => none
  | holding session => some session
  | closing session => some session
  | closed session => some session

/-- In a step that begins here the session in custody stays the same, or it is the next one to be opened. -/
def Custody.Follows (s : SessionSide) (before after : Custody) : Prop :=
  ∀ session, after.session? = some session → before.session? = some session ∨ session.id.serial = s.nextSerial

/-- What holds of the session in custody. -/
def Custody.At (s : SessionSide) : Custody → Prop
  | nothing => True
  | holding session => session.id.serial < s.nextSerial ∧ ⟨session.id, session.remote, .live⟩ ∈ s.sessions
  | closing session => session.id.serial < s.nextSerial ∧ 1 ≤ closeRequests session.remote s.log
  | closed session =>
    session.id.serial < s.nextSerial ∧ 1 ≤ closeRequests session.remote s.log ∧ ∀ phase, ¬s.InPhase session.id phase

/-! ## Stages -/

/-- What a call did so far, and the moment when it last did something. -/
structure CallRecord where
  heard : List Heard := []
  requests : List Request := []
  reports : List Emission := []
  last : Option Instant := none

/-- A record with one step more. -/
def CallRecord.andThen (record : CallRecord) (told : List Heard) (asked : List Request) (reported : List Emission)
    (now : Instant) : CallRecord :=
  ⟨record.heard ++ told, record.requests ++ asked, record.reports ++ reported, some now⟩

/-- What a call was told when its session was opened. -/
def Opening.told (o : Opening) (reply : Except Failure RemoteSession) : Heard := ⟨o.wait, reply⟩

/-- What a call was told when its session was closed. -/
def Closing.told (c : Closing) (reply : Except Failure Unit) : Heard := ⟨c.wait, reply⟩

/-- The stages of an operation that was begun on some relay: what it did so far, the session in its custody, and how
the call stands. -/
inductive Stage (settings : Settings) (factory : ClientFactory) (order : OperationOrder) (r : Relay) :
    CallRecord → Custody → Standing → Prop
  | opening {r' : Relay} {o : Opening} {last : Option Instant} {since : Instant} :
    Opening.start r (order.frame r.now).database order.options.session = (r', .waiting o) →
    Stage settings factory order r ⟨[], [o.request], [], last⟩ .nothing
      (.waiting (order.form.point (.opening (order.frame r.now) o)) since)
  | transacting {session : SessionHandle} {o : Opening} {c : Course} {run : TransactionRun} {last : Option Instant}
      {since : Instant} :
    TransactsOn settings factory order r session o c → c.progress = .waiting run →
    Stage settings factory order r ⟨o.told (.ok session.remote) :: c.heard, o.request :: c.sent, [], last⟩
      (.holding session) (.waiting (order.form.point (.transacting (order.frame r.now) session run)) since)
  | releasing {session : SessionHandle} {o : Opening} {c : Course} {outcome : TransactionRun.Outcome}
      {closing : Closing} {last : Option Instant} {since : Instant} :
    TransactsOn settings factory order r session o c → c.progress = .finished outcome →
    closing.id = session.id → closing.remote = session.remote →
    Stage settings factory order r
      ⟨o.told (.ok session.remote) :: c.heard, o.request :: c.sent ++ [.closeSession session.remote], [], last⟩
      (.closing session) (.waiting (order.form.point (.releasing (order.frame r.now) closing outcome)) since)
  | released {session : SessionHandle} {o : Opening} {c : Course} {outcome : TransactionRun.Outcome} {closing : Closing}
      {ended : Instant} (reply : Except Failure Unit) :
    TransactsOn settings factory order r session o c → c.progress = .finished outcome →
    closing.remote = session.remote →
    Stage settings factory order r
      ⟨o.told (.ok session.remote) :: c.heard ++ [closing.told reply],
        o.request :: c.sent ++ [.closeSession session.remote], (order.frame r.now).reports ended outcome, some ended⟩
      (.closed session) (.finished (order.form.result outcome))
  | refused {opening : OpeningCourse} {failure : Failure} {heard : List Heard} {requests : List Request}
      {ended : Instant} :
    opening.IsOf settings factory (order.frame r.now).database order.options.session → opening.begun.before = r →
    opening.outcome = .error failure → (∀ request ∈ requests, ∃ o : Opening, request = o.request) →
    Stage settings factory order r ⟨heard, requests, (order.frame r.now).reports ended (.error failure), some ended⟩
      .nothing (.finished (order.form.result (.error failure)))
  | dropped {record : CallRecord} : Stage settings factory order r record .nothing .dropped

section Steps

variable {settings : Settings} {factory : ClientFactory} {order : OperationOrder} {r : Relay}

/-- A step of an operation leads to a stage: with what it was told, and what was written from one relay to the other. -/
def LeadsToStage (settings : Settings) (factory : ClientFactory) (order : OperationOrder) (r : Relay)
    (record : CallRecord) (before : Custody) (told : List Heard) (q : Relay)
    (s : Relay × Progress Operation TransactionRun.Outcome) : Prop :=
  ∃ asked reported custody, Writes asked reported q s.1 ∧ custody.At s.1.sessionSide ∧
    before.Follows q.sessionSide custody ∧
    Stage settings factory order r (record.andThen told asked reported s.1.now) custody
      (.after (Call.lift order.form.point order.form.result s))

theorem Custody.follows_nothing {s : SessionSide} {before : Custody} : before.Follows s .nothing :=
  fun _ h => absurd h (by simp [session?])

theorem Operation.finish_now (f : OperationFrame) (outcome : TransactionRun.Outcome) (q : Relay) :
    (finish f outcome q).1.now = q.now := by
  cases outcome <;> rfl

/-- What becomes of a call whose operation ends. -/
theorem Operation.after_finish (order : OperationOrder) (f : OperationFrame) (outcome : TransactionRun.Outcome)
    (q : Relay) : Standing.after (Call.lift order.form.point order.form.result (finish f outcome q)) =
      .finished (order.form.result outcome) := by
  cases outcome <;> rfl

/-- **The failure to open a session** is the outcome, and nothing else is done. -/
theorem leadsToStage_refused {opening : OpeningCourse} {failure : Failure} {record : CallRecord} {before : Custody}
    {told : List Heard} {q q' : Relay}
    (hopening : opening.IsOf settings factory (order.frame r.now).database order.options.session)
    (hbefore : opening.begun.before = r) (hfailed : opening.outcome = .error failure)
    (hrequests : ∀ request ∈ record.requests, ∃ o : Opening, request = o.request) (hreports : record.reports = [])
    (hwrites : Writes [] [] q q') :
    LeadsToStage settings factory order r record before told q
      (Operation.finish (order.frame r.now) (.error failure) q') := by
  refine ⟨[], _, .nothing, hwrites.trans (Operation.finish_writes _ _ q'), trivial, Custody.follows_nothing, ?_⟩
  rw [Operation.after_finish, Operation.finish_now, CallRecord.andThen, hreports, List.append_nil]
  exact .refused hopening hbefore hfailed hrequests

/-- **The session is released** when the transaction is over: the engine is asked to close it. -/
theorem exists_release (f : OperationFrame) {session : SessionHandle} (outcome : TransactionRun.Outcome) {q : Relay}
    (h : (Custody.holding session).At q.sessionSide) :
    ∃ (q' : Relay) (c : Closing), Operation.release f session outcome q = (q', .waiting (.releasing f c outcome)) ∧
      c.id = session.id ∧ c.remote = session.remote ∧ Writes [.closeSession session.remote] [] q q' ∧
      (Custody.closing session).At q'.sessionSide := by
  obtain ⟨hknown, hlive⟩ := h
  rw [← q.sessionSide_markIdle session] at hlive
  obtain ⟨database, hstart⟩ := Closing.start_of_mem_live hlive
  have hlog : (Closing.start (q.markIdle session).1 session.id).1.log =
      q.log ++ [.requested (.closeSession session.remote)] := by
    rw [hstart, ← q.log_markIdle session]
    rfl
  refine ⟨(Closing.start (q.markIdle session).1 session.id).1, ⟨session.id, session.remote, database⟩, ?_, rfl, rfl,
    .ask _ hlog, ?_, ?_⟩
  · rw [Operation.release, hstart]
  · have hserial : (Closing.start (q.markIdle session).1 session.id).1.sessionSide.nextSerial =
        q.sessionSide.nextSerial := by
      rw [hstart, ← q.sessionSide_markIdle session]
      rfl
    rw [hserial]
    exact hknown
  · rw [Relay.sessionSide, closeRequests_filter, hlog, closeRequests_append, closeRequests_closeSession, if_pos rfl]
    exact Nat.le_add_left _ _

/-- **An operation with its session** goes on with the transaction, or releases the session. -/
theorem leadsToStage_ofRun {session : SessionHandle} {o : Opening} {c : Course} {record : CallRecord}
    {before : Custody} {told : List Heard} {asked : List Request} {q : Relay}
    (h : TransactsOn settings factory order r session o c)
    (hsession : (Custody.holding session).At c.relay.sessionSide)
    (hfollows : before.Follows q.sessionSide (.holding session)) (hwrites : Writes asked [] q c.relay)
    (hheard : record.heard ++ told = o.told (.ok session.remote) :: c.heard)
    (hrequests : record.requests ++ asked = o.request :: c.sent) (hreports : record.reports = []) :
    LeadsToStage settings factory order r record before told q
      (Operation.ofRun (order.frame r.now) session (c.relay, c.progress)) := by
  cases hprogress : c.progress with
  | waiting run =>
    refine ⟨asked, [], _, hwrites, hsession, hfollows, ?_⟩
    rw [CallRecord.andThen, hheard, hrequests, hreports]
    exact .transacting h hprogress
  | finished outcome =>
    obtain ⟨q', closing, hrelease, hid, hremote, hasked, hclosing⟩ :=
      exists_release (order.frame r.now) outcome hsession
    refine ⟨asked ++ [.closeSession session.remote], [], .closing session, ?_, ?_, hfollows, ?_⟩
    · rw [Operation.ofRun, hrelease]
      exact hwrites.trans hasked
    · rw [Operation.ofRun, hrelease]
      exact hclosing
    · rw [Operation.ofRun, hrelease, CallRecord.andThen, hheard, ← List.append_assoc, hrequests, hreports]
      exact .releasing h hprogress hid hremote

/-! ### Beginning and going on -/

/-- How an operation begins depends on how its opening begins. -/
theorem OperationOrder.start_of_opening {r' : Relay} {progress : Progress Opening (Except Failure SessionHandle)}
    (h : Opening.start r (order.frame r.now).database order.options.session = (r', progress)) :
    (∀ o, progress = .waiting o → order.start r = (r', .waiting (.opening (order.frame r.now) o))) ∧
      ∀ outcome, progress = .finished outcome →
        order.start r = Operation.ofOpening (order.frame r.now) (r', outcome) := by
  have hopening : Opening.start r (order.options.database <|> order.configured) order.options.session =
      (r', progress) := h
  refine ⟨fun o ho => ?_, fun outcome houtcome => ?_⟩
  · simp only [start, Operation.start, hopening, ho]
    rfl
  · simp only [start, Operation.start, hopening, houtcome]
    rfl

/-- **An operation begins** by opening a session. -/
theorem Stage.begin (settings : Settings) (factory : ClientFactory) (order : OperationOrder) (r : Relay) :
    LeadsToStage settings factory order r {} .nothing [] r (order.start r) := by
  have hwrites := @Opening.start_writes (order.frame r.now).database order.options.session r
  rcases hopening : Opening.start r (order.frame r.now).database order.options.session with ⟨r', progress⟩
  obtain ⟨hwaiting, hfinished⟩ := OperationOrder.start_of_opening hopening
  rw [hopening] at hwrites
  cases progress with
  | waiting o =>
    rw [hwaiting o rfl]
    exact ⟨_, _, .nothing, hwrites, trivial, Custody.follows_nothing, .opening hopening⟩
  | finished outcome =>
    rw [hfinished outcome rfl]
    have hcourse : OpeningCourse.IsOf settings factory (order.frame r.now).database order.options.session
        ⟨⟨r, r'⟩, none, outcome⟩ := .atOnce hopening
    cases outcome with
    | ok session =>
      -- Nobody has a session at once.
      obtain ⟨_, hanswered, -⟩ := hcourse.reportsOnce.tracked session rfl
      exact absurd hanswered (by simp)
    | error failure =>
      exact leadsToStage_refused hcourse rfl rfl (fun _ hmem => absurd hmem List.not_mem_nil) rfl hwrites

/-- A session in outline is tracked. -/
theorem Relay.isTracked_of_mem {q : Relay} {outline : SessionOutline} (h : outline ∈ q.sessionSide.sessions) :
    q.registry.isTracked outline.id = true := by
  obtain ⟨t, hget, -, -⟩ := Registry.mem_outline.1 h
  rw [Registry.isTracked, Table.contains, hget]
  rfl

/-- A session that is in no phase is not tracked. -/
theorem Relay.isTracked_eq_false {q : Relay} {id : SessionId} (h : ∀ phase, ¬q.sessionSide.InPhase id phase) :
    q.registry.isTracked id = false := by
  cases hget : q.registry.sessions.get? id with
  | none => rw [Registry.isTracked, Table.contains, hget]; rfl
  | some t => exact absurd ⟨⟨id, t.remote, _⟩, Registry.mem_outline.2 ⟨t, hget, rfl, rfl⟩, rfl, rfl⟩ (h _)

/-- Who was told that its session was opened holds it. -/
theorem holding_of_resume (o : Opening) (remote : RemoteSession) (q : Relay) :
    (Custody.holding (q.registry.track o.database remote q.now).2).At (o.resume (.ok remote) q).1.sessionSide := by
  rw [Opening.resume_side]
  exact ⟨Nat.lt_succ_self _, q.sessionSide.mem_sessions_track o remote⟩

/-- **The engine opened the session**: the transaction begins. -/
theorem leadsToStage_opened {o : Opening} {r' : Relay} {moves : List Move} {x : Exchange} {i : Nat} {call : Call}
    {since : Instant} {last : Option Instant}
    (hstart : Opening.start r (order.frame r.now).database order.options.session = (r', .waiting o))
    (hx : (Exchange.new settings factory).run moves = some x) (hcall : x.calls[i]? = some (.waiting call since))
    (herrand : call.errand = .opening o) (remote : RemoteSession) :
    LeadsToStage settings factory order r ⟨[], [o.request], [], last⟩ .nothing [o.told (.ok remote)] x.relay
      (Operation.ofOpening (order.frame r.now) (o.resume (.ok remote) x.relay)) := by
  have hcourse : OpeningCourse.IsOf settings factory (order.frame r.now).database order.options.session _ :=
    .answered (.ok remote) hstart hx hcall herrand
  have hcustody := holding_of_resume o remote x.relay
  have hopened : o.resume (.ok remote) x.relay =
      ((o.resume (.ok remote) x.relay).1, .ok (x.relay.registry.track o.database remote x.relay.now).2) := by
    rw [Opening.resume_ok]
  have hsettings : (o.resume (.ok remote) x.relay).1.settings = settings := by
    rw [Opening.resume_ok]
    exact Exchange.settings_run hx
  have hwrites := o.resume_writes (.ok remote) x.relay
  -- Of the session and of the relay after the answer, only these facts matter.
  generalize (o.resume (.ok remote) x.relay).1 = q at hcourse hcustody hopened hsettings hwrites
  obtain ⟨session, hsession⟩ : ∃ session, (x.relay.registry.track o.database remote x.relay.now).2 = session :=
    ⟨_, rfl⟩
  have hremote : remote = session.remote := by
    rw [← hsession]
    rfl
  have hfollows : Custody.nothing.Follows x.relay.sessionSide (.holding session) := by
    intro held hheld
    cases Option.some.inj hheld
    refine .inr ?_
    rw [← hsession]
    rfl
  rw [hsession] at hcustody hopened
  have htracked := Relay.isTracked_of_mem hcustody.2
  have htransacts : TransactsOn settings factory order r session o
      (Course.begin q session order.statements order.options.substrings) :=
    .begin hstart hcourse rfl (congrArg Prod.snd hopened) (by rw [hremote]) htracked hsettings
  have hcustody' : (Custody.holding session).At
      (Course.begin q session order.statements order.options.substrings).relay.sessionSide := by
    rw [Course.begin, TransactionRun.start_side]
    exact hcustody
  rw [hopened]
  exact leadsToStage_ofRun htransacts hcustody' hfollows
    (hwrites.trans (TransactionRun.start_writes htracked order.statements order.options.substrings))
    (by rw [hremote]; rfl) (by rw [Course.begin_sent htracked]; rfl) rfl

/-- **The answer to an opening**: the transaction begins, or the operation is over. -/
theorem leadsToStage_opening {o : Opening} {r' : Relay} {moves : List Move} {x : Exchange} {i : Nat} {call : Call}
    {since : Instant} {last : Option Instant}
    (hstart : Opening.start r (order.frame r.now).database order.options.session = (r', .waiting o))
    (hx : (Exchange.new settings factory).run moves = some x) (hcall : x.calls[i]? = some (.waiting call since))
    (herrand : call.errand = .opening o) (reply : Except Failure RemoteSession) :
    LeadsToStage settings factory order r ⟨[], [o.request], [], last⟩ .nothing [o.told reply] x.relay
      (Operation.ofOpening (order.frame r.now) (o.resume reply x.relay)) := by
  cases reply with
  | ok remote => exact leadsToStage_opened hstart hx hcall herrand remote
  | error failure =>
    have hcourse : OpeningCourse.IsOf settings factory (order.frame r.now).database order.options.session _ :=
      .answered (.error failure) hstart hx hcall herrand
    have hfailed : (o.resume (.error failure) x.relay).2 = .error failure := by rw [Opening.resume_error]
    have hopening : Operation.ofOpening (order.frame r.now) (o.resume (.error failure) x.relay) =
        Operation.finish (order.frame r.now) (.error failure) (o.resume (.error failure) x.relay).1 := by
      rw [Opening.resume_error]
      rfl
    rw [hopening]
    refine leadsToStage_refused hcourse rfl hfailed (fun request hmem => ⟨o, ?_⟩) rfl (o.resume_writes _ x.relay)
    exact List.mem_singleton.1 hmem

/-- **The answer to the closing** is not part of the outcome: the operation is over, and its session is gone. -/
theorem leadsToStage_released {session : SessionHandle} {o : Opening} {c : Course} {outcome : TransactionRun.Outcome}
    {closing : Closing} {last : Option Instant} {q : Relay}
    (htransacts : TransactsOn settings factory order r session o c) (hprogress : c.progress = .finished outcome)
    (hid : closing.id = session.id) (hremote : closing.remote = session.remote)
    (hcustody : (Custody.closing session).At q.sessionSide) (reply : Except Failure Unit) :
    LeadsToStage settings factory order r
      ⟨o.told (.ok session.remote) :: c.heard, o.request :: c.sent ++ [.closeSession session.remote], [], last⟩
      (.closing session) [closing.told reply] q
      (Operation.finish (order.frame r.now) outcome (closing.resume reply q).1) := by
  obtain ⟨hknown, hasked⟩ := hcustody
  have hside : (Operation.finish (order.frame r.now) outcome (closing.resume reply q).1).1.sessionSide =
      q.sessionSide.endClosing closing reply := by
    rw [Operation.finish_side, Closing.resume_side]
  have hwrites := (closing.resume_writes reply q).trans
    (Operation.finish_writes (order.frame r.now) outcome (closing.resume reply q).1)
  refine ⟨_, _, .closed session, hwrites, ?_, fun _ hheld => .inl hheld, ?_⟩
  · rw [hside]
    refine ⟨hknown, ?_, fun phase hphase => (SessionSide.inPhase_endClosing.1 hphase).1 hid.symm⟩
    rw [SessionSide.endClosing, closeRequests_append]
    exact Nat.le_add_right_of_le hasked
  · rw [Operation.after_finish, Operation.finish_now, CallRecord.andThen]
    simp only [List.append_nil, List.nil_append]
    exact .released reply htransacts hprogress hremote

/-- **A step of an operation that waits** leads to a stage. -/
theorem Stage.resume {record : CallRecord} {custody : Custody} {call : Call} {since : Instant} {moves : List Move}
    {x : Exchange} {i : Nat} (h : Stage settings factory order r record custody (.waiting call since))
    (hx : (Exchange.new settings factory).run moves = some x) (hcall : x.calls[i]? = some (.waiting call since))
    (hcustody : custody.At x.relay.sessionSide) (answers : Answers) :
    ∃ operation, call = order.form.point operation ∧
      LeadsToStage settings factory order r record custody [⟨operation.wait, answers operation.wait⟩] x.relay
        (operation.resume (answers operation.wait) x.relay) := by
  cases h with
  | @opening r' o last since hstart =>
    exact ⟨_, rfl, leadsToStage_opening hstart hx hcall (order.form.errand_point _) (answers o.wait)⟩
  | @transacting session o c run last since htransacts hprogress =>
    have hsettings : x.relay.settings = c.relay.settings := (Exchange.settings_run hx).trans htransacts.settings.symm
    obtain ⟨u, hturn⟩ := Course.exists_turn hprogress answers hsettings
    have hturned := htransacts.turn hprogress u
    have hwrites := run.resume_writes (answers run.wait) (r := x.relay)
    have hside := run.resume_side (answers run.wait) x.relay
    rw [hturn] at hturned
    refine ⟨_, rfl, leadsToStage_ofRun hturned ?_ (fun _ hheld => .inl hheld) hwrites rfl rfl rfl⟩
    rw [hside]
    exact hcustody
  | @releasing session o c outcome closing last since htransacts hprogress hid hremote =>
    exact ⟨_, rfl, leadsToStage_released htransacts hprogress hid hremote hcustody (answers closing.wait)⟩

end Steps

end QueryRelay
