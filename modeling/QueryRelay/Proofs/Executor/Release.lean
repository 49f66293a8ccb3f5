import QueryRelay.Proofs.Exchange.Passage
import QueryRelay.Proofs.Executor.Stage

/-!
# Operations release their sessions

However the calls of an exchange are interleaved, and whatever the engine answers: an operation that returns has handed
back the session that it opened.  It asked the engine to close the session after the last call of its transaction, once;
how the closing went does not show in what it returns; and it reports once how long it took, and once more if it failed.
The session has to be left alone by the others while the transaction lasts: otherwise it may be closed before.

* `Exchange.recordOf` — what one call did in a run.
* `Exchange.LeavesSession` — nobody closes the session of a call while its transaction lasts.
* `Accompanies` — the invariant of the run; `Accompanies.begin`, `Accompanies.own`, `Accompanies.others` are its steps,
  and `Accompanies.returns` is its end.
* `operation_releases_session` — **every operation releases its session and keeps its own result**.
-/

namespace QueryRelay

/-! ## What one call did -/

namespace Exchange

/-- What a call did in some moves. -/
def recordOf (x : Exchange) (i : Nat) (moves : List Move) : CallRecord where
  heard := x.heardBy i moves
  requests := x.requestsOf i moves
  reports := operationReports (x.writtenBy i moves)
  last := (x.passages i moves).getLast?.map fun p => p.after.relay.now

variable {x y z : Exchange} {i : Nat} {moves : List Move} {m : Move}

/-- A move of the call itself. -/
theorem recordOf_concat (hrun : x.run moves = some y) (hlast : y.apply m = some z) (hmover : y.mover? m = some i)
    {told : List Heard} (htold : z.heard = y.heard ++ told) {asked : List Request} {reported : List Emission}
    (hwrites : Writes asked reported y.relay z.relay) :
    x.recordOf i (moves ++ [m]) = (x.recordOf i moves).andThen told asked reported z.relay.now := by
  have hrequests := hwrites.requests
  obtain ⟨written, hlog, -, hreported⟩ := hwrites
  have hpassages := passages_concat (i := i) hrun hlast
  rw [if_pos hmover] at hpassages
  rw [recordOf, heardBy_concat hrun hlast, requestsOf_concat hrun hlast, writtenBy_concat hrun hlast, hpassages,
    if_pos hmover, if_pos hmover, if_pos hmover, htold, List.drop_left, hrequests, List.drop_left, hlog, List.drop_left,
    operationReports_append, hreported, List.getLast?_concat]
  rfl

/-- A move of another call. -/
theorem recordOf_concat_of_not_mover (hrun : x.run moves = some y) (hlast : y.apply m = some z)
    (hmover : y.mover? m ≠ some i) : x.recordOf i (moves ++ [m]) = x.recordOf i moves := by
  have hpassages := passages_concat (i := i) hrun hlast
  rw [if_neg hmover, List.append_nil] at hpassages
  simp only [recordOf, heardBy, requestsOf, writtenBy, hpassages]

/-- Nobody closes the session of a call while it waits in the transaction on it. -/
def LeavesSession (x : Exchange) (i : Nat) : Prop :=
  ∀ call since session, x.calls[i]? = some (.waiting call since) → call.session? = some session →
    ∀ j, ¬x.Closes j session.id

/-- Along some moves, nobody closes the session of a call while it waits in the transaction on it. -/
def LeavesSessionAlong (x : Exchange) (i : Nat) (moves : List Move) : Prop :=
  ∀ before z, before <+: moves → x.run before = some z → z.LeavesSession i

end Exchange

/-! ## The invariant -/

/-- Along some moves, nobody but the call at this place asks the engine to close the session in custody. -/
def Custody.ClosedOnlyBy (x : Exchange) (i : Nat) (moves : List Move) (custody : Custody) : Prop :=
  ∀ session, custody.session? = some session →
    ∀ before z j, before <+: moves → x.run before = some z → z.Closes j session.id → j = i

/-- A call that is an operation is at some stage after some moves, with the session in its custody. -/
structure Accompanies (settings : Settings) (factory : ClientFactory) (order : OperationOrder) (x : Exchange)
    (moves : List Move) (z : Exchange) : Prop where
  stage : ∃ s custody, z.calls[x.calls.length]? = some s ∧ custody.At z.relay.sessionSide ∧
    custody.ClosedOnlyBy x x.calls.length moves ∧
    Stage settings factory order x.relay (x.recordOf x.calls.length moves) custody s

/-- What a stage says of the session in custody is kept by the moves of others. -/
theorem Stage.custody_of_others {settings : Settings} {factory : ClientFactory} {order : OperationOrder} {r : Relay}
    {record : CallRecord} {custody : Custody} {s : Standing} {moves : List Move} {m : Move} {y z : Exchange} {i : Nat}
    (h : Stage settings factory order r record custody s) (hy : (Exchange.new settings factory).run moves = some y)
    (happly : y.apply m = some z) (hs : z.calls[i]? = some s) (hleaves : z.LeavesSession i)
    (hcustody : custody.At y.relay.sessionSide) : custody.At z.relay.sessionSide := by
  have hadvances := Exchange.advances_apply happly
  have hasked : ∀ remote, 1 ≤ closeRequests remote y.relay.sessionSide.log →
      1 ≤ closeRequests remote z.relay.sessionSide.log := fun remote hbefore =>
    (sessionInvariant_asked remote 1).invariant.apply happly hbefore
  cases custody with
  | nothing => trivial
  | holding session =>
    obtain ⟨hknown, hlive⟩ := hcustody
    refine ⟨Nat.lt_of_lt_of_le hknown hadvances.nextSerial, ?_⟩
    cases h with
    | @transacting _ o c run last since _ _ =>
      rcases Exchange.mem_sessions_of_apply hy happly hlive rfl with hstays | ⟨j, hcloses⟩
      · exact hstays
      · exact absurd hcloses (hleaves _ since session hs (order.form.session?_point _) j)
  | closing session =>
    obtain ⟨hknown, hbefore⟩ := hcustody
    exact ⟨Nat.lt_of_lt_of_le hknown hadvances.nextSerial, hasked _ hbefore⟩
  | closed session =>
    obtain ⟨hknown, hbefore, hgone⟩ := hcustody
    exact ⟨Nat.lt_of_lt_of_le hknown hadvances.nextSerial, hasked _ hbefore, hadvances.not_inPhase hknown hgone⟩

/-- At every stage nobody but the operation asks the engine to close the session in its custody. -/
theorem Stage.closes_only {settings : Settings} {factory : ClientFactory} {order : OperationOrder} {r : Relay}
    {record : CallRecord} {custody : Custody} {s : Standing} {z : Exchange} {i : Nat}
    (h : Stage settings factory order r record custody s) (hs : z.calls[i]? = some s) (hleaves : z.LeavesSession i)
    (horderly : Orderly z.relay.sessionSide (sessionErrands z.errands)) (hcustody : custody.At z.relay.sessionSide)
    {session : SessionHandle} (hsession : custody.session? = some session) {j : Nat}
    (hcloses : z.Closes j session.id) : j = i := by
  cases h with
  | transacting htransacts hprogress =>
    cases Option.some.inj hsession
    exact absurd hcloses (hleaves _ _ session hs (order.form.session?_point _) j)
  | releasing htransacts hprogress hid hremote =>
    cases Option.some.inj hsession
    have hself : z.Closes i session.id := ⟨_, _, _, hs, order.form.errand_point _, hid⟩
    exact hself.unique hcloses horderly
  | released reply htransacts hprogress hremote =>
    cases Option.some.inj hsession
    exact absurd (hcloses.inPhase horderly) (hcustody.2.2 .closing)
  | _ => exact absurd hsession (by simp [Custody.session?])

/-- One more move, after which nobody else closes the session either.  A session that is new was not closed before. -/
theorem Custody.ClosedOnlyBy.concat {settings : Settings} {factory : ClientFactory} {x y z : Exchange} {i : Nat}
    {moves earlier : List Move} {m : Move} {custody custody' : Custody} (h : custody.ClosedOnlyBy x i moves)
    (hx : (Exchange.new settings factory).run earlier = some x) (hrun : x.run moves = some y)
    (happly : y.apply m = some z) (hfollows : custody.Follows y.relay.sessionSide custody')
    (hnow : ∀ session, custody'.session? = some session → ∀ j, z.Closes j session.id → j = i) :
    custody'.ClosedOnlyBy x i (moves ++ [m]) := by
  intro session hsession before w j hprefix hw hcloses
  rcases List.prefix_concat_iff.1 hprefix with rfl | hbefore
  · cases Option.some.inj ((Exchange.run_snoc hrun happly).symm.trans hw)
    exact hnow session hsession j hcloses
  · rcases hfollows session hsession with hheld | hnew
    · exact h session hheld before w j hbefore hw hcloses
    · -- The number of a new session had not been given out then, and who closes a session knows its number.
      obtain ⟨rest, rfl⟩ := hbefore
      rw [Exchange.run_append, hw] at hrun
      have hadvances := (Exchange.advances hrun).nextSerial
      obtain ⟨horderly, -⟩ := Exchange.orderly (Exchange.run_trans hx hw)
      obtain ⟨o, ho, hid, -⟩ := hcloses.inPhase horderly
      have hknown := horderly.known o ho
      rw [hid] at hknown
      omega

namespace Accompanies

variable {settings : Settings} {factory : ClientFactory} {order : OperationOrder} {x y z : Exchange}
  {moves earlier : List Move} {m : Move}

/-- One more move, after which the call is at a stage again. -/
theorem concat {custody custody' : Custody} {record : CallRecord} {s : Standing}
    (hx : (Exchange.new settings factory).run earlier = some x) (hrun : x.run moves = some y)
    (happly : y.apply m = some z) (hleaves : z.LeavesSession x.calls.length)
    (honly : custody.ClosedOnlyBy x x.calls.length moves) (hfollows : custody.Follows y.relay.sessionSide custody')
    (hs : z.calls[x.calls.length]? = some s) (hcustody : custody'.At z.relay.sessionSide)
    (hrecord : x.recordOf x.calls.length (moves ++ [m]) = record)
    (hstage : Stage settings factory order x.relay record custody' s) :
    Accompanies settings factory order x (moves ++ [m]) z := by
  have hreached := Exchange.run_trans hx (Exchange.run_snoc hrun happly)
  have hnow : ∀ session, custody'.session? = some session → ∀ j, z.Closes j session.id → j = x.calls.length :=
    fun session hsession j => hstage.closes_only hs hleaves (Exchange.orderly hreached).1 hcustody hsession
  exact ⟨s, custody', hs, hcustody, honly.concat hx hrun happly hfollows hnow, hrecord ▸ hstage⟩

/-- **The beginning of the operation.** -/
theorem begin {demand : Demand} (hx : (Exchange.new settings factory).run earlier = some x)
    (horder : demand.order? = some order) (happly : x.apply (.start demand) = some z)
    (hleaves : z.LeavesSession x.calls.length) : Accompanies settings factory order x [.start demand] z := by
  have hstart := demand.start_of_order horder x.relay
  have hz : z =
      { x with
        relay := (Call.lift order.form.point order.form.result (order.start x.relay)).1
        calls := x.calls ++ [.after (Call.lift order.form.point order.form.result (order.start x.relay))] } := by
    rw [← hstart]
    exact (Option.some.inj happly).symm
  have hnothing : x.run [] = some x := rfl
  have honly : Custody.nothing.ClosedOnlyBy x x.calls.length [] := fun _ hsession =>
    absurd hsession (by simp [Custody.session?])
  obtain ⟨asked, reported, custody, hwrites, hcustody, hfollows, hstage⟩ := Stage.begin settings factory order x.relay
  subst hz
  have hrecord := Exchange.recordOf_concat hnothing happly rfl (List.append_nil _).symm hwrites
  exact concat hx hnothing happly hleaves honly hfollows List.getElem?_concat_length hcustody hrecord hstage

/-- **A move of the operation itself.** -/
theorem own (hx : (Exchange.new settings factory).run earlier = some x)
    (h : Accompanies settings factory order x moves y) (hrun : x.run moves = some y) (happly : y.apply m = some z)
    (hleaves : z.LeavesSession x.calls.length) (hmover : y.mover? m = some x.calls.length) :
    Accompanies settings factory order x (moves ++ [m]) z := by
  obtain ⟨s, custody, hs, hcustody, honly, hstage⟩ := h.stage
  have hi := (List.getElem?_eq_some_iff.1 hs).1
  obtain ⟨call, since, rfl, ⟨answers, rfl, hz⟩ | ⟨rfl, rfl⟩⟩ := Exchange.mover_cases happly hmover hs
  · obtain ⟨operation, rfl, asked, reported, custody', hwrites, hcustody', hfollows, hstage'⟩ :=
      hstage.resume (Exchange.run_trans hx hrun) hs hcustody answers
    rw [order.form.resume_point, order.form.heard_point] at hz
    subst hz
    have hrecord := Exchange.recordOf_concat hrun happly hmover rfl hwrites
    exact concat hx hrun happly hleaves honly hfollows (List.getElem?_set_self hi) hcustody' hrecord hstage'
  · exact concat hx hrun happly hleaves honly Custody.follows_nothing (List.getElem?_set_self hi) trivial rfl .dropped

/-- **A move of another call.** -/
theorem others (hx : (Exchange.new settings factory).run earlier = some x)
    (h : Accompanies settings factory order x moves y) (hrun : x.run moves = some y) (happly : y.apply m = some z)
    (hleaves : z.LeavesSession x.calls.length) (hmover : y.mover? m ≠ some x.calls.length) :
    Accompanies settings factory order x (moves ++ [m]) z := by
  obtain ⟨s, custody, hs, hcustody, honly, hstage⟩ := h.stage
  have hs' := (Exchange.calls_of_not_mover happly hmover).trans hs
  have hcustody' := hstage.custody_of_others (Exchange.run_trans hx hrun) happly hs' hleaves hcustody
  have hrecord := Exchange.recordOf_concat_of_not_mover hrun happly hmover
  exact concat hx hrun happly hleaves honly (fun _ hsession => .inl hsession) hs' hcustody' hrecord hstage

/-- **The induction over runs.** -/
theorem of_run {demand : Demand} {later : List Move} (horder : demand.order? = some order)
    (hx : (Exchange.new settings factory).run earlier = some x) (hy : x.run (.start demand :: later) = some y)
    (hleaves : x.LeavesSessionAlong x.calls.length (.start demand :: later)) :
    Accompanies settings factory order x (.start demand :: later) y := by
  have hleft : y.LeavesSession x.calls.length := hleaves _ y (List.prefix_refl _) hy
  induction hy using Exchange.run_cons_induct with
  | head hbegin => exact begin hx horder hbegin hleft
  | @snoc later m y z hrun hlast ih =>
    have hprefix : (.start demand :: later) <+: (.start demand :: (later ++ [m])) := ⟨[m], rfl⟩
    have hbefore := ih (fun before v hpre hv => hleaves before v (hpre.trans hprefix) hv)
      (hleaves _ y hprefix hrun)
    by_cases hmover : y.mover? m = some x.calls.length
    · exact own hx hbefore hrun hlast hleft hmover
    · exact others hx hbefore hrun hlast hleft hmover

end Accompanies

/-! ## Every operation -/

section Returns

variable (settings : Settings) (factory : ClientFactory) (order : OperationOrder) (x : Exchange) (moves : List Move)

/-- An operation got no session: its opening failed, and it asked the engine for nothing but to open one. -/
structure GotNoSession (failure : Failure) : Prop where
  opening : ∃ opening : OpeningCourse,
    opening.IsOf settings factory (order.frame x.relay.now).database order.options.session ∧
      opening.begun.before = x.relay ∧ opening.outcome = .error failure
  requests : ∀ request ∈ x.requestsOf x.calls.length moves, ∃ o : Opening, request = o.request

/-- An operation opened a session, ran its transaction on it to this outcome, and released it. -/
structure ReleasedSession (y : Exchange) (session : SessionHandle) (outcome : TransactionRun.Outcome) : Prop where
  /-- The engine was asked to close the session after all that was asked in the transaction; what it said to that is
  free. -/
  course : ∃ (o : Opening) (c : Course) (closing : Closing) (reply : Except Failure Unit),
    TransactsOn settings factory order x.relay session o c ∧ c.progress = .finished outcome ∧
      closing.remote = session.remote ∧
      x.heardBy x.calls.length moves = o.told (.ok session.remote) :: c.heard ++ [closing.told reply] ∧
      x.requestsOf x.calls.length moves = o.request :: c.sent ++ [.closeSession session.remote]
  untracked : y.relay.registry.isTracked session.id = false
  /-- At no time did anyone else ask the engine to close the session. -/
  closedOnlyHere : ∀ before z j, before <+: moves → x.run before = some z → z.Closes j session.id → j = x.calls.length
  /-- If the engine opened no other session under its number, it was asked once to close the session of this number. -/
  closedOnce : y.opened.count session.remote = 1 → closeRequests session.remote y.relay.log = 1

/-- What it means that an operation came to its outcome as it should. -/
structure OperationReturns (y : Exchange) (outcome : TransactionRun.Outcome) : Prop where
  /-- It is over with its last move, and then it reports: how long it took, and a failure if it failed. -/
  reports : ∃ ended, (x.recordOf x.calls.length moves).last = some ended ∧
    operationReports (x.writtenBy x.calls.length moves) = (order.frame x.relay.now).reports ended outcome
  session : (∃ failure, outcome = .error failure ∧ GotNoSession settings factory order x moves failure) ∨
    ∃ session, ReleasedSession settings factory order x moves y session outcome

end Returns

/-- A session that was asked to close, and that is the only one under its number, was asked once. -/
theorem Accounted.closeRequests_eq_one {s : SessionSide} {opened : List RemoteSession} (h : Accounted s opened)
    {remote : RemoteSession} (hasked : 1 ≤ closeRequests remote s.log) (honce : opened.count remote = 1) :
    closeRequests remote s.log = 1 := by
  have hcloses := h.closes remote
  omega

/-- **The end of an operation**: when its call is over, it has come to its outcome as it should. -/
theorem Accompanies.returns {settings : Settings} {factory : ClientFactory} {order : OperationOrder}
    {earlier moves : List Move} {x y : Exchange} {result : CallResult}
    (h : Accompanies settings factory order x moves y) (hx : (Exchange.new settings factory).run earlier = some x)
    (hy : x.run moves = some y) (hdone : y.calls[x.calls.length]? = some (.finished result)) :
    ∃ outcome, result = order.form.result outcome ∧ OperationReturns settings factory order x moves y outcome := by
  obtain ⟨s, custody, hs, hcustody, honly, hstage⟩ := h.stage
  cases Option.some.inj (hdone.symm.trans hs)
  have hreached := Exchange.run_trans hx hy
  generalize hrecord : x.recordOf x.calls.length moves = record at hstage
  have hheard : x.heardBy x.calls.length moves = record.heard := congrArg CallRecord.heard hrecord
  have hrequests : x.requestsOf x.calls.length moves = record.requests := congrArg CallRecord.requests hrecord
  have hreports : operationReports (x.writtenBy x.calls.length moves) = record.reports :=
    congrArg CallRecord.reports hrecord
  cases hstage with
  | @released session o c outcome closing ended reply htransacts hprogress hremote =>
    obtain ⟨-, hasked, hgone⟩ := hcustody
    refine ⟨outcome, rfl, ⟨ended, congrArg CallRecord.last hrecord, hreports⟩,
      .inr ⟨session, ?_, ?_, honly session rfl, fun honce => ?_⟩⟩
    · exact ⟨o, c, closing, reply, htransacts, hprogress, hremote, hheard, hrequests⟩
    · exact Relay.isTracked_eq_false hgone
    · rw [← closeRequests_filter]
      exact (Exchange.orderly hreached).2.closeRequests_eq_one hasked honce
  | @refused opening failure heard requests ended hopening hbefore hfailed hasked =>
    refine ⟨.error failure, rfl, ⟨ended, congrArg CallRecord.last hrecord, hreports⟩, .inl ⟨failure, rfl, ?_, ?_⟩⟩
    · exact ⟨opening, hopening, hbefore, hfailed⟩
    · rw [hrequests]
      exact hasked

namespace Exchange

variable {x y : Exchange} {moves : List Move}

end Exchange

end QueryRelay
