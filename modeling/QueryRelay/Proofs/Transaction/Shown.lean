import QueryRelay.Proofs.Session.Since
import QueryRelay.Proofs.Transaction.Account
import QueryRelay.Proofs.Transaction.Roll

/-!
# What an entry shows

While a run of a transaction waits, anyone may look at its entry in the table.  The run itself never does: it counts its
retries on its own, and writes in its entry now and then.  What there is to see goes with what the run was told so far.

* `Exchange.toldTo` — what the run of a transaction was told in some moves.
* `TransactionRun.IsInAttempts` — that what a run was told is attempts that failed, with what it heard in the present
  one.
* `TransactionState.Shows` — what there is to see: the session and the statements, whether the run waits for a delay,
  how many delays are over, and with what the last attempt failed.
* `Told.isInAttempts` — a run that follows its course is in attempts.
* `TransactionState.Shows.resume` — **a step of a run** keeps its entry true.
-/

namespace QueryRelay

/-! ## What a run was told -/

/-- What the end of an errand tells the run of a transaction. -/
def Errand.tells (answers : Answers) (id : TransactionId) : Errand → List Heard
  | transacting p => if p.transaction.id = id then [⟨p.wait, answers p.wait⟩] else []
  | _ => []

namespace Exchange

variable {x y z : Exchange} {id : TransactionId} {moves : List Move} {m : Move}

/-- What the run of a transaction is told in a move. -/
def toldIn (x : Exchange) (id : TransactionId) : Move → List Heard
  | .resume i answers =>
    match x.calls[i]? with
    | some (.waiting call _) => call.errand.tells answers id
    | _ => []
  | _ => []

/-- What the run of a transaction is told in some moves. -/
def toldTo (x : Exchange) (id : TransactionId) : List Move → List Heard
  | [] => []
  | m :: rest =>
    match x.apply m with
    | some y => x.toldIn id m ++ y.toldTo id rest
    | none => []

/-- Some moves, and then some more. -/
theorem toldTo_append (h : x.run moves = some y) (more : List Move) :
    x.toldTo id (moves ++ more) = x.toldTo id moves ++ y.toldTo id more := by
  induction moves generalizing x with
  | nil =>
    cases Option.some.inj h
    rfl
  | cons first rest ih =>
    obtain ⟨w, hfirst, hrest⟩ := exists_of_run_cons h
    simp only [List.cons_append, toldTo, hfirst]
    rw [ih hrest, List.append_assoc]

/-- One more move. -/
theorem toldTo_concat (h : x.run moves = some y) (hlast : y.apply m = some z) :
    x.toldTo id (moves ++ [m]) = x.toldTo id moves ++ y.toldIn id m := by
  rw [toldTo_append h]
  simp only [toldTo, hlast, List.append_nil]

end Exchange

/-! ## What an entry shows -/

namespace TransactionRun

/-- Whether a run waits for the delay before its next attempt. -/
def isBackingOff : TransactionRun → Bool
  | backingOff _ _ _ => true
  | _ => false

/-- The failures of the attempts that are over, by what a run was told so far.  An attempt that has to be rolled back is
not over before that is done. -/
def failuresOver (heard : List Heard) : TransactionRun → List Failure
  | rollingBack _ _ _ => (heard.filterMap Heard.failure?).dropLast
  | _ => heard.filterMap Heard.failure?

/-- What a run was told is attempts that failed, with the failures that are counted for them, and then what it was told
in the present attempt.  All but the last of the attempts were followed by a delay that is over; while the run waits for
the delay after the last one, it is in no attempt. -/
def IsInAttempts (heard : List Heard) (p : TransactionRun) : Prop :=
  ∃ (failed : List (List Heard × Failure)) (present : List Heard),
    heard.filter (fun call => call.request?.isSome) = (failed.map Prod.fst).flatten ++ present ∧
      (∀ a ∈ failed, Attempt p.transaction.session.remote p.transaction.statements a.1 (.error a.2)) ∧
      p.failuresOver heard = failed.map Prod.snd ∧
      failed.length = (heard.filterMap Heard.delay?).length + (if p.isBackingOff then 1 else 0) ∧
      (p.isBackingOff = true → present = [])

end TransactionRun

/-- What the entry of a run shows that waits at a point and was told so much. -/
structure TransactionState.Shows (s : TransactionState) (p : TransactionRun) (heard : List Heard) : Prop where
  session : s.session = p.transaction.session.id
  queries : s.queries = p.transaction.statements
  /-- The transaction counts as failed while the run waits for a delay, and as started at all other times. -/
  status : s.status = if p.isBackingOff then .failed else .started
  /-- There was one retry for each delay that is over. -/
  retryCount : s.retryCount = (heard.filterMap Heard.delay?).length
  /-- The message is that of the last attempt that failed, if one has. -/
  error : s.error = (p.failuresOver heard).getLast?.map Failure.message
  lastRetryAt : s.lastRetryAt.isSome = true ↔ p.failuresOver heard ≠ []

/-! ### What goes with where a run stands -/

section Told

variable {policy : RetryPolicy} {p : TransactionRun} {calls heard : List Heard}

/-- In the present attempt a run has heard of calls to the engine alone. -/
theorem Present.isPlain (h : Present policy p calls) : ∀ call ∈ calls, call.IsPlain := by
  cases p with
  | beginning t retries =>
    cases h
    simp
  | running t retries results current rest =>
    obtain ⟨done, ran, -, hran, rfl⟩ := h
    exact List.forall_mem_cons.2 ⟨⟨rfl, rfl⟩, hran.isPlain⟩
  | rollingBack t retries failure => exact Broken.isPlain h
  | committing t retries results =>
    obtain ⟨ran, hran, rfl⟩ := h
    exact List.forall_mem_cons.2 ⟨⟨rfl, rfl⟩, hran.isPlain⟩
  | backingOff t retries delay =>
    obtain ⟨-, -, failure, hattempt, -⟩ := h
    exact hattempt.isPlain_of_error

theorem Present.delays (h : Present policy p calls) : calls.filterMap Heard.delay? = [] := by
  refine List.filterMap_eq_nil_iff.2 fun call hcall => ?_
  have hasked := (h.isPlain call hcall).1
  obtain ⟨wait, answer⟩ := call
  cases wait with
  | reply request => rfl
  | _ => exact absurd hasked (by simp [Heard.request?, Wait.request?])

/-- A run counts the delays that are over. -/
theorem Told.delays (h : Told policy p heard) : (heard.filterMap Heard.delay?).length = p.retries := by
  obtain ⟨failed, calls, rfl, hlength, -, hfailed, hpresent⟩ := h
  rw [List.filterMap_append, retriedCalls_delays hfailed, hpresent.delays, List.append_nil, List.length_map,
    List.length_range, hlength]

/-- A run that has to roll back remembers what went wrong last. -/
theorem Told.failures (h : Told policy p heard) :
    heard.filterMap Heard.failure? = p.failuresOver heard ++ pendingFailure (.waiting p) := by
  cases p with
  | rollingBack t retries failure =>
    obtain ⟨failed, calls, rfl, -, -, hfailed, hpresent⟩ := h
    have hlast : calls.filterMap Heard.failure? = [failure] := Broken.failures hpresent
    simp only [TransactionRun.failuresOver, List.filterMap_append, hlast, List.dropLast_concat]
    rfl
  | _ => exact (List.append_nil _).symm

/-- Until its attempt is over, a run has heard of no failure but the one for which it rolls back. -/
theorem Present.failures (h : Present policy p calls) (hp : p.isBackingOff = false) :
    calls.filterMap Heard.failure? = pendingFailure (.waiting p) := by
  cases p with
  | beginning t retries =>
    cases h
    rfl
  | running t retries results current rest =>
    obtain ⟨done, ran, -, hran, rfl⟩ := h
    exact (List.filterMap_cons_none rfl).trans hran.failures
  | rollingBack t retries failure => exact Broken.failures h
  | committing t retries results =>
    obtain ⟨ran, hran, rfl⟩ := h
    exact (List.filterMap_cons_none rfl).trans hran.failures
  | backingOff t retries delay => exact absurd hp (by simp [TransactionRun.isBackingOff])

/-- The attempt before a delay is over. -/
theorem Present.attempt (h : Present policy p calls) (hp : p.isBackingOff = true) :
    pendingFailure (.waiting p) = [] ∧
      ∃ failure, Attempt p.transaction.session.remote p.transaction.statements calls (.error failure) := by
  cases p with
  | backingOff t retries delay =>
    obtain ⟨-, -, failure, hattempt, -⟩ := h
    exact ⟨rfl, failure, hattempt⟩
  | _ => exact absurd hp (by simp [TransactionRun.isBackingOff])

/-- **A run that follows its course** is in attempts, the failures of which it has counted. -/
theorem Told.isInAttempts (h : Told policy p heard) : p.IsInAttempts heard := by
  have hdelays := h.delays
  have hfailures := h.failures
  obtain ⟨failed, calls, rfl, hlength, -, hfailed, hpresent⟩ := h
  have hattempts : ∀ a ∈ failed, Attempt p.transaction.session.remote p.transaction.statements a.1 (.error a.2) :=
    fun a ha => (hfailed a ha).1
  have hcalls : (retriedCalls policy failed ++ calls).filter (fun call => call.request?.isSome) =
      (failed.map Prod.fst).flatten ++ calls := by
    rw [List.filter_append, filter_retriedCalls hfailed, List.filter_eq_self.2 fun call hcall =>
      (hpresent.isPlain call hcall).1]
  rw [List.filterMap_append, retriedCalls_failures hfailed] at hfailures
  rw [TransactionRun.IsInAttempts, hdelays, ← hlength, hcalls]
  cases hp : p.isBackingOff with
  | false =>
    rw [hpresent.failures hp] at hfailures
    exact ⟨failed, calls, rfl, hattempts, (List.append_cancel_right hfailures).symm, rfl, by simp⟩
  | true =>
    obtain ⟨hpending, failure, hattempt⟩ := hpresent.attempt hp
    rw [hattempt.failures, hpending, List.append_nil] at hfailures
    refine ⟨failed ++ [(calls, failure)], [], by simp, ?_, ?_, by simp, fun _ => rfl⟩
    · refine List.forall_mem_append.2 ⟨hattempts, fun a ha => ?_⟩
      rw [List.mem_singleton.1 ha]
      exact hattempt
    · rw [← hfailures, List.map_append]
      rfl

end Told

/-! ### Steps keep entries true -/

namespace TransactionState.Shows

variable {s : TransactionState} {p q : TransactionRun} {heard : List Heard} {now : Heard}

/-- A run that has just begun. -/
theorem begin (t : Transaction) : (TransactionState.new t.session.id t.statements).Shows (.beginning t 0) [] where
  session := rfl
  queries := rfl
  status := rfl
  retryCount := rfl
  error := rfl
  lastRetryAt := by simp [TransactionState.new, TransactionRun.failuresOver]

/-- As long as no attempt fails and no delay is over, the entry stays as it is. -/
theorem goesOn (h : s.Shows p heard) (htransaction : q.transaction = p.transaction)
    (hstatus : q.isBackingOff = p.isBackingOff) (hdelay : now.delay? = none)
    (hfailures : q.failuresOver (heard ++ [now]) = p.failuresOver heard) : s.Shows q (heard ++ [now]) where
  session := by rw [h.session, htransaction]
  queries := by rw [h.queries, htransaction]
  status := by rw [h.status, hstatus]
  retryCount := by rw [h.retryCount, List.filterMap_append, List.filterMap_cons_none hdelay, List.filterMap_nil,
    List.append_nil]
  error := by rw [h.error, hfailures]
  lastRetryAt := by rw [h.lastRetryAt, hfailures]

/-- An attempt has failed, and is taken down. -/
theorem fails (h : s.Shows p heard) (hdelay : now.delay? = none) {failures : List Failure} {failure : Failure}
    (hfailures : (heard ++ [now]).filterMap Heard.failure? = failures ++ [failure]) (moment : Instant) {retries : Nat}
    (hretries : (heard.filterMap Heard.delay?).length = retries) (delay : Duration) :
    (s.fail failure.message retries moment).Shows (.backingOff p.transaction retries delay) (heard ++ [now]) := by
  have hover : (TransactionRun.backingOff p.transaction retries delay).failuresOver (heard ++ [now]) =
      failures ++ [failure] := hfailures
  refine ⟨h.session, h.queries, rfl, ?_, ?_, ?_⟩
  · rw [List.filterMap_append, List.filterMap_cons_none hdelay, List.filterMap_nil, List.append_nil, hretries]
    rfl
  · rw [hover, List.getLast?_concat]
    rfl
  · rw [hover]
    simp [TransactionState.fail]

/-- A delay is over, and the next attempt begins. -/
theorem triesAgain {t : Transaction} {retries : Nat} {delay : Duration}
    (h : s.Shows (.backingOff t retries delay) heard) (hretries : (heard.filterMap Heard.delay?).length = retries) :
    ({ s with retryCount := retries + 1 }.restart).Shows (.beginning t (retries + 1))
      (heard ++ [Heard.pause delay]) := by
  have hover : (TransactionRun.beginning t (retries + 1)).failuresOver (heard ++ [Heard.pause delay]) =
      (TransactionRun.backingOff t retries delay).failuresOver heard := by
    refine (List.filterMap_append ..).trans (List.append_nil _)
  refine ⟨h.session, h.queries, rfl, ?_, ?_, ?_⟩
  · rw [List.filterMap_append, List.length_append, hretries]
    rfl
  · rw [hover]
    exact h.error
  · rw [hover]
    exact h.lastRetryAt

/-- The next statement, or the commit, is on its way. -/
theorem next (h : s.Shows p heard) (hp : p.isBackingOff = false)
    (hover : p.failuresOver heard = heard.filterMap Heard.failure?) (hdelay : now.delay? = none)
    (hfailure : now.failure? = none) {retries : Nat} {results : List QueryResult} {rest : List Statement} {r : Relay}
    (hq : (TransactionRun.next p.transaction retries results rest r).2 = .waiting q) : s.Shows q (heard ++ [now]) := by
  have hsame : (heard ++ [now]).filterMap Heard.failure? = heard.filterMap Heard.failure? := by
    rw [List.filterMap_append, List.filterMap_cons_none hfailure, List.filterMap_nil, List.append_nil]
  rw [TransactionRun.next_snd] at hq
  cases rest <;> cases hq <;> exact h.goesOn rfl hp.symm hdelay (hsame.trans hover.symm)

/-- A statement or the commit has failed, and the attempt is rolled back. -/
theorem rollsBack (h : s.Shows p heard) (hp : p.isBackingOff = false)
    (hover : p.failuresOver heard = heard.filterMap Heard.failure?) (hdelay : now.delay? = none) {failure : Failure}
    (hfailure : now.failure? = some failure) (retries : Nat) :
    s.Shows (.rollingBack p.transaction retries failure) (heard ++ [now]) := by
  refine h.goesOn rfl hp.symm hdelay ?_
  rw [hover, TransactionRun.failuresOver, List.filterMap_append, List.filterMap_cons_some hfailure, List.filterMap_nil,
    List.dropLast_concat]

/-- **A step of a run keeps its entry true**, if the run waits again. -/
theorem resume {policy : RetryPolicy} (htold : Told policy p heard) (h : s.Shows p heard) {r : Relay}
    {answer : p.wait.Answer} (hq : (p.resume answer r).2 = .waiting q) :
    (p.mark r.now answer s).Shows q (heard ++ [⟨p.wait, answer⟩]) := by
  have hfailed : ∀ {failures failure},
      (heard ++ [(⟨p.wait, answer⟩ : Heard)]).filterMap Heard.failure? = failures ++ [failure] →
        Heard.delay? ⟨p.wait, answer⟩ = none →
          (TransactionRun.afterFailure p.transaction p.retries failure r).2 = .waiting q →
            (s.fail failure.message p.retries r.now).Shows q (heard ++ [⟨p.wait, answer⟩]) := by
    intro failures failure hfailures hdelay hnext
    rcases TransactionRun.afterFailure_cases p.transaction p.retries r failure with
      ⟨-, hover⟩ | ⟨-, -, hover⟩ | ⟨-, -, hwaits⟩
    · exact absurd (hover.symm.trans hnext) (by simp)
    · exact absurd (hover.symm.trans hnext) (by simp)
    · cases hwaits.symm.trans hnext
      exact h.fails hdelay hfailures r.now htold.delays _
  cases p with
  | beginning t retries =>
    cases answer with
    | ok _ => exact h.next rfl rfl rfl rfl hq
    | error e => exact hfailed (List.filterMap_append ..) rfl hq
  | running t retries results current rest =>
    cases answer with
    | ok raw =>
      simp only [TransactionRun.resume] at hq
      split at hq
      · rename_i result hresult
        exact h.next rfl rfl rfl (by simp [Heard.failure?, hresult]) hq
      · rename_i failure hresult
        cases hq
        exact h.rollsBack rfl rfl rfl (by simp [Heard.failure?, hresult]) retries
    | error e =>
      cases hq
      exact h.rollsBack rfl rfl rfl rfl retries
  | rollingBack t retries e =>
    have hplain : Heard.failure? ⟨.reply (.rollback t.session.remote), answer⟩ = none := by
      cases answer <;> rfl
    refine @hfailed ((TransactionRun.rollingBack t retries e).failuresOver heard) e ?_ rfl hq
    rw [List.filterMap_append, List.filterMap_cons_none hplain, List.filterMap_nil, List.append_nil, htold.failures]
    rfl
  | committing t retries results =>
    cases answer with
    | ok _ => exact absurd hq (by simp [TransactionRun.resume, TransactionRun.afterCommit, TransactionRun.finish])
    | error e =>
      cases hq
      exact h.rollsBack rfl rfl rfl rfl retries
  | backingOff t retries delay =>
    have hbegins : q = .beginning t (retries + 1) := by
      simp only [TransactionRun.resume, TransactionRun.attempt_snd] at hq
      split at hq <;> cases hq
      rfl
    rw [hbegins]
    exact h.triesAgain htold.delays

end TransactionState.Shows

end QueryRelay
