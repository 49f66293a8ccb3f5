import QueryRelay.Proofs.Backoff
import QueryRelay.Proofs.Transaction.Attempt

/-!
# The outcome of a transaction

A script alone says how each attempt would go: `Script.attempt` reads the answers one after the other
and knows nothing of relays, points and waits.  The grammar of attempts is where it meets the code:
what a run was told keeps the grammar, and an attempt that keeps the grammar is the script's.

* `Script.attempt`, `Script.attemptAt` — the calls and the outcome of an attempt, and where it starts.
* `Attempt.eq_of_answered` — an attempt that was answered by a script is the script's attempt.
* `RetriesBy` — the rule: attempts are made until one succeeds, fails for good, or was the last.
* `transaction_retriesBy` — every run on a tracked session returns, and **keeps the rule**, under two provisos.
* `retry_rule_needs_provisos` — why it has to have them.
-/

namespace QueryRelay

/-! ## The attempts of a script -/

namespace Script

/-- The end of an attempt that has to be rolled back, when `n` waits are over. -/
def rollback (script : Script) (remote : RemoteSession) (n : Nat) : Heard :=
  .rollback remote ((script n).answers (.reply (.rollback remote)))

/-- The statements and the commit of an attempt, when `n` waits are over. -/
def statements (script : Script) (remote : RemoteSession) :
    Nat → List Statement → List Heard × TransactionRun.Outcome
  | n, [] =>
    match (script n).answers (.reply (.commit remote)) with
    | .ok _ => ([.commit remote (.ok ())], .ok [])
    | .error e => ([.commit remote (.error e), script.rollback remote (n + 1)], .error e)
  | n, current :: rest =>
    match (script n).answers (.reply (.run remote current)) with
    | .ok raw =>
      match QueryResult.ofRaw current raw with
      | .ok result =>
        (.run remote current (.ok raw) :: (script.statements remote (n + 1) rest).1,
          (script.statements remote (n + 1) rest).2.map fun results => result :: results)
      | .error e => ([.run remote current (.ok raw), script.rollback remote (n + 1)], .error e)
    | .error e => ([.run remote current (.error e), script.rollback remote (n + 1)], .error e)

/-- An attempt that begins when `n` waits are over. -/
def attempt (script : Script) (t : Transaction) (n : Nat) : List Heard × TransactionRun.Outcome :=
  match (script n).answers (.reply (.beginTransaction t.session.remote)) with
  | .ok _ =>
    (.begin t.session.remote (.ok ()) :: (script.statements t.session.remote (n + 1) t.statements).1,
      (script.statements t.session.remote (n + 1) t.statements).2)
  | .error e => ([.begin t.session.remote (.error e)], .error e)

/-- How many waits are over when an attempt begins; attempts are counted from zero. -/
def waitsBefore (script : Script) (t : Transaction) : Nat → Nat
  | 0 => 0
  | i + 1 => script.waitsBefore t i + (script.attempt t (script.waitsBefore t i)).1.length + 1

/-- The calls and the outcome of an attempt, if it is made. -/
def attemptAt (script : Script) (t : Transaction) (i : Nat) : List Heard × TransactionRun.Outcome :=
  script.attempt t (script.waitsBefore t i)

/-- Whether what was heard is what a script answers, from some wait on. -/
def Answered (script : Script) : Nat → List Heard → Prop
  | _, [] => True
  | n, h :: rest => h.answer = (script n).answers h.wait ∧ script.Answered (n + 1) rest

theorem answered_append {script : Script} {n : Nat} {before after : List Heard} :
    script.Answered n (before ++ after) ↔
      script.Answered n before ∧ script.Answered (n + before.length) after := by
  induction before generalizing n with
  | nil => simp [Answered]
  | cons h rest ih =>
    have hshift : n + 1 + rest.length = n + (h :: rest).length := by
      rw [List.length_cons]
      omega
    simp only [List.cons_append, Answered, ih, hshift, and_assoc]

end Script

/-! ## Attempts that were answered by a script -/

section Answered

variable {script : Script} {remote : RemoteSession} {calls : List Heard} {results : List QueryResult}

/-- Statements that ran come first. -/
theorem Ran.statements_append {done : List Statement} (h : Ran remote done calls results) (rest : List Statement)
    {n : Nat} (hanswered : script.Answered n calls) :
    script.statements remote n (done ++ rest) =
      (calls ++ (script.statements remote (n + calls.length) rest).1,
        (script.statements remote (n + calls.length) rest).2.map fun more => results ++ more) := by
  induction h generalizing n with
  | nil =>
    cases hrest : script.statements remote n rest with
    | mk calls outcome => cases outcome <;> simp [hrest, Except.map]
  | @cons statement raw result statements calls results hresult _ ih =>
    obtain ⟨hanswer, hothers⟩ := hanswered
    have hrun : (script n).answers (.reply (.run remote statement)) = .ok raw := hanswer.symm
    have hshift : n + (Heard.run remote statement (.ok raw) :: calls).length = n + 1 + calls.length := by
      rw [List.length_cons]
      omega
    rw [List.cons_append, Script.statements]
    simp only [hrun, hresult, ih hothers, hshift]
    cases (script.statements remote (n + 1 + calls.length) rest).2 <;> simp [Except.map]

/-- What an attempt heard that broke off after some statements had run: the call that failed, and the
rollback. -/
theorem Ran.eq_of_answered {done rest : List Statement} (h : Ran remote done calls results) {failing : Heard}
    {failure : Failure} {reply : Except Failure Unit} {n : Nat}
    (hanswered : script.Answered n (.begin remote (.ok ()) :: (calls ++ [failing]) ++ [.rollback remote reply]))
    (hfailing : failing.answer = (script (n + 1 + calls.length)).answers failing.wait →
      script.statements remote (n + 1 + calls.length) rest =
        ([failing, script.rollback remote (n + 1 + calls.length + 1)], .error failure)) :
    .begin remote (.ok ()) :: (calls ++ [failing]) ++ [.rollback remote reply] =
        .begin remote (.ok ()) :: (script.statements remote (n + 1) (done ++ rest)).1 ∧
      (script.statements remote (n + 1) (done ++ rest)).2 = .error failure := by
  rw [List.cons_append, Script.Answered, Script.answered_append, Script.answered_append] at hanswered
  obtain ⟨-, ⟨hcalls, hfailed, -⟩, hrollback, -⟩ := hanswered
  have hindex : n + 1 + (calls ++ [failing]).length = n + 1 + calls.length + 1 := by
    rw [List.length_append, List.length_singleton]
    omega
  rw [hindex] at hrollback
  have hback : Heard.rollback remote reply = script.rollback remote (n + 1 + calls.length + 1) :=
    congrArg (Heard.rollback remote) hrollback
  rw [h.statements_append rest hcalls, hfailing hfailed, hback]
  simp [Except.map]

/-- An attempt that broke off while a script answered is the script's. -/
theorem Broken.eq_of_answered {statements : List Statement} {failure : Failure} {reply : Except Failure Unit}
    (h : Broken remote statements calls failure) {n : Nat}
    (hanswered : script.Answered n (calls ++ [.rollback remote reply])) :
    calls ++ [.rollback remote reply] =
        .begin remote (.ok ()) :: (script.statements remote (n + 1) statements).1 ∧
      (script.statements remote (n + 1) statements).2 = .error failure := by
  cases h with
  | @refused done rest current ran results failure hstatements hran =>
    rw [hstatements]
    refine hran.eq_of_answered hanswered fun hrun => ?_
    have hrun : (script (n + 1 + ran.length)).answers (.reply (.run remote current)) = .error failure := hrun.symm
    simp only [Script.statements, hrun]
  | @undecodable done rest current ran results raw failure hstatements hran hraw =>
    rw [hstatements]
    refine hran.eq_of_answered hanswered fun hrun => ?_
    have hrun : (script (n + 1 + ran.length)).answers (.reply (.run remote current)) = .ok raw := hrun.symm
    simp only [Script.statements, hrun, hraw]
  | @uncommitted ran results failure hran =>
    rw [← List.append_nil statements]
    refine hran.eq_of_answered hanswered fun hcommit => ?_
    have hcommit : (script (n + 1 + ran.length)).answers (.reply (.commit remote)) = .error failure := hcommit.symm
    simp only [Script.statements, hcommit]

/-- **An attempt that a script answered is the script's**: its calls, and its outcome. -/
theorem Attempt.eq_of_answered {t : Transaction} {outcome : TransactionRun.Outcome}
    (h : Attempt t.session.remote t.statements calls outcome) {n : Nat} (hanswered : script.Answered n calls) :
    script.attempt t n = (calls, outcome) := by
  cases h with
  | @notBegun failure =>
    have hbegin : (script n).answers (.reply (.beginTransaction t.session.remote)) = .error failure :=
      hanswered.1.symm
    simp only [Script.attempt, hbegin]
  | @rolledBack calls failure reply hbroken =>
    obtain ⟨hcalls, hfailure⟩ := hbroken.eq_of_answered hanswered
    have hbegin : (script n).answers (.reply (.beginTransaction t.session.remote)) = .ok () := by
      rw [hcalls] at hanswered
      exact hanswered.1.symm
    simp only [Script.attempt, hbegin, hcalls, hfailure]
  | @committed ran results hran =>
    rw [Script.Answered, Script.answered_append] at hanswered
    obtain ⟨hbegin, hran', hcommit, -⟩ := hanswered
    have hbegin : (script n).answers (.reply (.beginTransaction t.session.remote)) = .ok () := hbegin.symm
    have hcommit : (script (n + 1 + ran.length)).answers (.reply (.commit t.session.remote)) = .ok () :=
      hcommit.symm
    have hstatements := hran.statements_append [] hran'
    rw [List.append_nil, Script.statements, hcommit] at hstatements
    simp only [Script.attempt, hbegin, hstatements, Except.map, List.append_nil]

end Answered

/-! ## What a run is told is what the script answers -/

theorem Course.answered_under {c : Course} (hbegin : c.heard = []) (script : Script) (n : Nat) :
    script.Answered 0 (c.under script n).heard ∧
      ∀ p, (c.under script n).progress = .waiting p → (c.under script n).heard.length = n := by
  induction n with
  | zero =>
    rw [under, hbegin]
    exact ⟨trivial, fun _ _ => rfl⟩
  | succ n ih =>
    obtain ⟨hanswered, hlength⟩ := ih
    rw [under]
    cases hprogress : (c.under script n).progress with
    | waiting p =>
      rw [turn_of_waiting hprogress]
      refine ⟨Script.answered_append.2 ⟨hanswered, ?_, trivial⟩, fun q _ => ?_⟩
      · rw [Nat.zero_add, hlength p hprogress]
      · rw [List.length_append, hlength p hprogress]
        rfl
    | finished outcome =>
      rw [turn_of_finished hprogress]
      refine ⟨hanswered, fun q hq => ?_⟩
      rw [hprogress] at hq
      cases hq

/-! ## The rule -/

/-- Whether an attempt of a script fails in a way that is worth another attempt. -/
def Script.FailsRetryably (script : Script) (policy : RetryPolicy) (t : Transaction) (i : Nat) : Prop :=
  ∃ failure, (script.attemptAt t i).2 = .error failure ∧ policy.Retryable t.substrings failure

/-- What is heard in the first attempts of a script, and in the delay after each. -/
def Script.heardBefore (script : Script) (policy : RetryPolicy) (t : Transaction) (i : Nat) : List Heard :=
  (List.range i).flatMap fun j => (script.attemptAt t j).1 ++ [.pause (policy.delay j)]

theorem Script.heardBefore_succ (script : Script) (policy : RetryPolicy) (t : Transaction) (i : Nat) :
    script.heardBefore policy t (i + 1) =
      script.heardBefore policy t i ++ ((script.attemptAt t i).1 ++ [.pause (policy.delay i)]) := by
  rw [heardBefore, List.range_succ, List.flatMap_append]
  simp [heardBefore]

theorem Script.length_heardBefore (script : Script) (policy : RetryPolicy) (t : Transaction) (i : Nat) :
    (script.heardBefore policy t i).length = script.waitsBefore t i := by
  induction i with
  | zero => rfl
  | succ i ih =>
    rw [heardBefore_succ, List.length_append, ih, waitsBefore, attemptAt, List.length_append, List.length_singleton]
    omega

/-- Attempts that were retried while a script answered are the first ones of the script. -/
theorem Transaction.FailedRetryably.eq_of_answered {t : Transaction} {policy : RetryPolicy} {script : Script}
    {failed : List (List Heard × Failure)} (h : t.FailedRetryably policy failed)
    (hanswered : script.Answered 0 (retriedCalls policy failed)) :
    retriedCalls policy failed = script.heardBefore policy t failed.length ∧
      ∀ j < failed.length, script.FailsRetryably policy t j := by
  induction failed using List.reverseRecOn with
  | nil => exact ⟨rfl, fun j hj => absurd hj (Nat.not_lt_zero j)⟩
  | append_singleton failed a ih =>
    rw [retriedCalls_concat, Script.answered_append] at hanswered
    obtain ⟨hbefore, hlast⟩ := hanswered
    obtain ⟨hheard, hretryable⟩ := ih (fun b hb => h b (List.mem_append_left _ hb)) hbefore
    obtain ⟨hattempt, hfailure⟩ := h a (List.mem_append_right _ List.mem_cons_self)
    rw [Nat.zero_add, hheard, script.length_heardBefore] at hlast
    have hsame : script.attemptAt t failed.length = (a.1, .error a.2) :=
      hattempt.eq_of_answered (Script.answered_append.1 hlast).1
    refine ⟨?_, fun j hj => ?_⟩
    · rw [retriedCalls_concat, hheard, List.length_append, List.length_singleton, Script.heardBefore_succ, hsame]
    · rw [List.length_append, List.length_singleton] at hj
      rcases Nat.lt_succ_iff_lt_or_eq.1 hj with hbefore | rfl
      · exact hretryable j hbefore
      · exact ⟨a.2, by rw [hsame], hfailure⟩

/-- The rule by which a run makes attempts and has its result.  `committed`, `stopped` and `exhausted`
are the three ways to end; `heard` says that attempts follow one another with the policy's delays
between them, and nothing else. -/
structure RetriesBy (policy : RetryPolicy) (t : Transaction) (script : Script) (heard : List Heard)
    (outcome : TransactionRun.Outcome) : Prop where
  committed : ∀ i ≤ policy.maxRetries, (∀ j < i, script.FailsRetryably policy t j) →
    ∀ results, (script.attemptAt t i).2 = .ok results →
      outcome = .ok results ∧ results.map QueryResult.statement = t.statements
  stopped : ∀ i ≤ policy.maxRetries, (∀ j < i, script.FailsRetryably policy t j) →
    ∀ failure, (script.attemptAt t i).2 = .error failure → ¬policy.Retryable t.substrings failure →
      outcome = .error failure
  exhausted : (∀ j ≤ policy.maxRetries, script.FailsRetryably policy t j) →
    ∀ failure, (script.attemptAt t policy.maxRetries).2 = .error failure →
      outcome = .error (.retriesExhausted t.id.text (policy.maxRetries + 1) failure)
  heard : ∃ i ≤ policy.maxRetries, (∀ j < i, script.FailsRetryably policy t j) ∧
    (script.FailsRetryably policy t i → i = policy.maxRetries) ∧
    heard = script.heardBefore policy t i ++ (script.attemptAt t i).1

/-- How the last attempt of a run decides the result of the run. -/
inductive Decides (policy : RetryPolicy) (t : Transaction) (i : Nat) :
    TransactionRun.Outcome → TransactionRun.Outcome → Prop
  | committed {results : List QueryResult} :
      results.map QueryResult.statement = t.statements → Decides policy t i (.ok results) (.ok results)
  | stopped {failure : Failure} :
      ¬policy.Retryable t.substrings failure → Decides policy t i (.error failure) (.error failure)
  | exhausted {failure : Failure} :
      policy.Retryable t.substrings failure → i = policy.maxRetries →
        Decides policy t i (.error failure)
          (.error (.retriesExhausted t.id.text (policy.maxRetries + 1) failure))

variable {policy : RetryPolicy} {t : Transaction} {script : Script}

/-- It is enough to look at the attempt that ends the run: an earlier one is retried, and no later one
is made. -/
theorem RetriesBy.of_last {i : Nat} {calls : List Heard} {last outcome : TransactionRun.Outcome}
    (hmax : i ≤ policy.maxRetries) (hbefore : ∀ j < i, script.FailsRetryably policy t j)
    (hsame : script.attemptAt t i = (calls, last)) (hdecides : Decides policy t i last outcome) :
    RetriesBy policy t script (script.heardBefore policy t i ++ calls) outcome := by
  have hcalls : (script.attemptAt t i).1 = calls := congrArg Prod.fst hsame
  have houtcome : (script.attemptAt t i).2 = last := congrArg Prod.snd hsame
  have hlast : script.FailsRetryably policy t i → i = policy.maxRetries := by
    rintro ⟨failure, hfailure, hretryable⟩
    rw [houtcome] at hfailure
    cases hdecides with
    | committed _ => cases hfailure
    | stopped hnot =>
      cases hfailure
      exact absurd hretryable hnot
    | exhausted _ hspent => exact hspent
  have hunique : ∀ k ≤ policy.maxRetries, (∀ j < k, script.FailsRetryably policy t j) →
      ¬script.FailsRetryably policy t k → k = i := by
    intro k hk hearlier hfinal
    rcases Nat.lt_trichotomy k i with hlt | heq | hgt
    · exact absurd (hbefore k hlt) hfinal
    · exact heq
    · have hspent := hlast (hearlier i hgt)
      omega
  refine
    { committed := ?_, stopped := ?_, exhausted := ?_,
      heard := ⟨i, hmax, hbefore, hlast, by rw [hcalls]⟩ }
  · intro k hk hearlier results hresults
    have hfinal : ¬script.FailsRetryably policy t k := by
      rintro ⟨failure, hfailure, -⟩
      rw [hresults] at hfailure
      cases hfailure
    cases hunique k hk hearlier hfinal
    rw [houtcome] at hresults
    subst hresults
    cases hdecides with
    | committed hstatements => exact ⟨rfl, hstatements⟩
  · intro k hk hearlier failure hfailure hnot
    have hfinal : ¬script.FailsRetryably policy t k := by
      rintro ⟨other, hother, hretryable⟩
      rw [hfailure] at hother
      cases hother
      exact hnot hretryable
    cases hunique k hk hearlier hfinal
    rw [houtcome] at hfailure
    subst hfailure
    cases hdecides with
    | stopped _ => rfl
    | exhausted hretryable _ => exact absurd hretryable hnot
  · intro hall failure hfailure
    obtain ⟨other, hother, hretryable⟩ := hall i hmax
    rw [← hlast (hall i hmax), hother] at hfailure
    cases hfailure
    rw [houtcome] at hother
    subst hother
    cases hdecides with
    | stopped hnot => exact absurd hretryable hnot
    | exhausted _ _ => rfl

/-- The failed attempts of a run that a script answered, and its last one, are those of the script. -/
theorem RetriesBy.of_answered {failed : List (List Heard × Failure)} {calls : List Heard}
    {last outcome : TransactionRun.Outcome} (hfailed : t.FailedRetryably policy failed)
    (hmax : failed.length ≤ policy.maxRetries) (hattempt : Attempt t.session.remote t.statements calls last)
    (hanswered : script.Answered 0 (retriedCalls policy failed ++ calls))
    (hdecides : Decides policy t failed.length last outcome) :
    RetriesBy policy t script (retriedCalls policy failed ++ calls) outcome := by
  rw [Script.answered_append] at hanswered
  obtain ⟨hbefore, hlast⟩ := hanswered
  obtain ⟨hheard, hretryable⟩ := hfailed.eq_of_answered hbefore
  rw [Nat.zero_add, hheard, script.length_heardBefore] at hlast
  rw [hheard]
  exact RetriesBy.of_last hmax hretryable (hattempt.eq_of_answered hlast) hdecides

/-- **A run that ends keeps the rule**, unless its circuit got in the way. -/
theorem Ending.retriesBy {heard : List Heard} {outcome : TransactionRun.Outcome}
    (h : Ending policy t False heard outcome) (hanswered : script.Answered 0 heard) :
    RetriesBy policy t script heard outcome := by
  cases h with
  | committed hfailed hmax hattempt =>
    exact RetriesBy.of_answered hfailed hmax hattempt hanswered (.committed hattempt.statements_eq)
  | stopped hfailed hmax hattempt hnot =>
    exact RetriesBy.of_answered hfailed hmax hattempt hanswered (.stopped hnot)
  | exhausted hfailed hlength hattempt hretryable =>
    exact RetriesBy.of_answered hfailed hlength.le hattempt hanswered (.exhausted hretryable hlength)
  | notAdmitted hcircuits => exact hcircuits.elim

/-! ## Every run -/

/-- **The outcome of a transaction.**  A run on a tracked session returns, whatever the engine answers
and whatever others do in between, and it keeps the rule: the first attempt that succeeds or fails for
good decides, or else the last one that the policy allows.  There are two provisos.  The longest delay
has to be a span in floating-point seconds; then there is a delay before every retry.  And nobody else
reports on the circuit of the transaction, whose identifier is new, so that no circuit gets in the way. -/
theorem transaction_retriesBy {r : Relay} {session : SessionHandle} (h : r.registry.isTracked session.id = true)
    (statements : List Statement) (substrings : Option (List String)) (script : Script)
    (hlongest : r.settings.retry.HasLongest)
    (hnew : r.breaker.circuits.get? (r.nextRun session statements substrings).id.breakerKey = none)
    (hspares : script.Spares (r.nextRun session statements substrings).id.breakerKey) :
    (∀ retry, r.settings.retry.delay? retry = .ok (r.settings.retry.delay retry)) ∧
      ∃ outcome, (Course.whole r session statements substrings script).progress = .finished outcome ∧
        RetriesBy r.settings.retry (r.nextRun session statements substrings) script
          (Course.whole r session statements substrings script).heard outcome := by
  obtain ⟨outcome, hfinished⟩ := Course.whole_finished h statements substrings script
  have hending := (@Course.Orderly.under False _ _ h statements substrings script (.inr ⟨hnew, hspares⟩)
    (TransactionRun.mostWaits r.settings.retry (r.nextRun session statements substrings))).follows
  rw [← Course.whole, hfinished] at hending
  have hanswered := (@Course.answered_under (Course.begin r session statements substrings) rfl script
    (TransactionRun.mostWaits r.settings.retry (r.nextRun session statements substrings))).1
  rw [← Course.whole] at hanswered
  exact ⟨RetryPolicy.delay?_eq_ok hlongest, outcome, hfinished, Ending.retriesBy hending hanswered⟩

/-- A relay on which one session was opened. -/
def relayWithSession (settings : Settings) : Relay :=
  (Relay.new settings).withRegistry fun g => (g.track none ⟨7⟩ 0).1

/-- The handle of that session. -/
def onlySession : SessionHandle := ⟨⟨1⟩, none, ⟨7⟩⟩

/-- The first request is refused in a way that is worth another attempt, and everything after it granted. -/
def refusingOnce : Script := fun n =>
  { answers := if n = 0 then .refusing (.transientRemote .sessionExpired "gone") else .granting 7 }

/-- A run whose first attempt cannot begin, and whose second one runs a statement and commits. -/
theorem transaction_retriesBy_of_retry :
    ∃ (r : Relay) (session : SessionHandle) (script : Script),
      r.registry.isTracked session.id = true ∧ r.settings.retry.HasLongest ∧
      r.breaker.circuits.get? (r.nextRun session [.plain "RETURN 1" []] none).id.breakerKey = none ∧
      script.Spares (r.nextRun session [.plain "RETURN 1" []] none).id.breakerKey ∧
      (Course.whole r session [.plain "RETURN 1" []] none script).heard.length = 5 ∧
      (∀ retry, r.settings.retry.delay? retry = .ok (r.settings.retry.delay retry)) ∧
      ∃ outcome, (Course.whole r session [.plain "RETURN 1" []] none script).progress = .finished outcome ∧
        RetriesBy r.settings.retry (r.nextRun session [.plain "RETURN 1" []] none) script
          (Course.whole r session [.plain "RETURN 1" []] none script).heard outcome := by
  have hseconds : RetryPolicy.InSeconds {} 1 30 := ⟨rfl, rfl, by decide, by decide⟩
  have htracked : (relayWithSession {}).registry.isTracked onlySession.id = true := by decide
  have hspares (key : String) : refusingOnce.Spares key := fun _ _ hnone => hnone
  exact ⟨relayWithSession {}, onlySession, refusingOnce, htracked, hseconds.hasLongest, rfl, hspares _,
    by decide +kernel,
    @transaction_retriesBy _ _ htracked [.plain "RETURN 1" []] none refusingOnce hseconds.hasLongest rfl (hspares _)⟩

/-! ## The provisos -/

/-- A relay with one session, on which one failure opens a circuit. -/
def touchyRelay : Relay := relayWithSession { circuit := { failureThreshold := 1 } }

/-- All the while somebody else reports failures on a circuit. -/
def reportedOn (key : String) : Script := fun n => { refusingOnce n with others := fun r => r.recordFailure key }

/-- When it is time for the second attempt, the circuit is open. -/
theorem whole_reportedOn {key : String} (hkey : (touchyRelay.nextRun onlySession [] none).id.breakerKey = key) :
    (Course.whole touchyRelay onlySession [] none (reportedOn key)).progress =
      .finished (.error (.circuitOpen key)) := by
  subst hkey
  rfl

/-- **Neither proviso can be left out.**  There is a policy that nothing is to be said against and that has no delay
before its first retry.  And when others report on the circuit of a transaction, its run ends there, although the next
attempt would have succeeded. -/
theorem retry_rule_needs_provisos :
    (∃ policy : RetryPolicy,
      policy.complaint? = none ∧ 0 < policy.maxRetries ∧ policy.delay? 0 = .error .outOfRange) ∧
    ¬∀ (r : Relay) (session : SessionHandle) (statements : List Statement) (substrings : Option (List String))
        (script : Script), r.registry.isTracked session.id = true → r.settings.retry.HasLongest →
      r.breaker.circuits.get? (r.nextRun session statements substrings).id.breakerKey = none →
      ∃ outcome, (Course.whole r session statements substrings script).progress = .finished outcome ∧
        RetriesBy r.settings.retry (r.nextRun session statements substrings) script
          (Course.whole r session statements substrings script).heard outcome := by
  obtain ⟨hcomplaint, hdelay⟩ := RetryPolicy.delay?_unbounded
  refine ⟨⟨RetryPolicy.unboundedPolicy, hcomplaint, by decide, hdelay⟩, fun hrule => ?_⟩
  have hseconds : RetryPolicy.InSeconds {} 1 30 := ⟨rfl, rfl, by decide, by decide⟩
  obtain ⟨key, hkey⟩ : ∃ key, (touchyRelay.nextRun onlySession [] none).id.breakerKey = key := ⟨_, rfl⟩
  obtain ⟨outcome, hfinished, hretries⟩ :=
    hrule touchyRelay onlySession [] none (reportedOn key) (by decide) hseconds.hasLongest rfl
  have hfirst : (reportedOn key).FailsRetryably {} (touchyRelay.nextRun onlySession [] none) 0 :=
    ⟨.transientRemote .sessionExpired "gone", rfl, .inl (by decide)⟩
  obtain ⟨hcommitted, -⟩ := hretries.committed 1 (by decide)
    (fun j hj => Nat.lt_one_iff.1 hj ▸ hfirst) [] rfl
  rw [hcommitted, whole_reportedOn hkey] at hfinished
  exact absurd hfinished (by simp)

end QueryRelay
