import QueryRelay.Proofs.Retry
import QueryRelay.Proofs.Transaction.Course

/-!
# Attempts

What a run of a transaction hears from the engine, as a grammar.  An attempt begins a transaction; if
that succeeds it runs the statements one after the other; if they all run it commits; and when a
statement or the commit fails it rolls back.

* `Ran`, `Broken`, `Attempt` — the remote calls of an attempt, with what came of it.
* `Told` — the invariant: what a run was told until it waits where it waits.  Some attempts failed
  in a retryable way and were each followed by a delay; of the present attempt as much has happened
  as the point says.
* `Ending` — what a run was told in all, with its result.
* `Course.follows` — **every course keeps the grammar**, at every wait and at its end.
-/

namespace QueryRelay

/-! ## What can be heard -/

namespace Heard

def begin (remote : RemoteSession) (reply : Except Failure Unit) : Heard :=
  ⟨.reply (.beginTransaction remote), reply⟩

def run (remote : RemoteSession) (statement : Statement) (reply : Except Failure RawResult) : Heard :=
  ⟨.reply (.run remote statement), reply⟩

def commit (remote : RemoteSession) (reply : Except Failure Unit) : Heard := ⟨.reply (.commit remote), reply⟩

def rollback (remote : RemoteSession) (reply : Except Failure Unit) : Heard := ⟨.reply (.rollback remote), reply⟩

def pause (span : Duration) : Heard := ⟨.pause span, ()⟩

end Heard

/-! ## The grammar of an attempt -/

/-- Statements that ran one after the other, and whose rows were decoded, with their results. -/
inductive Ran (remote : RemoteSession) : List Statement → List Heard → List QueryResult → Prop
  | nil : Ran remote [] [] []
  | cons {statement : Statement} {raw : RawResult} {result : QueryResult} {statements : List Statement}
      {calls : List Heard} {results : List QueryResult} :
      QueryResult.ofRaw statement raw = .ok result → Ran remote statements calls results →
        Ran remote (statement :: statements) (.run remote statement (.ok raw) :: calls) (result :: results)

/-- The calls of an attempt that began and has to be rolled back, with what went wrong. -/
inductive Broken (remote : RemoteSession) (statements : List Statement) : List Heard → Failure → Prop
  /-- The engine refused a statement. -/
  | refused {done rest : List Statement} {current : Statement} {calls : List Heard} {results : List QueryResult}
      {failure : Failure} :
      statements = done ++ current :: rest → Ran remote done calls results →
        Broken remote statements (.begin remote (.ok ()) :: (calls ++ [.run remote current (.error failure)])) failure
  /-- The rows of a statement could not be decoded. -/
  | undecodable {done rest : List Statement} {current : Statement} {calls : List Heard}
      {results : List QueryResult} {raw : RawResult} {failure : Failure} :
      statements = done ++ current :: rest → Ran remote done calls results →
        QueryResult.ofRaw current raw = .error failure →
        Broken remote statements (.begin remote (.ok ()) :: (calls ++ [.run remote current (.ok raw)])) failure
  /-- The commit failed. -/
  | uncommitted {calls : List Heard} {results : List QueryResult} {failure : Failure} :
      Ran remote statements calls results →
        Broken remote statements (.begin remote (.ok ()) :: (calls ++ [.commit remote (.error failure)])) failure

/-- The calls of an attempt, with what came of it. -/
inductive Attempt (remote : RemoteSession) (statements : List Statement) :
    List Heard → TransactionRun.Outcome → Prop
  | notBegun {failure : Failure} : Attempt remote statements [.begin remote (.error failure)] (.error failure)
  | rolledBack {calls : List Heard} {failure : Failure} {reply : Except Failure Unit} :
      Broken remote statements calls failure →
        Attempt remote statements (calls ++ [.rollback remote reply]) (.error failure)
  | committed {calls : List Heard} {results : List QueryResult} :
      Ran remote statements calls results →
        Attempt remote statements (.begin remote (.ok ()) :: (calls ++ [.commit remote (.ok ())])) (.ok results)

theorem Ran.concat {remote : RemoteSession} {statements : List Statement} {calls : List Heard}
    {results : List QueryResult} {statement : Statement} {raw : RawResult} {result : QueryResult}
    (h : Ran remote statements calls results) (hresult : QueryResult.ofRaw statement raw = .ok result) :
    Ran remote (statements ++ [statement]) (calls ++ [.run remote statement (.ok raw)]) (results ++ [result]) := by
  induction h with
  | nil => exact .cons hresult .nil
  | cons hfirst _ ih => exact .cons hfirst ih

theorem QueryResult.statement_of_ofRaw {statement : Statement} {raw : RawResult} {result : QueryResult}
    (h : ofRaw statement raw = .ok result) : result.statement = statement := by
  unfold ofRaw at h
  cases hstatistics : QueryStatistics.ofResult statement raw with
  | error e => simp [hstatistics, Except.map] at h
  | ok statistics =>
    simp only [hstatistics, Except.map, Except.ok.injEq] at h
    rw [← h]

/-- There is one result for each statement, in order. -/
theorem Ran.statements_eq {remote : RemoteSession} {statements : List Statement} {calls : List Heard}
    {results : List QueryResult} (h : Ran remote statements calls results) :
    results.map QueryResult.statement = statements := by
  induction h with
  | nil => rfl
  | cons hresult _ ih => rw [List.map_cons, QueryResult.statement_of_ofRaw hresult, ih]

theorem Attempt.statements_eq {remote : RemoteSession} {statements : List Statement} {calls : List Heard}
    {results : List QueryResult} (h : Attempt remote statements calls (.ok results)) :
    results.map QueryResult.statement = statements := by
  cases h with
  | committed hran => exact hran.statements_eq

/-! ## Attempts that are retried -/

namespace Transaction

/-- Attempts that failed in a retryable way: their calls, and what went wrong. -/
def FailedRetryably (t : Transaction) (policy : RetryPolicy) (failed : List (List Heard × Failure)) : Prop :=
  ∀ a ∈ failed, Attempt t.session.remote t.statements a.1 (.error a.2) ∧ policy.Retryable t.substrings a.2

end Transaction

/-- What a run was told in attempts that failed, and in the delay after each. -/
def retriedCalls (policy : RetryPolicy) (failed : List (List Heard × Failure)) : List Heard :=
  (failed.mapIdx fun i a => a.1 ++ [.pause (policy.delay i)]).flatten

theorem retriedCalls_concat (policy : RetryPolicy) (failed : List (List Heard × Failure))
    (a : List Heard × Failure) :
    retriedCalls policy (failed ++ [a]) =
      retriedCalls policy failed ++ (a.1 ++ [.pause (policy.delay failed.length)]) := by
  simp [retriedCalls, List.mapIdx_concat]

theorem Transaction.FailedRetryably.concat {t : Transaction} {policy : RetryPolicy}
    {failed : List (List Heard × Failure)} (h : t.FailedRetryably policy failed) {calls : List Heard}
    {failure : Failure} (hattempt : Attempt t.session.remote t.statements calls (.error failure))
    (hretryable : policy.Retryable t.substrings failure) :
    t.FailedRetryably policy (failed ++ [(calls, failure)]) := by
  intro a ha
  rcases List.mem_append.1 ha with hold | hnew
  · exact h a hold
  · rw [List.mem_singleton.1 hnew]
    exact ⟨hattempt, hretryable⟩

/-! ## The invariant -/

/-- How many retries there were when a run waits at a point. -/
def TransactionRun.retries : TransactionRun → Nat
  | beginning _ retries => retries
  | running _ retries _ _ _ => retries
  | rollingBack _ retries _ => retries
  | committing _ retries _ => retries
  | backingOff _ retries _ => retries

/-- What a run was told in the present attempt until it waits at a point. -/
def Present (policy : RetryPolicy) : TransactionRun → List Heard → Prop
  | .beginning _ _, calls => calls = []
  | .running t _ results current rest, calls =>
    ∃ done ran, t.statements = done ++ current :: rest ∧ Ran t.session.remote done ran results ∧
      calls = .begin t.session.remote (.ok ()) :: ran
  | .rollingBack t _ failure, calls => Broken t.session.remote t.statements calls failure
  | .committing t _ results, calls =>
    ∃ ran, Ran t.session.remote t.statements ran results ∧ calls = .begin t.session.remote (.ok ()) :: ran
  | .backingOff t retries delay, calls =>
    retries < policy.maxRetries ∧ delay = policy.delay retries ∧
      ∃ failure, Attempt t.session.remote t.statements calls (.error failure) ∧
        policy.Retryable t.substrings failure

/-- What a run was told until it waits at a point. -/
def Told (policy : RetryPolicy) (p : TransactionRun) (heard : List Heard) : Prop :=
  ∃ failed calls, heard = retriedCalls policy failed ++ calls ∧ failed.length = p.retries ∧
    p.retries ≤ policy.maxRetries ∧ p.transaction.FailedRetryably policy failed ∧ Present policy p calls

/-- What a run was told in all, and its result.  Unless circuits are out of the question, an attempt
may not have been let through. -/
inductive Ending (policy : RetryPolicy) (t : Transaction) (circuits : Prop) :
    List Heard → TransactionRun.Outcome → Prop
  | committed {failed : List (List Heard × Failure)} {calls : List Heard} {results : List QueryResult} :
      t.FailedRetryably policy failed → failed.length ≤ policy.maxRetries →
        Attempt t.session.remote t.statements calls (.ok results) →
        Ending policy t circuits (retriedCalls policy failed ++ calls) (.ok results)
  | stopped {failed : List (List Heard × Failure)} {calls : List Heard} {failure : Failure} :
      t.FailedRetryably policy failed → failed.length ≤ policy.maxRetries →
        Attempt t.session.remote t.statements calls (.error failure) →
        ¬policy.Retryable t.substrings failure →
        Ending policy t circuits (retriedCalls policy failed ++ calls) (.error failure)
  | exhausted {failed : List (List Heard × Failure)} {calls : List Heard} {failure : Failure} :
      t.FailedRetryably policy failed → failed.length = policy.maxRetries →
        Attempt t.session.remote t.statements calls (.error failure) →
        policy.Retryable t.substrings failure →
        Ending policy t circuits (retriedCalls policy failed ++ calls)
          (.error (.retriesExhausted t.id.text (policy.maxRetries + 1) failure))
  | notAdmitted {failed : List (List Heard × Failure)} :
      circuits → t.FailedRetryably policy failed → failed.length ≤ policy.maxRetries →
        Ending policy t circuits (retriedCalls policy failed) (.error (.circuitOpen t.id.breakerKey))

/-- What a run was told, wherever it stands. -/
def Follows (policy : RetryPolicy) (t : Transaction) (circuits : Prop) :
    Progress TransactionRun TransactionRun.Outcome → List Heard → Prop
  | .waiting p, heard => p.transaction = t ∧ Told policy p heard
  | .finished outcome, heard => Ending policy t circuits heard outcome

/-! ## Steps keep the grammar -/

namespace Follows

variable {policy : RetryPolicy} {t : Transaction} {circuits : Prop} {failed : List (List Heard × Failure)}
  {calls : List Heard} {r : Relay}

theorem attempt (hfailed : t.FailedRetryably policy failed) (hmax : failed.length ≤ policy.maxRetries)
    (hadmitted : circuits ∨ (r.canExecute t.id.breakerKey).2 = true) :
    Follows policy t circuits (TransactionRun.attempt t failed.length r).2 (retriedCalls policy failed) := by
  rw [TransactionRun.attempt_snd]
  split
  · refine ⟨rfl, failed, [], ?_, rfl, hmax, hfailed, rfl⟩
    rw [List.append_nil]
  · rename_i hrefused
    rcases hadmitted with hcircuits | hpass
    · exact .notAdmitted hcircuits hfailed hmax
    · exact absurd hpass hrefused

theorem next (hfailed : t.FailedRetryably policy failed) (hmax : failed.length ≤ policy.maxRetries)
    {done rest : List Statement} {results : List QueryResult} (hstatements : t.statements = done ++ rest)
    (hran : Ran t.session.remote done calls results) :
    Follows policy t circuits (TransactionRun.next t failed.length results rest r).2
      (retriedCalls policy failed ++ .begin t.session.remote (.ok ()) :: calls) := by
  rw [TransactionRun.next_snd]
  cases rest with
  | nil =>
    rw [List.append_nil] at hstatements
    exact ⟨rfl, failed, _, rfl, rfl, hmax, hfailed, calls, hstatements ▸ hran, rfl⟩
  | cons current rest => exact ⟨rfl, failed, _, rfl, rfl, hmax, hfailed, done, calls, hstatements, hran, rfl⟩

theorem rollBack (hfailed : t.FailedRetryably policy failed) (hmax : failed.length ≤ policy.maxRetries)
    {failure : Failure} (hbroken : Broken t.session.remote t.statements calls failure) :
    Follows policy t circuits (TransactionRun.rollBack t failed.length failure r).2
      (retriedCalls policy failed ++ calls) :=
  ⟨rfl, failed, calls, rfl, rfl, hmax, hfailed, hbroken⟩

theorem afterFailure (hpolicy : r.settings.retry = policy) (hfailed : t.FailedRetryably policy failed)
    (hmax : failed.length ≤ policy.maxRetries) {failure : Failure}
    (hattempt : Attempt t.session.remote t.statements calls (.error failure)) :
    Follows policy t circuits (TransactionRun.afterFailure t failed.length failure r).2
      (retriedCalls policy failed ++ calls) := by
  have hcases := TransactionRun.afterFailure_cases t failed.length r failure
  rw [hpolicy, RetryPolicy.isRetryable_iff, RetryPolicy.isRetryable_eq_false_iff] at hcases
  rcases hcases with ⟨hnot, hnext⟩ | ⟨hretryable, hspent, hnext⟩ | ⟨hretryable, hleft, hnext⟩
  · rw [hnext]
    exact .stopped hfailed hmax hattempt hnot
  · have hlength : failed.length = policy.maxRetries := Nat.le_antisymm hmax hspent
    rw [hnext, hlength]
    exact .exhausted hfailed hlength hattempt hretryable
  · rw [hnext]
    exact ⟨rfl, failed, calls, rfl, rfl, hmax, hfailed, hleft, rfl, failure, hattempt, hretryable⟩

/-- **A step keeps the grammar.**  Whatever a run is told at the end of a wait, what it was told so far
goes with the point at which it then waits, or with its result. -/
theorem resume {p : TransactionRun} {heard : List Heard} (hpolicy : r.settings.retry = policy)
    (h : Told policy p heard) (answer : p.wait.Answer)
    (hadmitted : circuits ∨ (r.canExecute p.transaction.id.breakerKey).2 = true) :
    Follows policy p.transaction circuits (p.resume answer r).2 (heard ++ [⟨p.wait, answer⟩]) := by
  obtain ⟨failed, calls, rfl, hlength, hmax, hfailed, hpresent⟩ := h
  rw [← hlength] at hmax
  rw [List.append_assoc]
  cases p with
  | beginning t retries =>
    cases hlength
    cases hpresent
    cases answer with
    | ok reply => exact next hfailed hmax (List.nil_append _).symm .nil
    | error e => exact afterFailure hpolicy hfailed hmax .notBegun
  | running t retries results current rest =>
    cases hlength
    obtain ⟨done, ran, hstatements, hran, rfl⟩ := hpresent
    cases answer with
    | ok raw =>
      cases hresult : QueryResult.ofRaw current raw with
      | ok result =>
        simp only [TransactionRun.resume, hresult]
        refine next hfailed hmax ?_ (hran.concat hresult)
        show t.statements = done ++ [current] ++ rest
        rw [hstatements, List.append_assoc]
        rfl
      | error e =>
        simp only [TransactionRun.resume, hresult]
        exact rollBack hfailed hmax (.undecodable hstatements hran hresult)
    | error e => exact rollBack hfailed hmax (.refused hstatements hran)
  | rollingBack t retries e =>
    cases hlength
    exact afterFailure hpolicy hfailed hmax (.rolledBack hpresent)
  | committing t retries results =>
    cases hlength
    obtain ⟨ran, hran, rfl⟩ := hpresent
    cases answer with
    | ok reply => exact .committed hfailed hmax (.committed hran)
    | error e => exact rollBack hfailed hmax (.uncommitted hran)
  | backingOff t retries delay =>
    cases hlength
    obtain ⟨hleft, rfl, failure, hattempt, hretryable⟩ := hpresent
    have hcalls := retriedCalls_concat policy failed (calls, failure)
    have hlonger : (failed ++ [(calls, failure)]).length = failed.length + 1 := by simp
    have hagain : Follows policy t circuits
        (TransactionRun.attempt t (failed ++ [(calls, failure)]).length
          (r.updateTransaction t.id fun s =>
            { s with retryCount := (failed ++ [(calls, failure)]).length }.restart)).2
        (retriedCalls policy (failed ++ [(calls, failure)])) :=
      attempt (hfailed.concat hattempt hretryable) (hlonger ▸ hleft) hadmitted
    rw [hcalls, hlonger] at hagain
    exact hagain

end Follows

/-! ## Courses keep the grammar -/

/-- Nobody else reports on a key: no circuit is made for it while the run waits. -/
def Script.Spares (script : Script) (key : String) : Prop :=
  ∀ n r, r.breaker.circuits.get? key = none → ((script n).others r).breaker.circuits.get? key = none

theorem Relay.canExecute_of_none {r : Relay} {key : String} (h : r.breaker.circuits.get? key = none) :
    (r.canExecute key).2 = true := by
  simp only [canExecute, Breaker.canExecute_of_none h]

/-- What holds all along the course of a transaction. -/
structure Course.Orderly (policy : RetryPolicy) (t : Transaction) (circuits : Prop) (c : Course) : Prop where
  governed : c.relay.settings.retry = policy
  follows : Follows policy t circuits c.progress c.heard
  clear : ∀ p, c.progress = .waiting p →
    circuits ∨ c.relay.breaker.circuits.get? t.id.breakerKey = none

namespace Course.Orderly

variable {policy : RetryPolicy} {t : Transaction} {circuits : Prop}

theorem begin {r : Relay} {session : SessionHandle} (h : r.registry.isTracked session.id = true)
    (statements : List Statement) (substrings : Option (List String))
    (hclear : circuits ∨
      r.breaker.circuits.get? (r.nextRun session statements substrings).id.breakerKey = none) :
    (Course.begin r session statements substrings).Orderly r.settings.retry
      (r.nextRun session statements substrings) circuits where
  governed := congrArg Settings.retry (TransactionRun.start_step h statements substrings).settings
  follows := by
    have hbreaker : (r.registerTransaction (.new session.id statements)).1.breaker = r.breaker :=
      congrArg TransactionSide.breaker (r.transactionSide_registerTransaction (.new session.id statements))
    simp only [Course.begin, TransactionRun.start_of_isTracked h]
    refine @Follows.attempt _ _ _ [] _ (by simp [Transaction.FailedRetryably]) (Nat.zero_le _) ?_
    refine hclear.imp id fun hnone => Relay.canExecute_of_none ?_
    rw [hbreaker, hnone]
  clear := by
    intro p hp
    refine hclear.imp id fun hnone => ?_
    have hsame := (TransactionRun.start_step h statements substrings).circuit p hp hnone
    show (TransactionRun.start r session statements substrings).1.breaker.circuits.get? _ = none
    rw [hsame, hnone]

theorem turn {c : Course} {p : TransactionRun} (hp : c.progress = .waiting p) {u : Turn}
    (hspares : circuits ∨ ∀ r : Relay, r.breaker.circuits.get? t.id.breakerKey = none →
      (u.others r).breaker.circuits.get? t.id.breakerKey = none)
    (h : c.Orderly policy t circuits) : (c.turn u).Orderly policy t circuits := by
  have hfollows := h.follows
  rw [hp] at hfollows
  obtain ⟨rfl, htold⟩ := hfollows
  have hstep := TransactionRun.resume_step (u.others c.relay) p (u.answers p.wait)
  have hnone : circuits ∨ (u.others c.relay).breaker.circuits.get? p.transaction.id.breakerKey = none := by
    rcases hspares with hcircuits | hspares
    · exact .inl hcircuits
    · exact (h.clear p hp).imp id (hspares c.relay)
  have hpolicy : (u.others c.relay).settings.retry = policy := by rw [u.settings_others, h.governed]
  rw [turn_of_waiting hp]
  refine { governed := ?_, follows := ?_, clear := ?_ }
  · exact (congrArg Settings.retry hstep.settings).trans hpolicy
  · exact Follows.resume hpolicy htold _ (hnone.imp id Relay.canExecute_of_none)
  · intro q hq
    refine hnone.imp id fun hnone => ?_
    show (p.resume (u.answers p.wait) (u.others c.relay)).1.breaker.circuits.get? _ = none
    rw [hstep.circuit q hq hnone, hnone]

/-- **Every course keeps the grammar**, at every wait and at its end.  Where no circuit guards the
transaction when it begins, and nobody else makes one, every attempt is let through. -/
theorem under {r : Relay} {session : SessionHandle} (h : r.registry.isTracked session.id = true)
    (statements : List Statement) (substrings : Option (List String)) (script : Script)
    (hclear : circuits ∨
      r.breaker.circuits.get? (r.nextRun session statements substrings).id.breakerKey = none ∧
        script.Spares (r.nextRun session statements substrings).id.breakerKey) (n : Nat) :
    ((Course.begin r session statements substrings).under script n).Orderly r.settings.retry
      (r.nextRun session statements substrings) circuits := by
  refine under_induct script (begin h statements substrings (hclear.imp id And.left)) ?_ n
  intro n c p hp hc
  exact hc.turn hp (hclear.imp id fun hspares => hspares.2 n)

end Course.Orderly

/-! ## Courses come to an end -/

namespace TransactionRun

/-- How many waits there are at most from a point on, that one included. -/
def waitsLeft (policy : RetryPolicy) : TransactionRun → Nat
  | beginning t retries => (policy.maxRetries - retries) * (t.statements.length + 4) + t.statements.length + 3
  | running t retries _ _ rest => (policy.maxRetries - retries) * (t.statements.length + 4) + rest.length + 3
  | committing t retries _ => (policy.maxRetries - retries) * (t.statements.length + 4) + 2
  | rollingBack t retries _ => (policy.maxRetries - retries) * (t.statements.length + 4) + 1
  | backingOff t retries _ => (policy.maxRetries - retries) * (t.statements.length + 4)

/-- How many waits a call has at most: in each attempt one to begin, one for each statement, one to
commit, one to roll back and one for the delay. -/
def mostWaits (policy : RetryPolicy) (t : Transaction) : Nat :=
  (policy.maxRetries + 1) * (t.statements.length + 4)

variable (policy : RetryPolicy) {t : Transaction} {retries : Nat} {r : Relay} {q : TransactionRun}

theorem waitsLeft_next {results : List QueryResult} {rest : List Statement}
    (h : (next t retries results rest r).2 = .waiting q) :
    q.waitsLeft policy = (policy.maxRetries - retries) * (t.statements.length + 4) + rest.length + 2 := by
  rw [next_snd] at h
  cases rest with
  | nil =>
    cases h
    rfl
  | cons current rest =>
    cases h
    simp only [waitsLeft, List.length_cons]
    omega

theorem waitsLeft_afterFailure {failure : Failure}
    (h : (afterFailure t retries failure r).2 = .waiting q) :
    q.waitsLeft policy = (policy.maxRetries - retries) * (t.statements.length + 4) := by
  rcases afterFailure_cases t retries r failure with ⟨-, hnext⟩ | ⟨-, -, hnext⟩ | ⟨-, -, hnext⟩
  · rw [hnext] at h
    cases h
  · rw [hnext] at h
    cases h
  · rw [hnext] at h
    cases h
    rfl

theorem waitsLeft_attempt (hleft : retries < policy.maxRetries)
    (h : (attempt t (retries + 1) r).2 = .waiting q) :
    q.waitsLeft policy < (policy.maxRetries - retries) * (t.statements.length + 4) := by
  rw [attempt_snd] at h
  split at h
  · cases h
    obtain ⟨more, hmore⟩ : ∃ more, policy.maxRetries = retries + 1 + more := ⟨_, (Nat.add_sub_cancel' hleft).symm⟩
    have hnow : policy.maxRetries - retries = more + 1 := by omega
    have hthen : policy.maxRetries - (retries + 1) = more := by omega
    rw [waitsLeft, hnow, hthen, Nat.succ_mul]
    omega
  · cases h

/-- **Every wait brings the end nearer.** -/
theorem waitsLeft_resume {p : TransactionRun} {heard : List Heard} (htold : Told policy p heard)
    (answer : p.wait.Answer) (h : (p.resume answer r).2 = .waiting q) :
    q.waitsLeft policy < p.waitsLeft policy := by
  cases p with
  | beginning t retries =>
    cases answer with
    | ok reply =>
      rw [waitsLeft_next policy h]
      simp only [waitsLeft]
      omega
    | error e =>
      rw [waitsLeft_afterFailure policy h]
      simp only [waitsLeft]
      omega
  | running t retries results current rest =>
    cases answer with
    | ok raw =>
      cases hresult : QueryResult.ofRaw current raw with
      | ok result =>
        simp only [resume, hresult] at h
        rw [waitsLeft_next policy h]
        simp only [waitsLeft]
        omega
      | error e =>
        simp only [resume, hresult] at h
        cases h
        simp only [waitsLeft]
        omega
    | error e =>
      cases h
      simp only [waitsLeft]
      omega
  | rollingBack t retries e =>
    rw [waitsLeft_afterFailure policy h]
    simp only [waitsLeft]
    omega
  | committing t retries results =>
    cases answer with
    | ok reply => cases h
    | error e =>
      cases h
      simp only [waitsLeft]
      omega
  | backingOff t retries delay =>
    obtain ⟨-, -, -, -, -, -, hleft, -⟩ := htold
    exact waitsLeft_attempt policy hleft h

end TransactionRun

namespace Course

variable {r : Relay} {session : SessionHandle}

theorem waitsLeft_under (h : r.registry.isTracked session.id = true) (statements : List Statement)
    (substrings : Option (List String)) (script : Script) (n : Nat) {p : TransactionRun}
    (hp : ((begin r session statements substrings).under script n).progress = .waiting p) :
    p.waitsLeft r.settings.retry + n <
      TransactionRun.mostWaits r.settings.retry (r.nextRun session statements substrings) := by
  induction n generalizing p with
  | zero =>
    simp only [under, begin, TransactionRun.start_of_isTracked h, TransactionRun.attempt_snd] at hp
    split at hp
    · cases hp
      simp only [TransactionRun.waitsLeft, TransactionRun.mostWaits, Nat.sub_zero, Nat.succ_mul]
      omega
    · cases hp
  | succ n ih =>
    rw [under] at hp
    cases hprogress : ((begin r session statements substrings).under script n).progress with
    | waiting q =>
      have htold := (@Orderly.under True _ _ h statements substrings script (.inl trivial) n).follows
      rw [hprogress] at htold
      rw [turn_of_waiting hprogress] at hp
      have hless := TransactionRun.waitsLeft_resume _ htold.2 _ hp
      have hbefore := ih hprogress
      omega
    | finished outcome =>
      rw [turn_of_finished hprogress, hprogress] at hp
      cases hp

/-- The course of a run that is given as many turns as it can take. -/
def whole (r : Relay) (session : SessionHandle) (statements : List Statement) (substrings : Option (List String))
    (script : Script) : Course :=
  (begin r session statements substrings).under script
    (TransactionRun.mostWaits r.settings.retry (r.nextRun session statements substrings))

/-- **Every run returns**, whatever it is told. -/
theorem whole_finished (h : r.registry.isTracked session.id = true) (statements : List Statement)
    (substrings : Option (List String)) (script : Script) :
    ∃ outcome, (whole r session statements substrings script).progress = .finished outcome := by
  cases hprogress : (whole r session statements substrings script).progress with
  | waiting p =>
    have hless := waitsLeft_under h statements substrings script _ hprogress
    omega
  | finished outcome => exact ⟨outcome, rfl⟩

end Course

end QueryRelay
