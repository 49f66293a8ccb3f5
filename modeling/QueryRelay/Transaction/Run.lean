import QueryRelay.Relay.Wait
import QueryRelay.Result.Statistics

/-!
# Running a transaction

One run takes a list of statements through as many attempts as the retry policy allows.  An attempt begins a remote
transaction, runs the statements in order and commits; when a statement or the commit fails it rolls back.  While the
run lasts its transaction is in the table; it is cleared, and its circuit forgotten, when the run ends or is dropped.
-/

namespace QueryRelay

/-- What stays the same through a run. -/
structure Transaction where
  id : TransactionId
  session : SessionHandle
  statements : List Statement
  /-- Takes the place of the policy's substrings. -/
  substrings : Option (List String)
deriving Repr, Inhabited

/-- Where a run waits; `retries` counts the retries so far. -/
inductive TransactionRun where
  | beginning (t : Transaction) (retries : Nat)
  /-- For the answer to `current`; the statements before it gave `results`, and `rest` comes after it. -/
  | running (t : Transaction) (retries : Nat) (results : List QueryResult) (current : Statement)
      (rest : List Statement)
  /-- For the rollback of an attempt that failed. -/
  | rollingBack (t : Transaction) (retries : Nat) (failure : Failure)
  | committing (t : Transaction) (retries : Nat) (results : List QueryResult)
  /-- For the delay before the next attempt. -/
  | backingOff (t : Transaction) (retries : Nat) (delay : Duration)
deriving Repr, Inhabited

namespace TransactionRun

/-- What becomes of a run. -/
abbrev Outcome := Except Failure (List QueryResult)

/-- What stays the same through the run. -/
def transaction : TransactionRun → Transaction
  | beginning t _ => t
  | running t _ _ _ _ => t
  | rollingBack t _ _ => t
  | committing t _ _ => t
  | backingOff t _ _ => t

/-- What a run waits for. -/
abbrev wait : TransactionRun → Wait
  | beginning t _ => .reply (.beginTransaction t.session.remote)
  | running t _ _ current _ => .reply (.run t.session.remote current)
  | rollingBack t _ _ => .reply (.rollback t.session.remote)
  | committing t _ _ => .reply (.commit t.session.remote)
  | backingOff _ _ delay => .pause delay

/-- Takes a transaction out of the table and forgets its circuit. -/
def leave (t : Transaction) (r : Relay) : Relay :=
  (r.clearTransaction t.id).1.withBreaker fun b => b.forget t.id.breakerKey

/-- Ends a run. -/
def finish (t : Transaction) (outcome : Outcome) (r : Relay) : Relay × Progress TransactionRun Outcome :=
  (leave t r, .finished outcome)

/-- Starts an attempt, if the transaction's circuit lets it pass. -/
def attempt (t : Transaction) (retries : Nat) (r : Relay) : Relay × Progress TransactionRun Outcome :=
  let (r, admitted) := r.canExecute t.id.breakerKey
  if admitted then (r.ask (.beginTransaction t.session.remote), .waiting (beginning t retries))
  else finish t (.error (.circuitOpen t.id.breakerKey)) r

/-- Starts a run on a session, which has to be tracked. -/
def start (r : Relay) (session : SessionHandle) (statements : List Statement) (substrings : Option (List String)) :
    Relay × Progress TransactionRun Outcome :=
  if r.registry.isTracked session.id then
    let (r, id) := r.registerTransaction (.new session.id statements)
    attempt ⟨id, session, statements, substrings⟩ 0 r
  else (r, .finished (.error (.unknownSession session.id.text)))

/-- Rolls an attempt back. -/
def rollBack (t : Transaction) (retries : Nat) (failure : Failure) (r : Relay) :
    Relay × Progress TransactionRun Outcome :=
  (r.ask (.rollback t.session.remote), .waiting (rollingBack t retries failure))

/-- Runs the next statement, or commits after the last one. -/
def next (t : Transaction) (retries : Nat) (results : List QueryResult) (rest : List Statement) (r : Relay) :
    Relay × Progress TransactionRun Outcome :=
  match rest with
  | [] => (r.ask (.commit t.session.remote), .waiting (committing t retries results))
  | current :: rest =>
    (r.ask (.run t.session.remote current), .waiting (running t retries results current rest))

/-- Takes down a failed attempt. -/
def noteFailure (t : Transaction) (retries : Nat) (failure : Failure) (r : Relay) : Relay :=
  let r := r.updateTransaction t.id fun s => s.fail failure.message retries r.now
  let r := r.bump t.session .transactionsRolledBack
  let r := r.recordError t.session failure
  r.count .transactionRollbacks [("reason", failure.kind.name), ("database", t.session.label)]

/-- The labels that go with a failure. -/
def failureLabels (t : Transaction) (failure : Failure) : Labels :=
  [("error_type", failure.kind.name), ("database", t.session.label)]

/-- Ends a run whose last attempt failed. -/
def giveUp (t : Transaction) (failure outcome : Failure) (r : Relay) : Relay × Progress TransactionRun Outcome :=
  let r := r.recordFailure t.id.breakerKey
  finish t (.error outcome) (r.count .queryErrors (failureLabels t failure))

/-- Decides what follows a failed attempt: the end, or a delay and another attempt. -/
def afterFailure (t : Transaction) (retries : Nat) (failure : Failure) (r : Relay) :
    Relay × Progress TransactionRun Outcome :=
  let r := noteFailure t retries failure r
  let policy := r.settings.retry
  if !policy.isRetryable failure t.substrings then giveUp t failure failure r
  else if policy.maxRetries ≤ retries then
    giveUp t failure (.retriesExhausted t.id.text (retries + 1) failure) r
  else
    let delay := policy.delay retries
    let r := r.count .queryRetries (failureLabels t failure)
    (r.observe .retryDelay delay.toSeconds (failureLabels t failure), .waiting (backingOff t retries delay))

/-- Takes down a statement that ran. -/
def noteResult (t : Transaction) (result : QueryResult) (r : Relay) : Relay :=
  let labels := [("database", t.session.label)]
  let r := (result.statistics.emissions labels).foldl (fun r e => r.note (.reported e)) r
  (r.count .queriesExecuted labels).bump t.session .queriesExecuted

/-- Ends a run that committed. -/
def afterCommit (t : Transaction) (results : List QueryResult) (r : Relay) :
    Relay × Progress TransactionRun Outcome :=
  let r := r.updateTransaction t.id TransactionState.commit
  let r := r.recordSuccess t.id.breakerKey
  let r := r.bump t.session .transactionsCommitted
  finish t (.ok results) (r.count .transactionCommits [("database", t.session.label)])

/-- Goes on when the wait is over. -/
def resume : (p : TransactionRun) → p.wait.Answer → Relay → Relay × Progress TransactionRun Outcome
  | beginning t retries, .ok _, r =>
    let r := r.bump t.session .transactionsStarted
    next t retries [] t.statements (r.count .transactionsStarted [("database", t.session.label)])
  | beginning t retries, .error e, r => afterFailure t retries e r
  | running t retries results current rest, .ok raw, r =>
    match QueryResult.ofRaw current raw with
    | .ok result => next t retries (results ++ [result]) rest (noteResult t result r)
    | .error e => rollBack t retries e r
  | running t retries _ _ _, .error e, r => rollBack t retries e r
  | rollingBack t retries e, _, r => afterFailure t retries e r
  | committing t _ results, .ok _, r => afterCommit t results r
  | committing t retries _, .error e, r => rollBack t retries e r
  | backingOff t retries _, _, r =>
    attempt t (retries + 1)
      (r.updateTransaction t.id fun s => { s with retryCount := retries + 1 }.restart)

/-- Gives up a run that waits. -/
def drop (p : TransactionRun) (r : Relay) : Relay := leave p.transaction r

end TransactionRun

end QueryRelay
