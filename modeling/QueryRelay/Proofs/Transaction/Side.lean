import QueryRelay.Transaction.Run

/-!
# The transaction side of a relay

A run of a transaction reads little of the relay: the retry policy and its own circuit.  What it
changes beyond its own bookkeeping is the list of requests to the engine.  A `TransactionSide` holds
these three; counters, reports and states of sessions and transactions do not show in it.

`TransactionRun.resume_step` says what a step of a run does to the transaction side: **it sends the
request that the run then waits for, and no other**; and while the run lasts it makes no circuit.
-/

namespace QueryRelay

/-- The request that a happening is. -/
def Happening.request? : Happening → Option Request
  | requested request => some request
  | _ => none

/-- What of a relay matters to a run of a transaction. -/
structure TransactionSide where
  settings : Settings
  breaker : Breaker
  /-- What the engine was asked, in this order. -/
  requests : List Request

/-- The requests to the engine, in the order in which they were sent. -/
def Relay.requests (r : Relay) : List Request := r.log.filterMap Happening.request?

/-- The transaction side of a relay. -/
def Relay.transactionSide (r : Relay) : TransactionSide := ⟨r.settings, r.breaker, r.requests⟩

/-! ## What leaves the transaction side as it is -/

namespace Relay

theorem transactionSide_note_of_none {h : Happening} (hrequest : h.request? = none) (r : Relay) :
    (r.note h).transactionSide = r.transactionSide := by
  simp [transactionSide, requests, note, hrequest]

theorem transactionSide_ask (r : Relay) (request : Request) :
    (r.ask request).transactionSide = ⟨r.settings, r.breaker, r.requests ++ [request]⟩ := by
  simp [transactionSide, requests, ask, note, Happening.request?]

@[simp] theorem transactionSide_report (r : Relay) (verb : EmissionVerb) (m : Metric) (value : Binary64)
    (labels : Labels) : (r.report verb m value labels).transactionSide = r.transactionSide :=
  transactionSide_note_of_none rfl r

@[simp] theorem transactionSide_count (r : Relay) (m : Metric) (labels : Labels) :
    (r.count m labels).transactionSide = r.transactionSide :=
  r.transactionSide_report .increment m .one labels

@[simp] theorem transactionSide_observe (r : Relay) (m : Metric) (value : Binary64) (labels : Labels) :
    (r.observe m value labels).transactionSide = r.transactionSide :=
  r.transactionSide_report .observe m value labels

@[simp] theorem transactionSide_foldl_note (emissions : List Emission) (r : Relay) :
    (emissions.foldl (fun r e => r.note (.reported e)) r).transactionSide = r.transactionSide := by
  induction emissions generalizing r with
  | nil => rfl
  | cons e rest ih =>
    rw [List.foldl_cons, ih]
    exact transactionSide_note_of_none rfl r

@[simp] theorem transactionSide_updateTransaction (r : Relay) (id : TransactionId)
    (change : TransactionState → TransactionState) :
    (r.updateTransaction id change).transactionSide = r.transactionSide := rfl

@[simp] theorem transactionSide_bump (r : Relay) (handle : SessionHandle) (counter : SessionCounter) :
    (r.bump handle counter).transactionSide = r.transactionSide := by
  unfold bump updateSession
  split <;> rfl

@[simp] theorem transactionSide_recordError (r : Relay) (handle : SessionHandle) (failure : Failure) :
    (r.recordError handle failure).transactionSide = r.transactionSide := rfl

@[simp] theorem transactionSide_registerTransaction (r : Relay) (state : TransactionState) :
    (r.registerTransaction state).1.transactionSide = r.transactionSide :=
  transactionSide_report _ _ _ _ _

@[simp] theorem transactionSide_clearTransaction (r : Relay) (id : TransactionId) :
    (r.clearTransaction id).1.transactionSide = r.transactionSide := by
  unfold clearTransaction
  split
  · exact transactionSide_report _ _ _ _ _
  · rfl

end Relay

/-- A key without a circuit is let through, and none is made for it. -/
theorem Breaker.canExecute_of_none {b : Breaker} {key : String} (h : b.circuits.get? key = none) (now : Instant) :
    b.canExecute now key = (b, true) := by
  unfold canExecute
  rw [h]

/-! ## Steps of a run -/

/-- The requests for whose answer something waits. -/
def Wait.request? : Wait → Option Request
  | reply request => some request
  | _ => none

namespace TransactionRun

/-- The request for whose answer a run waits, if it does. -/
def awaited : Progress TransactionRun Outcome → List Request
  | .waiting p => p.wait.request?.toList
  | .finished _ => []

/-- What a step that begins on some relay changes of the transaction side: the engine is asked for
what the run then waits for, and no circuit is touched while the run goes on without one. -/
structure Step (key : String) (r : Relay) (x : Relay × Progress TransactionRun Outcome) : Prop where
  settings : x.1.settings = r.settings
  requests : x.1.requests = r.requests ++ awaited x.2
  circuit : ∀ p, x.2 = .waiting p → r.breaker.circuits.get? key = none → x.1.breaker = r.breaker

namespace Step

variable {key : String} {r r' : Relay} {x : Relay × Progress TransactionRun Outcome}

/-- What comes before a step and does not show on the transaction side does not matter. -/
theorem after (hside : r'.transactionSide = r.transactionSide) (h : Step key r' x) : Step key r x := by
  simp only [Relay.transactionSide, TransactionSide.mk.injEq] at hside
  obtain ⟨hsettings, hbreaker, hrequests⟩ := hside
  refine ⟨?_, ?_, ?_⟩
  · rw [h.settings, hsettings]
  · rw [h.requests, hrequests]
  · intro p hp hnone
    rw [h.circuit p hp (hbreaker ▸ hnone), hbreaker]

theorem ask {request : Request} {p : TransactionRun} (hwait : p.wait.request? = some request) (r : Relay) :
    Step key r (r.ask request, .waiting p) := by
  have hside := r.transactionSide_ask request
  simp only [Relay.transactionSide, TransactionSide.mk.injEq] at hside
  obtain ⟨hsettings, hbreaker, hrequests⟩ := hside
  refine ⟨hsettings, ?_, fun _ _ _ => hbreaker⟩
  rw [hrequests, awaited, hwait]
  rfl

/-- At the end of a run it does not matter what became of the breaker. -/
theorem finish (t : Transaction) (outcome : Outcome) (hsettings : r'.settings = r.settings)
    (hrequests : r'.requests = r.requests) : Step key r (finish t outcome r') := by
  have hside := r'.transactionSide_clearTransaction t.id
  refine ⟨?_, ?_, fun p hp => absurd hp (by simp [TransactionRun.finish])⟩
  · rw [← hsettings]
    exact congrArg TransactionSide.settings hside
  · simp only [TransactionRun.finish, awaited, List.append_nil]
    rw [← hrequests]
    exact congrArg TransactionSide.requests hside

end Step

variable (t : Transaction) (retries : Nat) (r : Relay)

/-- An attempt begins if the circuit lets it pass; otherwise the run ends. -/
theorem attempt_snd :
    (attempt t retries r).2 =
      if (r.canExecute t.id.breakerKey).2 then .waiting (beginning t retries)
      else .finished (.error (.circuitOpen t.id.breakerKey)) := by
  unfold attempt
  dsimp only
  split <;> rfl

/-- Asking the circuit sends nothing, and makes no circuit. -/
theorem canExecute_step {x : Relay × Progress TransactionRun Outcome} {key : String}
    (h : Step key (r.canExecute key).1 x) : Step key r x := by
  refine ⟨h.settings, h.requests, fun p hp hnone => ?_⟩
  have hsame : (r.canExecute key).1.breaker = r.breaker := by
    simp only [Relay.canExecute, Breaker.canExecute_of_none hnone]
  rw [← hsame] at hnone
  rw [h.circuit p hp hnone, hsame]

theorem attempt_step : Step t.id.breakerKey r (attempt t retries r) := by
  apply canExecute_step
  unfold attempt
  dsimp only
  split
  · exact Step.ask rfl _
  · exact Step.finish t _ rfl rfl

theorem next_snd (results : List QueryResult) (rest : List Statement) :
    (next t retries results rest r).2 =
      match rest with
      | [] => .waiting (committing t retries results)
      | current :: rest => .waiting (running t retries results current rest) := by
  cases rest <;> rfl

theorem next_step (key : String) (results : List QueryResult) (rest : List Statement) :
    Step key r (next t retries results rest r) := by
  cases rest with
  | nil => exact Step.ask rfl r
  | cons current rest => exact Step.ask rfl r

theorem rollBack_step (key : String) (failure : Failure) : Step key r (rollBack t retries failure r) :=
  Step.ask rfl r

@[simp] theorem noteFailure_transactionSide (failure : Failure) :
    (noteFailure t retries failure r).transactionSide = r.transactionSide := by
  simp [noteFailure]

@[simp] theorem noteResult_transactionSide (result : QueryResult) :
    (noteResult t result r).transactionSide = r.transactionSide := by
  simp [noteResult]

/-- The three ways in which a run goes on after a failed attempt. -/
theorem afterFailure_cases (failure : Failure) :
    (r.settings.retry.isRetryable failure t.substrings = false ∧
        (afterFailure t retries failure r).2 = .finished (.error failure)) ∨
      (r.settings.retry.isRetryable failure t.substrings = true ∧ r.settings.retry.maxRetries ≤ retries ∧
        (afterFailure t retries failure r).2 =
          .finished (.error (.retriesExhausted t.id.text (retries + 1) failure))) ∨
      (r.settings.retry.isRetryable failure t.substrings = true ∧ retries < r.settings.retry.maxRetries ∧
        (afterFailure t retries failure r).2 =
          .waiting (backingOff t retries (r.settings.retry.delay retries))) := by
  have hsettings : (noteFailure t retries failure r).settings = r.settings :=
    congrArg TransactionSide.settings (noteFailure_transactionSide t retries r failure)
  unfold afterFailure
  dsimp only
  rw [hsettings]
  cases hretryable : r.settings.retry.isRetryable failure t.substrings with
  | false => exact .inl ⟨rfl, rfl⟩
  | true =>
    by_cases hmax : r.settings.retry.maxRetries ≤ retries
    · refine .inr (.inl ⟨rfl, hmax, ?_⟩)
      rw [if_neg (by simp), if_pos hmax]
      rfl
    · refine .inr (.inr ⟨rfl, Nat.lt_of_not_le hmax, ?_⟩)
      rw [if_neg (by simp), if_neg hmax]

/-- What follows a failed attempt is decided by the policy. -/
theorem afterFailure_snd (failure : Failure) :
    (afterFailure t retries failure r).2 =
      if r.settings.retry.isRetryable failure t.substrings = false then .finished (.error failure)
      else if r.settings.retry.maxRetries ≤ retries then
        .finished (.error (.retriesExhausted t.id.text (retries + 1) failure))
      else .waiting (backingOff t retries (r.settings.retry.delay retries)) := by
  rcases afterFailure_cases t retries r failure with ⟨hstop, h⟩ | ⟨hretryable, hmax, h⟩ | ⟨hretryable, hmax, h⟩
  · rw [h, if_pos hstop]
  · rw [h, if_neg (by simp [hretryable]), if_pos hmax]
  · rw [h, if_neg (by simp [hretryable]), if_neg (Nat.not_le_of_lt hmax)]

/-- A run stays with its transaction. -/
theorem transaction_of_resume {p q : TransactionRun} {answer : p.wait.Answer} {r : Relay}
    (h : (p.resume answer r).2 = .waiting q) : q.transaction = p.transaction := by
  have hafter : ∀ t retries failure, (afterFailure t retries failure r).2 = .waiting q → q.transaction = t := by
    intro t retries failure hq
    rw [afterFailure_snd] at hq
    split at hq
    · exact absurd hq (by simp)
    · split at hq
      · exact absurd hq (by simp)
      · cases hq
        rfl
  have hnext : ∀ t retries results rest (r : Relay), (next t retries results rest r).2 = .waiting q →
      q.transaction = t := by
    intro t retries results rest r hq
    rw [next_snd] at hq
    cases rest <;> cases hq <;> rfl
  cases p with
  | beginning t retries =>
    cases answer with
    | ok _ => exact hnext t retries [] t.statements _ h
    | error e => exact hafter t retries e h
  | running t retries results current rest =>
    cases answer with
    | ok raw =>
      simp only [resume] at h
      split at h
      · exact hnext t retries _ rest _ h
      · cases h
        rfl
    | error e =>
      cases h
      rfl
  | rollingBack t retries e => exact hafter t retries e h
  | committing t retries results =>
    cases answer with
    | ok _ => exact absurd h (by simp [resume, afterCommit, finish])
    | error e =>
      cases h
      rfl
  | backingOff t retries delay =>
    simp only [resume, attempt_snd] at h
    split at h
    · cases h
      rfl
    · exact absurd h (by simp)

theorem giveUp_step (key : String) (failure outcome : Failure) : Step key r (giveUp t failure outcome r) := by
  have hside := (r.recordFailure t.id.breakerKey).transactionSide_count .queryErrors (failureLabels t failure)
  exact Step.finish t _ (congrArg TransactionSide.settings hside) (congrArg TransactionSide.requests hside)

theorem afterFailure_step (key : String) (failure : Failure) :
    Step key r (afterFailure t retries failure r) := by
  refine Step.after (noteFailure_transactionSide t retries r failure) ?_
  unfold afterFailure
  dsimp only
  split
  · exact giveUp_step t _ key failure failure
  · split
    · exact giveUp_step t _ key failure _
    · refine Step.after ?_ ⟨rfl, (List.append_nil _).symm, fun _ _ _ => rfl⟩
      simp

theorem afterCommit_step (key : String) (results : List QueryResult) :
    Step key r (afterCommit t results r) := by
  unfold afterCommit
  dsimp only
  have hside := Relay.transactionSide_count
    (((r.updateTransaction t.id TransactionState.commit).recordSuccess t.id.breakerKey).bump t.session
      .transactionsCommitted) .transactionCommits [("database", t.session.label)]
  rw [Relay.transactionSide_bump] at hside
  exact Step.finish t _ (congrArg TransactionSide.settings hside) (congrArg TransactionSide.requests hside)

/-- **A step of a run.**  Whatever the run is told, it asks the engine for what it then waits for, and
for nothing else. -/
theorem resume_step (p : TransactionRun) (answer : p.wait.Answer) :
    Step p.transaction.id.breakerKey r (p.resume answer r) := by
  cases p with
  | beginning t retries =>
    cases answer with
    | ok _ => exact (next_step t retries _ _ [] t.statements).after (by simp)
    | error e => exact afterFailure_step t retries r _ e
  | running t retries results current rest =>
    cases answer with
    | ok raw =>
      simp only [resume]
      split
      · exact (next_step t retries _ _ _ rest).after (by simp)
      · exact rollBack_step t retries r _ _
    | error e => exact rollBack_step t retries r _ e
  | rollingBack t retries e => exact afterFailure_step t retries r _ e
  | committing t retries results =>
    cases answer with
    | ok _ => exact afterCommit_step t r _ results
    | error e => exact rollBack_step t retries r _ e
  | backingOff t retries delay => exact (attempt_step t (retries + 1) _).after (by simp)

end TransactionRun

/-! ### The beginning of a run -/

/-- The transaction that a run begins on a relay. -/
def Relay.nextRun (r : Relay) (session : SessionHandle) (statements : List Statement)
    (substrings : Option (List String)) : Transaction :=
  ⟨⟨r.nextTransaction⟩, session, statements, substrings⟩

namespace TransactionRun

variable {r : Relay} {session : SessionHandle}

/-- A run on a tracked session begins with an attempt. -/
theorem start_of_isTracked (h : r.registry.isTracked session.id = true) (statements : List Statement)
    (substrings : Option (List String)) :
    start r session statements substrings =
      attempt (r.nextRun session statements substrings) 0
        (r.registerTransaction (.new session.id statements)).1 := by
  unfold start
  rw [if_pos h]
  rfl

theorem start_step (h : r.registry.isTracked session.id = true) (statements : List Statement)
    (substrings : Option (List String)) :
    Step (r.nextRun session statements substrings).id.breakerKey r (start r session statements substrings) := by
  rw [start_of_isTracked h]
  exact (attempt_step _ 0 _).after (r.transactionSide_registerTransaction _)

end TransactionRun

end QueryRelay
