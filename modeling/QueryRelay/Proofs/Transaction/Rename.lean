import QueryRelay.Proofs.Transaction.Balance
import QueryRelay.Proofs.Transaction.Book

/-!
# Runs under other identifiers

The identifier of a transaction is given out when its run begins, and so it depends on who began before.  Nothing that
a run does depends on it, but for the failure of a run that has no retries left, which names it.

* `TransactionRun.withId` — the same point of a run, under another identifier.
* `TransactionRun.Outcome.Renamed`, `TransactionRun.Renamed` — results, and what a step leads to, that differ by the
  identifier only.
* `Counted` — from one relay to another, nothing changes at sessions but what is counted for them.
* `TransactionRun.Parallel` — two steps on two relays, by runs that differ by the identifier only: they ask for the same
  and count the same.
* `TransactionRun.resume_parallel`, `TransactionRun.start_parallel` — **steps of such runs are parallel**, whatever else
  is different on the two relays.
-/

namespace QueryRelay

/-! ## Other identifiers -/

/-- The same transaction under another identifier. -/
def Transaction.withId (t : Transaction) (id : TransactionId) : Transaction := { t with id := id }

namespace TransactionRun

/-- The same point of a run under another identifier. -/
def withId (id : TransactionId) : TransactionRun → TransactionRun
  | beginning t retries => beginning (t.withId id) retries
  | running t retries results current rest => running (t.withId id) retries results current rest
  | rollingBack t retries failure => rollingBack (t.withId id) retries failure
  | committing t retries results => committing (t.withId id) retries results
  | backingOff t retries delay => backingOff (t.withId id) retries delay

variable (id : TransactionId) (p : TransactionRun)

@[simp] theorem transaction_withId : (p.withId id).transaction = p.transaction.withId id := by
  cases p <;> rfl

@[simp] theorem wait_withId : (p.withId id).wait = p.wait := by
  cases p <;> rfl

/-- Who answers waits gives both the same answer. -/
theorem heq_answer (answers : Answers) : HEq (answers (p.withId id).wait) (answers p.wait) :=
  congr_arg_heq answers (p.wait_withId id)

theorem heard_withId (answers : Answers) :
    (⟨(p.withId id).wait, answers (p.withId id).wait⟩ : Heard) = ⟨p.wait, answers p.wait⟩ := by
  rw [Heard.mk.injEq]
  exact ⟨p.wait_withId id, p.heq_answer id answers⟩

variable {id p} in
/-- What is taken down does not depend on the identifier. -/
theorem entries_withId (policy : RetryPolicy) {answer : p.wait.Answer} {answer' : (p.withId id).wait.Answer}
    (h : HEq answer' answer) : (p.withId id).entries policy answer' = p.entries policy answer := by
  cases p <;>
    · obtain rfl := eq_of_heq h
      cases answer' <;> rfl

/-- Two results that differ by the identifier only. -/
inductive Outcome.Renamed (id id' : TransactionId) : Outcome → Outcome → Prop
  | same (outcome : Outcome) : Renamed id id' outcome outcome
  | exhausted (attempts : Nat) (failure : Failure) :
    Renamed id id' (.error (.retriesExhausted id.text attempts failure))
      (.error (.retriesExhausted id'.text attempts failure))

/-- What steps of two runs lead to that differ by the identifier only. -/
inductive Renamed (id id' : TransactionId) : Progress TransactionRun Outcome → Progress TransactionRun Outcome → Prop
  | waiting {p : TransactionRun} (h : p.transaction.id = id) : Renamed id id' (.waiting p) (.waiting (p.withId id'))
  | finished {outcome outcome' : Outcome} (h : Outcome.Renamed id id' outcome outcome') :
    Renamed id id' (.finished outcome) (.finished outcome')

theorem Renamed.awaited_eq {id id' : TransactionId} {x x' : Progress TransactionRun Outcome} (h : Renamed id id' x x') :
    awaited x' = awaited x := by
  cases h with
  | waiting _ => simp only [awaited, wait_withId]
  | finished _ => rfl

theorem afterFailure_renamed (t : Transaction) (id : TransactionId) (retries : Nat) (failure : Failure) {r r' : Relay}
    (hsettings : r'.settings = r.settings) :
    Renamed t.id id (afterFailure t retries failure r).2 (afterFailure (t.withId id) retries failure r').2 := by
  have hsubstrings : (t.withId id).substrings = t.substrings := rfl
  rw [afterFailure_snd, afterFailure_snd, hsettings, hsubstrings]
  by_cases hretryable : r.settings.retry.isRetryable failure t.substrings = false
  · rw [if_pos hretryable, if_pos hretryable]
    exact .finished (.same _)
  · rw [if_neg hretryable, if_neg hretryable]
    by_cases hmax : r.settings.retry.maxRetries ≤ retries
    · rw [if_pos hmax, if_pos hmax]
      exact .finished (.exhausted _ _)
    · rw [if_neg hmax, if_neg hmax]
      exact .waiting rfl

theorem next_renamed (t : Transaction) (id : TransactionId) (retries : Nat) (results : List QueryResult)
    (rest : List Statement) (r r' : Relay) :
    Renamed t.id id (next t retries results rest r).2 (next (t.withId id) retries results rest r').2 := by
  rw [next_snd, next_snd]
  cases rest with
  | nil => exact .waiting rfl
  | cons current rest => exact .waiting rfl

theorem attempt_renamed (t : Transaction) (id : TransactionId) (retries : Nat) {r r' : Relay}
    (hnone : r.book.circuit t.id = none) (hnone' : r'.book.circuit id = none) :
    Renamed t.id id (attempt t retries r).2 (attempt (t.withId id) retries r').2 := by
  rw [attempt_of_none t retries hnone, attempt_of_none (t.withId id) retries hnone']
  exact .waiting rfl

variable {id p} in
/-- **The identifier decides nothing.**  Two runs that differ by it, and are told the same, come to the same, if both
relays have the same settings and neither has a circuit for its run. -/
theorem resume_renamed {answer : p.wait.Answer} {answer' : (p.withId id).wait.Answer} (h : HEq answer' answer)
    {r r' : Relay} (hsettings : r'.settings = r.settings) (hnone : r.book.circuit p.transaction.id = none)
    (hnone' : r'.book.circuit id = none) :
    Renamed p.transaction.id id (p.resume answer r).2 ((p.withId id).resume answer' r').2 := by
  cases p with
  | beginning t retries =>
    obtain rfl := eq_of_heq h
    cases answer' with
    | ok _ => exact next_renamed t id retries [] t.statements _ _
    | error e => exact afterFailure_renamed t id retries e hsettings
  | running t retries results current rest =>
    obtain rfl := eq_of_heq h
    cases answer' with
    | ok raw =>
      simp only [withId, resume]
      cases QueryResult.ofRaw current raw with
      | ok result => exact next_renamed t id retries _ rest _ _
      | error e => exact .waiting rfl
    | error e => exact .waiting rfl
  | rollingBack t retries e => exact afterFailure_renamed t id retries e hsettings
  | committing t retries results =>
    obtain rfl := eq_of_heq h
    cases answer' with
    | ok _ => exact .finished (.same _)
    | error e => exact .waiting rfl
  | backingOff t retries delay =>
    -- Here a circuit could tell the two apart: its key is the identifier.
    have hpasses : (r.updateTransaction t.id fun s => { s with retryCount := retries + 1 }.restart).book.circuit t.id =
        none := by
      rw [Relay.book_updateTransaction]
      exact hnone
    have hpasses' : (r'.updateTransaction id fun s => { s with retryCount := retries + 1 }.restart).book.circuit id =
        none := by
      rw [Relay.book_updateTransaction]
      exact hnone'
    exact attempt_renamed t id (retries + 1) hpasses hpasses'

end TransactionRun

/-! ## What is counted -/

/-- From one relay to another, at one moment, sessions are the same but for what is counted for them; each counter
grows by so much, up to the limit. -/
structure Counted (growth : SessionId → SessionCounter → Nat) (r r' : Relay) : Prop where
  now : r'.now = r.now
  settings : r'.settings = r.settings
  tracked : ∀ id, r'.registry.isTracked id = r.registry.isTracked id
  counters : ∀ id counter, r'.counter? id counter =
    (r.counter? id counter).map fun count => SessionCounters.raised count (growth id counter)

theorem Registry.isTracked_eq_isSome_state? (g : Registry) (id : SessionId) :
    g.isTracked id = (g.state? id).isSome := by
  rw [isTracked, Table.contains, state?, Option.isSome_map]

/-- What some entries add to the counters of sessions. -/
def LedgerEntry.growth (t : Transaction) (entries : List LedgerEntry) (id : SessionId)
    (counter : SessionCounter) : Nat :=
  if id = t.session.id then entries.countP fun e => e.counter? = some counter else 0

/-- Entries are counted. -/
theorem Enters.counted {t : Transaction} {entries : List LedgerEntry} {r r' : Relay} (h : Enters t entries r r')
    (hsettings : r'.settings = r.settings) : Counted (LedgerEntry.growth t entries) r r' where
  now := h.now
  settings := hsettings
  tracked := by
    intro id
    rw [Registry.isTracked_eq_isSome_state?, Registry.isTracked_eq_isSome_state?, h.states, Option.isSome_map]
  counters := by
    intro id counter
    rw [Relay.counter?, Relay.counter?, h.states, Option.map_map, Option.map_map]
    refine congrArg (fun change => (r.registry.state? id).map change) (funext fun s => ?_)
    by_cases hid : id = t.session.id
    · simp [hid, LedgerEntry.growth, LedgerEntry.get_counters_effects]
    · simp [hid, LedgerEntry.growth]

/-! ## Parallel steps -/

namespace TransactionRun

/-- Two steps, each on a relay of its own, that ask for the same, count the same and lead to the same, but for the
identifiers. -/
structure Parallel (id id' : TransactionId) (r r' : Relay) (s s' : Relay × Progress TransactionRun Outcome) : Prop where
  counted : ∃ growth, Counted growth r s.1 ∧ Counted growth r' s'.1
  requests : s.1.requests = r.requests ++ awaited s.2 ∧ s'.1.requests = r'.requests ++ awaited s.2
  renamed : Renamed id id' s.2 s'.2

/-- **Parallel steps.** -/
theorem resume_parallel {p : TransactionRun} {id : TransactionId} {answer : p.wait.Answer}
    {answer' : (p.withId id).wait.Answer} (h : HEq answer' answer) {r r' : Relay} (hsettings : r'.settings = r.settings)
    (hnone : r.book.circuit p.transaction.id = none) (hnone' : r'.book.circuit id = none) :
    Parallel p.transaction.id id r r' (p.resume answer r) ((p.withId id).resume answer' r') := by
  have hrenamed := resume_renamed h hsettings hnone hnone'
  have hstep := resume_step r p answer
  have hstep' := resume_step r' (p.withId id) answer'
  have hentered := resume_enters r p answer
  have hentered' := resume_enters r' (p.withId id) answer'
  rw [hsettings, entries_withId _ h, transaction_withId] at hentered'
  refine ⟨⟨LedgerEntry.growth p.transaction (p.entries r.settings.retry answer), ?_, ?_⟩, ⟨?_, ?_⟩, hrenamed⟩
  · exact hentered.counted hstep.settings
  · exact hentered'.counted hstep'.settings
  · exact hstep.requests
  · rw [hstep'.requests, hrenamed.awaited_eq]

/-- Runs that begin on the same session are parallel, if it is tracked on both relays or on neither. -/
theorem start_parallel (session : SessionHandle) (statements : List Statement) (substrings : Option (List String))
    {r r' : Relay} (htracked : r'.registry.isTracked session.id = r.registry.isTracked session.id)
    (hnone : r.book.NoCircuit) (hnone' : r'.book.NoCircuit) :
    Parallel ⟨r.nextTransaction⟩ ⟨r'.nextTransaction⟩ r r' (start r session statements substrings)
      (start r' session statements substrings) := by
  have hentered := start_enters r session statements substrings
  have hentered' := start_enters r' session statements substrings
  by_cases hbegins : r.registry.isTracked session.id = true
  · have hbegins' := htracked.trans hbegins
    have hstep := start_step hbegins statements substrings
    have hstep' := start_step hbegins' statements substrings
    have hrenamed : Renamed ⟨r.nextTransaction⟩ ⟨r'.nextTransaction⟩ (start r session statements substrings).2
        (start r' session statements substrings).2 := by
      have hpasses : ∀ {r : Relay}, r.book.NoCircuit →
          (r.registerTransaction (.new session.id statements)).1.book.circuit
            (r.nextRun session statements substrings).id = none := by
        intro r hnone
        have hbreaker : (r.registerTransaction (.new session.id statements)).1.breaker = r.breaker :=
          congrArg TransactionSide.breaker (r.transactionSide_registerTransaction (.new session.id statements))
        simp only [Relay.book, hbreaker]
        exact hnone _
      rw [start_of_isTracked hbegins, start_of_isTracked hbegins']
      exact attempt_renamed (r.nextRun session statements substrings) ⟨r'.nextTransaction⟩ 0 (hpasses hnone)
        (hpasses hnone')
    refine ⟨⟨_, hentered.counted hstep.settings, hentered'.counted hstep'.settings⟩, ⟨?_, ?_⟩, hrenamed⟩
    · exact hstep.requests
    · rw [hstep'.requests, hrenamed.awaited_eq]
  · have hstart : start r session statements substrings = (r, .finished (.error (.unknownSession session.id.text))) :=
      if_neg hbegins
    have hstart' : start r' session statements substrings =
        (r', .finished (.error (.unknownSession session.id.text))) := if_neg (htracked ▸ hbegins)
    rw [hstart] at hentered ⊢
    rw [hstart'] at hentered' ⊢
    refine ⟨⟨_, hentered.counted rfl, hentered'.counted rfl⟩, ⟨?_, ?_⟩, .finished (.same _)⟩
    · exact (List.append_nil _).symm
    · exact (List.append_nil _).symm

/-- A run that is dropped asks for nothing, and nothing is counted. -/
theorem drop_counted (p : TransactionRun) (r : Relay) :
    Counted (LedgerEntry.growth p.transaction []) r (p.drop r) ∧ (p.drop r).requests = r.requests := by
  have hside := r.transactionSide_clearTransaction p.transaction.id
  exact ⟨(drop_enters r p).counted (congrArg TransactionSide.settings hside), congrArg TransactionSide.requests hside⟩

end TransactionRun

end QueryRelay
