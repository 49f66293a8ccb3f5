import QueryRelay.Proofs.Transaction.Alone

/-!
# Begun, committed and rolled back

A session counts the transactions that were begun on it, those that committed and those that were rolled back.  What was
begun and has not ended yet is in flight.  But an attempt to begin that the engine refuses is counted too: nothing was
begun, and yet it goes down as rolled back.

* `TransactionRun.resume_tally` — what one step of a run counts, with the attempt that is open before and after it.
* `Tallied` — the invariant of a run: **what was begun, and the attempts that were refused, are what ended and what is
  still open**; `Tallied.step` is one move.
* `inBalance_iff_refusals_eq_zero` — once no transaction is in flight, the counters of a session are in balance exactly
  if no attempt was refused.
* `rolledBack_counts_refusal` — the transaction that was refused.
-/

namespace QueryRelay

/-- As many transactions were begun as committed and were rolled back. -/
def SessionCounters.InBalance (c : SessionCounters) : Prop :=
  c.transactionsStarted = c.transactionsCommitted + c.transactionsRolledBack
deriving Decidable

/-! ## Attempts that are open -/

namespace TransactionRun

/-- The attempts of a run that were begun and have not ended; there is one at most. -/
def openAttempts : TransactionRun → Nat
  | beginning _ _ => 0
  | running _ _ _ _ _ => 1
  | rollingBack _ _ _ => 1
  | committing _ _ _ => 1
  | backingOff _ _ _ => 0

/-- The attempts that the engine refuses to begin at the end of a wait; there is one at most. -/
def refusals : (p : TransactionRun) → p.wait.Answer → Nat
  | beginning _ _, .ok _ => 0
  | beginning _ _, .error _ => 1
  | running _ _ _ _ _, _ => 0
  | rollingBack _ _ _, _ => 0
  | committing _ _ _, _ => 0
  | backingOff _ _ _, _ => 0

end TransactionRun

/-- Whether a call is in flight. -/
def Standing.isInFlight : Standing → Bool
  | waiting _ _ => true
  | _ => false

/-- The attempts on a session that a call began and that have not ended. -/
def Standing.openAttempts (id : SessionId) : Standing → Nat
  | waiting (.transacting p) _ => if id = p.transaction.session.id then p.openAttempts else 0
  | _ => 0

namespace Exchange

/-- The attempts on a session that the engine refuses to begin in one move. -/
def refusalsIn (x : Exchange) (id : SessionId) : Move → Nat
  | .resume i answers =>
    match x.calls[i]? with
    | some (.waiting (.transacting p) _) =>
      if id = p.transaction.session.id then p.refusals (answers p.wait) else 0
    | _ => 0
  | _ => 0

/-- The attempts on a session that the engine refuses to begin in some moves. -/
def refusals (x : Exchange) (id : SessionId) : List Move → Nat
  | [] => 0
  | m :: rest =>
    match x.apply m with
    | some y => x.refusalsIn id m + y.refusals id rest
    | none => 0

/-- The attempts on a session that are open in the calls from some place on. -/
def openAttempts (x : Exchange) (first : Nat) (id : SessionId) : Nat :=
  ((x.calls.drop first).map (Standing.openAttempts id)).sum

end Exchange

/-! ## One step of a run -/

/-- How often some entries raise a counter. -/
def LedgerEntry.tally (counter : SessionCounter) (entries : List LedgerEntry) : Nat :=
  entries.countP fun e => e.counter? = some counter

namespace TransactionRun

open LedgerEntry (tally)

/-- The attempts that are open after a step. -/
def openAttemptsAfter : Progress TransactionRun Outcome → Nat
  | .waiting p => p.openAttempts
  | .finished _ => 0

variable (t : Transaction) (retries : Nat) (r : Relay)

@[simp] theorem openAttemptsAfter_next (results : List QueryResult) (rest : List Statement) :
    openAttemptsAfter (next t retries results rest r).2 = 1 := by
  cases rest <;> rfl

@[simp] theorem openAttemptsAfter_attempt : openAttemptsAfter (attempt t retries r).2 = 0 := by
  rw [attempt_snd]
  split <;> rfl

@[simp] theorem openAttemptsAfter_afterFailure (failure : Failure) :
    openAttemptsAfter (afterFailure t retries failure r).2 = 0 := by
  rcases afterFailure_cases t retries r failure with ⟨-, hnext⟩ | ⟨-, -, hnext⟩ | ⟨-, -, hnext⟩ <;> rw [hnext] <;> rfl

/-- A failed attempt is counted as rolled back, once. -/
theorem tally_failureEntries (policy : RetryPolicy) (failure : Failure) (counter : SessionCounter) :
    tally counter (failureEntries policy t retries failure) = if counter = .transactionsRolledBack then 1 else 0 := by
  unfold failureEntries
  split
  · cases counter <;> rfl
  · split <;> cases counter <;> rfl

/-- **The tally of one step.**  What was begun or was open, or was refused, has ended or is open now. -/
theorem resume_tally (p : TransactionRun) (answer : p.wait.Answer) :
    tally .transactionsStarted (p.entries r.settings.retry answer) + p.openAttempts + p.refusals answer =
      tally .transactionsCommitted (p.entries r.settings.retry answer) +
        tally .transactionsRolledBack (p.entries r.settings.retry answer) +
        openAttemptsAfter (p.resume answer r).2 := by
  cases p with
  | beginning t retries =>
    cases answer with
    | ok _ => simp [entries, resume, tally, LedgerEntry.counter?, openAttempts, refusals]
    | error e => simp [entries, resume, tally_failureEntries, openAttempts, refusals]
  | running t retries results current rest =>
    cases answer with
    | ok raw =>
      simp only [entries, resume]
      cases QueryResult.ofRaw current raw with
      | ok _ => simp [tally, LedgerEntry.counter?, openAttempts, refusals]
      | error _ => rfl
    | error _ => rfl
  | rollingBack t retries e => simp [entries, resume, tally_failureEntries, openAttempts, refusals]
  | committing t retries results =>
    cases answer with
    | ok _ => rfl
    | error _ => rfl
  | backingOff t retries delay => simp [entries, resume, tally, openAttempts, refusals]

end TransactionRun

/-! ## Calls -/

namespace Standing

variable (id : SessionId)

theorem openAttempts_after {t : Transaction} {s : Relay × Progress TransactionRun TransactionRun.Outcome}
    (hsame : ∀ q, s.2 = .waiting q → q.transaction = t) :
    (Standing.after (Call.lift .transacting .results s)).openAttempts id =
      if id = t.session.id then TransactionRun.openAttemptsAfter s.2 else 0 := by
  obtain ⟨r, progress⟩ := s
  cases progress with
  | waiting q =>
    obtain rfl := hsame q rfl
    rfl
  | finished outcome => exact (ite_self 0).symm

/-- **The tally of one call**, for a session, when it goes on. -/
theorem tally_resume (p : TransactionRun) (since : Instant) (answer : p.wait.Answer) (r : Relay) :
    let grown := LedgerEntry.growth p.transaction (p.entries r.settings.retry answer) id
    grown .transactionsStarted + (Standing.waiting (.transacting p) since).openAttempts id +
        (if id = p.transaction.session.id then p.refusals answer else 0) =
      grown .transactionsCommitted + grown .transactionsRolledBack +
        (Standing.after (Call.lift .transacting .results (p.resume answer r))).openAttempts id := by
  rw [openAttempts_after id fun q hq => TransactionRun.transaction_of_resume hq]
  by_cases hid : id = p.transaction.session.id
  · simp only [LedgerEntry.growth, openAttempts, if_pos hid]
    exact p.resume_tally r answer
  · simp only [LedgerEntry.growth, openAttempts, if_neg hid]

/-- A call has begun nothing yet when it starts. -/
theorem openAttempts_start (r : Relay) (session : SessionHandle) (statements : List Statement)
    (substrings : Option (List String)) :
    (Standing.after (Call.lift .transacting .results
      (TransactionRun.start r session statements substrings))).openAttempts id = 0 := by
  by_cases htracked : r.registry.isTracked session.id = true
  · rw [TransactionRun.start_of_isTracked htracked, openAttempts_after (t := r.nextRun session statements substrings)]
    · simp
    · intro q hq
      rw [TransactionRun.attempt_snd] at hq
      split at hq <;> cases hq
      rfl
  · rw [TransactionRun.start, if_neg htracked]
    rfl

end Standing

namespace TransactionRun

theorem resume_counted (p : TransactionRun) (answer : p.wait.Answer) (r : Relay) :
    Counted (LedgerEntry.growth p.transaction (p.entries r.settings.retry answer)) r (p.resume answer r).1 :=
  (resume_enters r p answer).counted (resume_step r p answer).settings

theorem start_counted (r : Relay) (session : SessionHandle) (statements : List Statement)
    (substrings : Option (List String)) :
    Counted (LedgerEntry.growth (r.nextRun session statements substrings) []) r
      (start r session statements substrings).1 := by
  refine (start_enters r session statements substrings).counted ?_
  by_cases htracked : r.registry.isTracked session.id = true
  · exact (start_step htracked statements substrings).settings
  · rw [start, if_neg htracked]

end TransactionRun

/-! ## Runs -/

namespace Exchange

variable {x y z : Exchange} {id : SessionId} {moves : List Move} {m : Move} {first i : Nat}

theorem refusals_concat (hrun : x.run moves = some y) (hlast : y.apply m = some z) :
    x.refusals id (moves ++ [m]) = x.refusals id moves + y.refusalsIn id m := by
  induction moves generalizing x with
  | nil =>
    cases Option.some.inj hrun
    simp [refusals, hlast]
  | cons earliest rest ih =>
    obtain ⟨w, hfirst, hrest⟩ := exists_of_run_cons hrun
    simp only [List.cons_append, refusals, hfirst]
    rw [ih hrest, Nat.add_assoc]

/-- When one call goes on, its own attempts are all that makes a difference. -/
theorem openAttempts_set (id : SessionId) {s s' : Standing} (hfirst : first ≤ i) (hs : x.calls[i]? = some s)
    (hy : y.calls = x.calls.set i s') :
    y.openAttempts first id + s.openAttempts id = x.openAttempts first id + s'.openAttempts id := by
  set counts := (x.calls.drop first).map (Standing.openAttempts id) with hcounts
  have hlast : i - first < counts.length := by
    have hi := (List.getElem?_eq_some_iff.1 hs).1
    rw [hcounts, List.length_map, List.length_drop]
    omega
  have hcount : counts[i - first] = s.openAttempts id := by
    have hplace : first + (i - first) = i := by omega
    simp [hcounts, hplace, (List.getElem?_eq_some_iff.1 hs).2]
  have hset : (y.calls.drop first).map (Standing.openAttempts id) = counts.set (i - first) (s'.openAttempts id) := by
    rw [hy, List.drop_set, if_neg (by omega), List.map_set]
  have hsame : counts = counts.set (i - first) (s.openAttempts id) := by
    rw [← hcount, List.set_getElem_self]
  have hbefore : x.openAttempts first id = counts.sum := rfl
  rw [openAttempts, hset, hbefore, List.sum_set, if_pos hlast]
  conv_rhs => rw [hsame, List.sum_set, if_pos hlast]
  omega

/-- A call that has just begun has no open attempt. -/
theorem openAttempts_append {s : Standing} (hfirst : first ≤ x.calls.length) (hs : s.openAttempts id = 0)
    (hy : y.calls = x.calls ++ [s]) : y.openAttempts first id = x.openAttempts first id := by
  rw [openAttempts, hy, List.drop_append_of_le_length hfirst, List.map_append, List.sum_append]
  simp [hs, openAttempts]

end Exchange

/-- What a run of transactions has counted for a session so far. -/
structure Tallied (x : Exchange) (id : SessionId) (moves : List Move) (y : Exchange) : Prop where
  /-- Only transactions are made behind the first calls. -/
  transacting : ∀ i call since, x.calls.length ≤ i → y.calls[i]? = some (.waiting call since) →
    ∃ p, call = .transacting p
  /-- What was begun or refused has ended or is open. -/
  tally : ∃ grown : SessionCounter → Nat,
    (∀ counter, y.relay.counter? id counter =
      (x.relay.counter? id counter).map fun count => SessionCounters.raised count (grown counter)) ∧
    grown .transactionsStarted + x.refusals id moves =
      grown .transactionsCommitted + grown .transactionsRolledBack + y.openAttempts x.calls.length id

namespace Tallied

variable {x y z : Exchange} {id : SessionId} {moves : List Move} {m : Move}

theorem begin (x : Exchange) (id : SessionId) : Tallied x id [] x where
  transacting := fun i call since hi hcall =>
    absurd (List.getElem?_eq_some_iff.1 hcall).1 (Nat.not_lt_of_le hi)
  tally := by
    refine ⟨fun _ => 0, fun counter => ?_, ?_⟩
    · simp
    · simp [Exchange.refusals, Exchange.openAttempts]

theorem exists_transacting_of_after {s : Relay × Progress TransactionRun TransactionRun.Outcome} {call : Call}
    {since : Instant} (h : Standing.after (Call.lift .transacting .results s) = .waiting call since) :
    ∃ p, call = .transacting p := by
  obtain ⟨r, progress⟩ := s
  cases progress with
  | waiting p =>
    simp only [Call.lift, Progress.map, Standing.after, Standing.waiting.injEq] at h
    exact ⟨p, h.1.symm⟩
  | finished outcome => exact absurd h (by simp [Call.lift, Progress.map, Standing.after])

/-- A transaction begins: nothing is counted, and nothing is open yet. -/
theorem start (h : Tallied x id moves y) (hrun : x.run moves = some y) (session : SessionHandle)
    (statements : List Statement) (substrings : Option (List String))
    (hlast : y.apply (.start (.transact session statements substrings)) = some z) :
    Tallied x id (moves ++ [.start (.transact session statements substrings)]) z := by
  have hlength := Exchange.length_calls_le_of_run hrun
  obtain ⟨grown, hcounters, htally⟩ := h.tally
  rw [Exchange.apply, Option.some.injEq] at hlast
  subst hlast
  refine ⟨fun i call since hi hcall => ?_, grown, fun counter => ?_, ?_⟩
  · rw [List.getElem?_append] at hcall
    split at hcall
    · exact h.transacting i call since hi hcall
    · rw [List.getElem?_singleton] at hcall
      split at hcall
      · exact exists_transacting_of_after (Option.some.inj hcall)
      · exact absurd hcall (by simp)
  · have hcounted := (TransactionRun.start_counted y.relay session statements substrings).counters id counter
    rw [Demand.start, Call.lift, hcounted, hcounters, Option.map_map]
    simp [LedgerEntry.growth, Function.comp_def]
  · rw [Exchange.refusals_concat hrun rfl, Exchange.openAttempts_append hlength (Standing.openAttempts_start ..) rfl]
    exact htally

/-- A transaction goes on. -/
theorem resume (h : Tallied x id moves y) (hrun : x.run moves = some y) {i : Nat} (hi : x.calls.length ≤ i)
    {answers : Answers} (hlast : y.apply (.resume i answers) = some z) :
    Tallied x id (moves ++ [.resume i answers]) z := by
  obtain ⟨grown, hcounters, htally⟩ := h.tally
  obtain ⟨call, since, hcall, hz⟩ := Exchange.apply_resume hlast
  obtain ⟨p, rfl⟩ := h.transacting i call since hi hcall
  have hrelay : z.relay = (p.resume (answers p.wait) y.relay).1 := by
    rw [hz]
    rfl
  have hcalls : z.calls =
      y.calls.set i (.after (Call.lift .transacting .results (p.resume (answers p.wait) y.relay))) := by
    rw [hz]
    rfl
  have hrefusals : y.refusalsIn id (.resume i answers) =
      if id = p.transaction.session.id then p.refusals (answers p.wait) else 0 := by
    rw [Exchange.refusalsIn, hcall]
  have hcounted := p.resume_counted (answers p.wait) y.relay
  refine ⟨fun j other begun hj hother => ?_, fun counter => grown counter + LedgerEntry.growth p.transaction
    (p.entries y.relay.settings.retry (answers p.wait)) id counter, fun counter => ?_, ?_⟩
  · rw [hcalls, List.getElem?_set] at hother
    split at hother
    · split at hother
      · exact exists_transacting_of_after (Option.some.inj hother)
      · exact absurd hother (by simp)
    · exact h.transacting j other begun hj hother
  · rw [hrelay, hcounted.counters, hcounters, Option.map_map]
    simp only [Function.comp_def, SessionCounters.raised_raised]
  · have hown := Standing.tally_resume id p since (answers p.wait) y.relay
    have hopen := Exchange.openAttempts_set id hi hcall hcalls
    rw [Exchange.refusals_concat hrun hlast, hrefusals]
    dsimp only at hown ⊢
    omega

/-- **One move.** -/
theorem step (h : Tallied x id moves y) (hrun : x.run moves = some y) (hm : m.Transacts x.calls.length)
    (hkept : ∀ i, m ≠ .drop i) (hlast : y.apply m = some z) : Tallied x id (moves ++ [m]) z := by
  cases hm with
  | start session statements substrings => exact h.start hrun session statements substrings hlast
  | resume hi answers => exact h.resume hrun hi hlast
  | drop hi => exact absurd rfl (hkept _)
  | elapse span =>
    obtain ⟨grown, hcounters, htally⟩ := h.tally
    cases Option.some.inj hlast
    refine ⟨h.transacting, grown, hcounters, ?_⟩
    rw [Exchange.refusals_concat hrun rfl]
    exact htally

/-- **Every run.** -/
theorem of_run (hmoves : ∀ m ∈ moves, m.Transacts x.calls.length) (hkept : ∀ i, .drop i ∉ moves)
    (hrun : x.run moves = some y) : Tallied x id moves y := by
  induction hrun using Exchange.run_induct with
  | nil => exact begin x id
  | @snoc moves m y z hy hlast ih =>
    have hbefore : Tallied x id moves y :=
      ih (fun m' hm' => hmoves m' (List.mem_append_left _ hm')) fun i hi => hkept i (List.mem_append_left _ hi)
    have hm : m ∈ moves ++ [m] := List.mem_append_right _ List.mem_cons_self
    exact hbefore.step hy (hmoves m hm) (fun i hdrop => hkept i (hdrop ▸ hm)) hlast

end Tallied

/-! ## Once no transaction is in flight -/

/-- Below the limit, a raised count is the sum. -/
theorem SessionCounters.raised_eq_add_of_lt {count times : Nat} (h : raised count times < limit) :
    raised count times = count + times := by
  unfold raised at h ⊢
  split at h
  · rename_i hzero
    rw [if_pos hzero, hzero, Nat.add_zero]
  · rename_i hne
    have hlt : min (count + times) limit < limit := h
    rw [if_neg hne]
    show min (count + times) limit = count + times
    omega

/-- Nothing is open where no call is in flight. -/
theorem Exchange.openAttempts_eq_zero {y : Exchange} {first : Nat} {id : SessionId}
    (h : ∀ s ∈ y.calls.drop first, s.isInFlight = false) : y.openAttempts first id = 0 := by
  refine List.sum_eq_zero fun n hn => ?_
  obtain ⟨s, hs, rfl⟩ := List.mem_map.1 hn
  cases s with
  | waiting call since => exact absurd (h _ hs) (by simp [Standing.isInFlight])
  | finished result => rfl
  | dropped => rfl

/-- Moves on a session that was just opened, after which no call is in flight. -/
theorem exists_runs_of_new_session (later : List Move) (counters : SessionCounters)
    (h : ((Exchange.new {} {}).run [.start (.openSession none none), .resume 0 (.granting 7)]).map
        (fun x => (x.calls.length, (x.relay.registry.state? ⟨1⟩).map SessionState.counters,
          (x.run later).map fun y => (y.calls.all fun s => !s.isInFlight,
            (y.relay.registry.state? ⟨1⟩).map SessionState.counters))) =
      some (1, some {}, some (true, some counters))) :
    ∃ x y s s', (Exchange.new {} {}).run [.start (.openSession none none), .resume 0 (.granting 7)] = some x ∧
      x.run later = some y ∧ x.calls.length = 1 ∧ x.relay.registry.state? ⟨1⟩ = some s ∧ s.counters.InBalance ∧
      y.relay.registry.state? ⟨1⟩ = some s' ∧ s'.counters = counters ∧
      ∀ s ∈ y.calls.drop x.calls.length, s.isInFlight = false := by
  obtain ⟨x, hx, hboth⟩ := Option.map_eq_some_iff.1 h
  simp only [Prod.mk.injEq, Option.map_eq_some_iff] at hboth
  obtain ⟨hlength, ⟨s, hs, hnothing⟩, y, hy, hended, s', hs', hcounters⟩ := hboth
  refine ⟨x, y, s, s', hx, hy, hlength, hs, by rw [hnothing]; decide, hs', hcounters, fun other hother => ?_⟩
  simpa using List.all_eq_true.1 hended other (List.mem_of_mem_drop hother)

/-- **What is counted as rolled back.**  However transactions on a session are interleaved, with one another and with
those on other sessions, its transactions that were begun, and the attempts that were refused, are those that committed
or were rolled back, and those that are open.  So once no call is in flight the counters of the session are in balance
exactly if no attempt was refused. -/
theorem inBalance_iff_refusals_eq_zero {x y : Exchange} {later : List Move} {id : SessionId} {s s' : SessionState}
    (hlater : ∀ m ∈ later, m.Transacts x.calls.length) (hkept : ∀ i, .drop i ∉ later) (hy : x.run later = some y)
    (hs : x.relay.registry.state? id = some s) (hbefore : s.counters.InBalance)
    (hs' : y.relay.registry.state? id = some s')
    (hlimit : ∀ counter, s'.counters.get counter < SessionCounters.limit) :
    s'.counters.transactionsStarted + x.refusals id later =
        s'.counters.transactionsCommitted + s'.counters.transactionsRolledBack +
          y.openAttempts x.calls.length id ∧
      ((∀ s ∈ y.calls.drop x.calls.length, s.isInFlight = false) →
        (s'.counters.InBalance ↔ x.refusals id later = 0)) := by
  have htallied : Tallied x id later y := .of_run hlater hkept hy
  obtain ⟨grown, hcounters, htally⟩ := htallied.tally
  have hgrown : ∀ counter, s'.counters.get counter = s.counters.get counter + grown counter := by
    intro counter
    have hraised := hcounters counter
    rw [Relay.counter?, Relay.counter?, hs, hs', Option.map_some, Option.map_some, Option.map_some,
      Option.some.injEq] at hraised
    have hbelow := hlimit counter
    rw [hraised] at hbelow ⊢
    exact SessionCounters.raised_eq_add_of_lt hbelow
  have hstarted := hgrown .transactionsStarted
  have hcommitted := hgrown .transactionsCommitted
  have hrolledBack := hgrown .transactionsRolledBack
  simp only [SessionCounters.get] at hstarted hcommitted hrolledBack
  unfold SessionCounters.InBalance at hbefore ⊢
  have htotal : s'.counters.transactionsStarted + x.refusals id later =
      s'.counters.transactionsCommitted + s'.counters.transactionsRolledBack + y.openAttempts x.calls.length id := by
    omega
  refine ⟨htotal, fun hquiet => ?_⟩
  rw [Exchange.openAttempts_eq_zero hquiet] at htotal
  constructor
  · intro hbalance
    omega
  · intro hnone
    omega

/-- Two transactions on a session: the first is refused once and then commits, the second commits while the first
waits to try again.  Two were begun and committed, and one is counted as rolled back. -/
theorem inBalance_iff_refusals_eq_zero_of_two :
    ∃ (earlier later : List Move) (x y : Exchange) (s' : SessionState),
      earlier = [.start (.openSession none none), .resume 0 (.granting 7)] ∧
      later =
        [.start (.transact ⟨⟨1⟩, none, ⟨7⟩⟩ [] none), .start (.transact ⟨⟨1⟩, none, ⟨7⟩⟩ [] none),
          .resume 1 (.refusing (.transientRemote .sessionExpired "gone")), .resume 2 (.granting 7),
          .resume 2 (.granting 7), .elapse (.ofWholeSeconds 1), .resume 1 (.granting 7), .resume 1 (.granting 7),
          .resume 1 (.granting 7)] ∧
      (Exchange.new {} {}).run earlier = some x ∧ x.run later = some y ∧
      y.relay.registry.state? ⟨1⟩ = some s' ∧ s'.counters = ⟨0, 2, 2, 1⟩ ∧
      s'.counters.transactionsStarted + x.refusals ⟨1⟩ later =
        s'.counters.transactionsCommitted + s'.counters.transactionsRolledBack + y.openAttempts x.calls.length ⟨1⟩ ∧
      (s'.counters.InBalance ↔ x.refusals ⟨1⟩ later = 0) := by
  obtain ⟨later, hlater⟩ : ∃ later : List Move, later =
      [.start (.transact ⟨⟨1⟩, none, ⟨7⟩⟩ [] none), .start (.transact ⟨⟨1⟩, none, ⟨7⟩⟩ [] none),
        .resume 1 (.refusing (.transientRemote .sessionExpired "gone")), .resume 2 (.granting 7),
        .resume 2 (.granting 7), .elapse (.ofWholeSeconds 1), .resume 1 (.granting 7), .resume 1 (.granting 7),
        .resume 1 (.granting 7)] :=
    ⟨_, rfl⟩
  obtain ⟨x, y, s, s', hx, hy, hlength, hs, hbefore, hs', hcounters, hquiet⟩ :=
    exists_runs_of_new_session later ⟨0, 2, 2, 1⟩ (by rw [hlater]; decide +kernel)
  have htransacts : ∀ m ∈ later, m.Transacts x.calls.length := by
    rw [hlater, hlength]
    simp only [List.forall_mem_cons]
    exact ⟨.start _ _ _, .start _ _ _, .resume (by decide) _, .resume (by decide) _, .resume (by decide) _, .elapse _,
      .resume (by decide) _, .resume (by decide) _, .resume (by decide) _, fun _ hm => absurd hm List.not_mem_nil⟩
  have hkept : ∀ i, .drop i ∉ later := by
    rw [hlater]
    simp
  have hlimit : ∀ counter, s'.counters.get counter < SessionCounters.limit := by
    rw [hcounters]
    intro counter
    cases counter <;> decide
  obtain ⟨htotal, hbalance⟩ := inBalance_iff_refusals_eq_zero htransacts hkept hy hs hbefore hs' hlimit
  exact ⟨_, later, x, y, s', rfl, hlater, hx, hy, hs', hcounters, htotal, hbalance hquiet⟩

/-- **A refusal is counted as rolled back**: after the only transaction on a new session could not begin, none was begun
and one was rolled back. -/
theorem rolledBack_counts_refusal :
    ¬∀ (earlier later : List Move) (x y : Exchange) (id : SessionId) (s s' : SessionState),
      (Exchange.new {} {}).run earlier = some x → (∀ m ∈ later, m.Transacts x.calls.length) →
      (∀ i, .drop i ∉ later) → x.run later = some y →
      x.relay.registry.state? id = some s → s.counters.InBalance → y.relay.registry.state? id = some s' →
      (∀ counter, s'.counters.get counter < SessionCounters.limit) →
      (∀ s ∈ y.calls.drop x.calls.length, s.isInFlight = false) → s'.counters.InBalance := by
  intro hclaim
  obtain ⟨later, hlater⟩ : ∃ later : List Move, later =
      [.start (.transact ⟨⟨1⟩, none, ⟨7⟩⟩ [] none), .resume 1 (.refusing (.remote "Neo.ClientError" "no begin"))] :=
    ⟨_, rfl⟩
  obtain ⟨x, y, s, s', hx, hy, hlength, hs, hbefore, hs', hcounters, hquiet⟩ :=
    exists_runs_of_new_session later ⟨0, 0, 0, 1⟩ (by rw [hlater]; decide +kernel)
  have htransacts : ∀ m ∈ later, m.Transacts x.calls.length := by
    rw [hlater, hlength]
    simp only [List.forall_mem_cons]
    exact ⟨.start _ _ _, .resume (by decide) _, fun _ hm => absurd hm List.not_mem_nil⟩
  have hlimit : ∀ counter, s'.counters.get counter < SessionCounters.limit := by
    rw [hcounters]
    intro counter
    cases counter <;> decide
  have hbalance := hclaim _ later x y ⟨1⟩ s s' hx htransacts (by simp [hlater]) hy hs hbefore hs' hlimit hquiet
  rw [hcounters] at hbalance
  exact absurd hbalance (by decide)

end QueryRelay
