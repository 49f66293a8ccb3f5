import QueryRelay.Proofs.Transaction.Book

/-!
# The roll of transactions

The roll of a relay is its table of transactions with the number of the next one.  A run writes in it: it enters its
transaction when it begins, marks the entry when an attempt has failed and when it tries again, and strikes the entry
out when it is over.  This module says what each step of a run does to the roll, and that **nothing else does anything
to it**, but for those who clear transactions.

* `TransactionRun.mark` — how the entry of a run changes at the end of a wait.
* `TransactionRun.Marks` — what a step does to the roll: to the entry of its own, and to no other.
* `TransactionRun.resume_marks` — **every step of a run** does that; `start_enrolls` and `drop_strikes` are the
  beginning and the end.
* `Deed.perform_roll`, `Errand.resume_roll`, `Errand.drop_roll` — everything that is no transaction.
-/

namespace QueryRelay

/-- What of a relay says how its transactions stand. -/
structure TransactionRoll where
  states : Table TransactionId TransactionState
  /-- The serial number of the next transaction. -/
  next : Nat

/-- The roll of a relay. -/
def Relay.roll (r : Relay) : TransactionRoll := ⟨r.transactions, r.nextTransaction⟩

/-! ## What leaves the roll as it is -/

namespace Relay

@[simp] theorem roll_note (r : Relay) (h : Happening) : (r.note h).roll = r.roll := rfl

@[simp] theorem roll_count (r : Relay) (m : Metric) (labels : Labels) : (r.count m labels).roll = r.roll :=
  r.roll_note _

@[simp] theorem roll_observe (r : Relay) (m : Metric) (value : Binary64) (labels : Labels) :
    (r.observe m value labels).roll = r.roll :=
  r.roll_note _

@[simp] theorem roll_recordError (r : Relay) (handle : SessionHandle) (failure : Failure) :
    (r.recordError handle failure).roll = r.roll := rfl

@[simp] theorem roll_withBreaker (r : Relay) (change : Breaker → Breaker) : (r.withBreaker change).roll = r.roll := rfl

@[simp] theorem roll_foldl_note (emissions : List Emission) (r : Relay) :
    (emissions.foldl (fun r e => r.note (.reported e)) r).roll = r.roll := by
  induction emissions generalizing r with
  | nil => rfl
  | cons e rest ih => exact ih (r.note (.reported e))

theorem roll_updateSession (r : Relay) (handle : SessionHandle) (counter : SessionCounter) (delta : Nat) :
    (r.updateSession handle counter delta).1.roll = r.roll := by
  unfold updateSession
  split <;> rfl

@[simp] theorem roll_bump (r : Relay) (handle : SessionHandle) (counter : SessionCounter) :
    (r.bump handle counter).roll = r.roll :=
  r.roll_updateSession handle counter 1

theorem roll_markIdle (r : Relay) (handle : SessionHandle) : (r.markIdle handle).1.roll = r.roll := by
  unfold markIdle
  split <;> rfl

theorem roll_acquireClient (r : Relay) : r.acquireClient.1.roll = r.roll := by
  rw [acquireClient_fst]
  rfl

theorem roll_recreateClient (r : Relay) : r.recreateClient.1.roll = r.roll := by
  rw [recreateClient_fst]
  rfl

/-! ## The three entries -/

theorem get?_registerTransaction (r : Relay) (state : TransactionState) (id : TransactionId) :
    (r.registerTransaction state).1.transactions.get? id =
      if id = ⟨r.nextTransaction⟩ then some state else r.transactions.get? id :=
  r.transactions.get?_insert ⟨r.nextTransaction⟩ id state

theorem get?_clearTransaction (r : Relay) (id other : TransactionId) :
    (r.clearTransaction id).1.transactions.get? other = if other = id then none else r.transactions.get? other := by
  unfold clearTransaction
  split
  · exact r.transactions.get?_erase id other
  · rename_i hmissing
    split
    · rename_i heq
      rw [heq]
      exact Option.not_isSome_iff_eq_none.1 hmissing
    · rfl

theorem nextTransaction_clearTransaction (r : Relay) (id : TransactionId) :
    (r.clearTransaction id).1.nextTransaction = r.nextTransaction := by
  unfold clearTransaction
  split <;> rfl

end Relay

/-! ## What a run does to the roll -/

namespace TransactionRun

/-- How the entry of a run that goes on changes at the end of a wait: a failed attempt is taken down, and an attempt
that is tried again is counted. -/
def mark (now : Instant) : (p : TransactionRun) → p.wait.Answer → TransactionState → TransactionState
  | beginning _ retries, .error e => fun s => s.fail e.message retries now
  | rollingBack _ retries e, _ => fun s => s.fail e.message retries now
  | backingOff _ retries _, _ => fun s => { s with retryCount := retries + 1 }.restart
  | _, _ => id

/-- What a step does to the roll: as long as the run waits its entry is changed, if it is there, and it is struck out
when the run is over.  The other entries stay. -/
structure Marks (t : Transaction) (change : TransactionState → TransactionState) (r : Relay)
    (x : Relay × Progress TransactionRun Outcome) : Prop where
  next : x.1.nextTransaction = r.nextTransaction
  own : x.1.transactions.get? t.id = x.2.point?.bind fun _ => (r.transactions.get? t.id).map change
  others : ∀ id, id ≠ t.id → x.1.transactions.get? id = r.transactions.get? id

namespace Marks

variable {t : Transaction} {change : TransactionState → TransactionState} {r r' : Relay}
  {x : Relay × Progress TransactionRun Outcome}

/-- A run that waits and has written nothing. -/
theorem waits {p : TransactionRun} (hroll : r'.roll = r.roll) : Marks t id r (r', .waiting p) := by
  simp only [Relay.roll, TransactionRoll.mk.injEq] at hroll
  refine ⟨hroll.2, ?_, fun other _ => by rw [hroll.1]⟩
  rw [hroll.1]
  exact Option.map_id_apply.symm

/-- What goes before and does not show in the roll does not matter. -/
theorem after (h : Marks t change r' x) (hroll : r'.roll = r.roll) : Marks t change r x := by
  simp only [Relay.roll, TransactionRoll.mk.injEq] at hroll
  exact ⟨h.next.trans hroll.2, by rw [h.own, hroll.1], fun other hother => by rw [h.others other hother, hroll.1]⟩

/-- The entry may be changed first. -/
theorem after_update (h : Marks t id (r.updateTransaction t.id change) x) : Marks t change r x := by
  refine ⟨h.next, ?_, fun other hother => ?_⟩
  · rw [h.own, Option.map_id_apply, Relay.updateTransaction, Table.get?_modify, if_pos rfl]
  · rw [h.others other hother, Relay.updateTransaction, Table.get?_modify, if_neg hother]

/-- When a run is over, it does not matter how its entry was changed before. -/
theorem finished {outcome : Outcome} (h : Marks t change r (r', .finished outcome))
    (other : TransactionState → TransactionState) : Marks t other r (r', .finished outcome) :=
  ⟨h.next, h.own, h.others⟩

end Marks

variable (t : Transaction) (retries : Nat) (r : Relay)

theorem finish_marks (change : TransactionState → TransactionState) (outcome : Outcome) :
    Marks t change r (finish t outcome r) where
  next := r.nextTransaction_clearTransaction t.id
  own := by
    show (r.clearTransaction t.id).1.transactions.get? t.id = none
    rw [r.get?_clearTransaction, if_pos rfl]
  others := by
    intro id hid
    show (r.clearTransaction t.id).1.transactions.get? id = _
    rw [r.get?_clearTransaction, if_neg hid]

theorem attempt_marks : Marks t id r (attempt t retries r) := by
  unfold attempt
  dsimp only
  split
  · exact .waits rfl
  · exact (finish_marks t _ id _).after rfl

theorem next_marks (results : List QueryResult) (rest : List Statement) :
    Marks t id r (next t retries results rest r) := by
  cases rest <;> exact .waits rfl

theorem rollBack_marks (failure : Failure) : Marks t id r (rollBack t retries failure r) := .waits rfl

theorem noteFailure_roll (failure : Failure) :
    (noteFailure t retries failure r).roll =
      (r.updateTransaction t.id fun s => s.fail failure.message retries r.now).roll := by
  simp [noteFailure]

theorem noteResult_roll (result : QueryResult) : (noteResult t result r).roll = r.roll := by
  simp [noteResult]

/-- A failed attempt is taken down, whatever follows it. -/
theorem afterFailure_marks (failure : Failure) :
    Marks t (fun s => s.fail failure.message retries r.now) r (afterFailure t retries failure r) := by
  refine .after_update (.after ?_ (noteFailure_roll t retries r failure))
  unfold afterFailure giveUp
  dsimp only
  split
  · exact (finish_marks t _ id _).after (by simp [Relay.recordFailure])
  · split
    · exact (finish_marks t _ id _).after (by simp [Relay.recordFailure])
    · exact .waits (by simp)

theorem afterCommit_marks (results : List QueryResult) : Marks t id r (afterCommit t results r) := by
  have hcommitted : Marks t TransactionState.commit r (afterCommit t results r) :=
    .after_update ((finish_marks t _ id _).after (by simp [Relay.recordSuccess]))
  exact hcommitted.finished id

/-- **What a step of a run does to the roll.** -/
theorem resume_marks (p : TransactionRun) (answer : p.wait.Answer) :
    Marks p.transaction (p.mark r.now answer) r (p.resume answer r) := by
  cases p with
  | beginning t retries =>
    cases answer with
    | ok _ => exact (next_marks t retries _ [] t.statements).after (by simp)
    | error e => exact afterFailure_marks t retries r e
  | running t retries results current rest =>
    cases answer with
    | ok raw =>
      simp only [resume]
      split
      · exact (next_marks t retries _ _ rest).after (noteResult_roll t r _)
      · exact rollBack_marks t retries r _
    | error e => exact rollBack_marks t retries r e
  | rollingBack t retries e => exact afterFailure_marks t retries r e
  | committing t retries results =>
    cases answer with
    | ok _ => exact afterCommit_marks t r results
    | error e => exact rollBack_marks t retries r e
  | backingOff t retries delay => exact .after_update (attempt_marks t (retries + 1) _)

/-- **A run that begins** on a tracked session enters its transaction, unless its first attempt is not let through; on
any other session it does nothing. -/
theorem start_enrolls (session : SessionHandle) (statements : List Statement) (substrings : Option (List String)) :
    ((start r session statements substrings).2.point? = none ∧
        (start r session statements substrings).1.roll = r.roll) ∨
      ((start r session statements substrings).1.nextTransaction = r.nextTransaction + 1 ∧
        ((start r session statements substrings).1.transactions.get? ⟨r.nextTransaction⟩ =
          (start r session statements substrings).2.point?.map fun _ => .new session.id statements) ∧
        (∀ id, id ≠ ⟨r.nextTransaction⟩ →
          (start r session statements substrings).1.transactions.get? id = r.transactions.get? id) ∧
        ∀ p ∈ (start r session statements substrings).2.point?,
          p = beginning (r.nextRun session statements substrings) 0) := by
  by_cases htracked : r.registry.isTracked session.id = true
  · right
    have hmarks := attempt_marks (r.nextRun session statements substrings) 0
      (r.registerTransaction (.new session.id statements)).1
    rw [start_of_isTracked htracked]
    refine ⟨hmarks.next, ?_, fun id hid => ?_, fun p hp => ?_⟩
    · have hid : (r.nextRun session statements substrings).id = ⟨r.nextTransaction⟩ := rfl
      refine hmarks.own.trans ?_
      rw [r.get?_registerTransaction, if_pos hid]
      cases (attempt (r.nextRun session statements substrings) 0
        (r.registerTransaction (.new session.id statements)).1).2 <;> rfl
    · rw [hmarks.others id hid, r.get?_registerTransaction, if_neg hid]
    · rw [attempt_snd] at hp
      split at hp <;> cases hp
      rfl
  · left
    rw [start, if_neg htracked]
    exact ⟨rfl, rfl⟩

/-- A run that is dropped strikes its entry out. -/
theorem drop_strikes (p : TransactionRun) :
    (p.drop r).nextTransaction = r.nextTransaction ∧
      ∀ id, (p.drop r).transactions.get? id = if id = p.transaction.id then none else r.transactions.get? id :=
  ⟨r.nextTransaction_clearTransaction _, r.get?_clearTransaction _⟩

end TransactionRun

/-! ## Everything else -/

theorem Opening.start_roll (r : Relay) (database : Option String) (options : Option SessionOptions) :
    (Opening.start r database options).1.roll = r.roll := by
  cases hfull : r.isFull with
  | true => rw [start_of_full hfull]
  | false =>
    cases hadmits : r.admitsOpening with
    | false => rw [start_of_refused hfull hadmits]
    | true =>
      cases hclient : r.slot.acquire.2 with
      | ok client =>
        rw [start_of_client hfull hadmits hclient]
        rfl
      | error failure =>
        rw [start_of_no_client hfull hadmits hclient]
        rfl

theorem Opening.resume_roll (o : Opening) (reply : Except Failure RemoteSession) (r : Relay) :
    (o.resume reply r).1.roll = r.roll := by
  cases reply with
  | ok remote => rfl
  | error failure =>
    rw [resume_error]
    rfl

theorem Closing.start_roll (r : Relay) (id : SessionId) : (Closing.start r id).1.roll = r.roll := by
  unfold Closing.start
  split
  · rfl
  · split <;> rfl

theorem Execution.start_roll (r : Relay) (routing : RoutingMode) (statement : Statement) :
    (Execution.start r routing statement).1.roll = r.roll := by
  have hacquired := r.roll_acquireClient
  unfold Execution.start
  split
  all_goals
    rename_i h
    rw [h] at hacquired
    exact hacquired

theorem Execution.resume_roll (p : Execution) (answer : p.wait.Answer) (r : Relay) :
    (p.resume answer r).1.roll = r.roll := by
  cases p with
  | executing client database routing statement attempt =>
    cases answer with
    | ok raw => rfl
    | error e =>
      simp only [Execution.resume]
      split <;> rfl
  | delaying span routing statement attempt =>
    have hrecreated := r.roll_recreateClient
    simp only [Execution.resume]
    split
    all_goals
      rename_i h
      rw [h] at hrecreated
      exact hrecreated

theorem ClientClosing.start_roll (r : Relay) : (ClientClosing.start r).1.roll = r.roll := by
  unfold ClientClosing.start
  dsimp only
  split <;> rfl

theorem Stopping.start_roll (r : Relay) : (Stopping.start r).1.roll = r.roll := by
  unfold Stopping.start Relay.tellReaper
  cases r.reaper with
  | none => rfl
  | some id =>
    dsimp only
    split <;> rfl

/-- Whether a deed may write in the roll. -/
def Deed.writesRoll : Deed → Bool
  | transact _ _ _ => true
  | clear _ => true
  | _ => false

/-- What is not about transactions leaves the roll as it is, and begins no run. -/
theorem Deed.perform_roll {d : Deed} (h : d.writesRoll = false) (r : Relay) :
    (d.perform r).1.roll = r.roll ∧ ∀ e ∈ (d.perform r).2, e.run? = none := by
  cases d with
  | transact session statements substrings => exact absurd h (by simp [writesRoll])
  | clear id => exact absurd h (by simp [writesRoll])
  | openSession database options =>
    exact ⟨Opening.start_roll r database options, forall_mem_map_point? (fun _ => by rfl) _⟩
  | closeSession id => exact ⟨Closing.start_roll r id, forall_mem_map_point? (fun _ => by rfl) _⟩
  | execute routing statement =>
    exact ⟨Execution.start_roll r routing statement, forall_mem_map_point? (fun _ => by rfl) _⟩
  | closeClient => exact ⟨ClientClosing.start_roll r, forall_mem_map_point? (fun _ => by rfl) _⟩
  | stopReaper => exact ⟨Stopping.start_roll r, forall_mem_map_point? (fun _ => by rfl) _⟩
  | startReaper =>
    refine ⟨?_, by simp [perform]⟩
    simp only [perform, Relay.startReaper]
    split <;> rfl
  | settleReaper reaper =>
    simp only [perform, Reaping.settle]
    split
    · exact ⟨rfl, by simp [Progress.point?, Reaping.errand, Errand.run?]⟩
    · exact ⟨rfl, by simp [Progress.point?]⟩
  | update session counter delta => exact ⟨r.roll_updateSession session counter delta, by simp [perform]⟩
  | markIdle session => exact ⟨r.roll_markIdle session, by simp [perform]⟩
  | acquireClient => exact ⟨r.roll_acquireClient, by simp [perform]⟩
  | recreateClient => exact ⟨r.roll_recreateClient, by simp [perform]⟩
  | finish f outcome =>
    refine ⟨?_, by simp [perform]⟩
    cases outcome <;> rfl
  | _ => exact ⟨rfl, by simp [perform]⟩

namespace Errand

/-- The end of an errand that is no run leaves the roll as it is, and no run comes of it. -/
theorem resume_roll (answers : Answers) {e : Errand} (h : e.run? = none) (r : Relay) :
    (e.resume answers r).1.roll = r.roll ∧ ∀ e' ∈ (e.resume answers r).2, e'.run? = none := by
  cases e with
  | transacting p => exact absurd h (by simp [run?])
  | opening o => exact ⟨o.resume_roll _ r, by simp [resume]⟩
  | executing e => exact ⟨e.resume_roll _ r, forall_mem_map_point? (fun _ => by rfl) _⟩
  | _ => exact ⟨rfl, by simp [resume]⟩

theorem drop_roll {e : Errand} (h : e.run? = none) (r : Relay) : (e.drop r).roll = r.roll := by
  cases e with
  | transacting p => exact absurd h (by simp [run?])
  | _ => rfl

end Errand

end QueryRelay
