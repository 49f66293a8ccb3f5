import QueryRelay.Proofs.Session.Opening
import QueryRelay.Proofs.Session.Retirement
import QueryRelay.Proofs.Transaction.Side

/-!
# The book of transactions

A `TransactionBook` is what remains of a relay when it only matters which transactions are in flight:
the keys of the table, the identifiers that were given out, the last value of the gauge, and the
circuits under the keys of transactions.  A run writes in the book when it registers and when it
leaves; this module shows that **nothing else does**: a run between two waits, sessions, clients,
reapers and the reports of operations leave the book as it is, and so does what the breaker is told
about openings.

* `TransactionBook.register`, `TransactionBook.clear` — the two entries.
* `TransactionRun.resume_books` — a run that goes on leaves the book as it is, and a run that ends
  takes itself out.
* `Deed.perform_book`, `Errand.resume_book` — everything that is no transaction.
-/

namespace QueryRelay

/-! ## The book -/

/-- What of a relay says which transactions are in flight. -/
structure TransactionBook where
  ids : List TransactionId
  /-- The serial number of the next transaction. -/
  next : Nat
  /-- The last value that the gauge was set to. -/
  gauge : Option Binary64
  /-- The circuits under the keys of transactions. -/
  circuit : TransactionId → Option Circuit

/-- The book of a relay. -/
def Relay.book (r : Relay) : TransactionBook where
  ids := r.transactions.keys
  next := r.nextTransaction
  gauge := lastReported? .transactionsActive r.log
  circuit := fun id => r.breaker.circuits.get? id.breakerKey

namespace TransactionBook

/-- Takes in the next transaction. -/
def register (b : TransactionBook) : TransactionBook :=
  { b with
    ids := b.ids ++ [⟨b.next⟩]
    next := b.next + 1
    gauge := some (.ofNat (b.ids.length + 1)) }

/-- The transactions but one. -/
def others (b : TransactionBook) (id : TransactionId) : List TransactionId := b.ids.filter fun other => other ≠ id

/-- Takes a transaction out, if it is there. -/
def clear (b : TransactionBook) (id : TransactionId) : TransactionBook :=
  if id ∈ b.ids then { b with ids := b.others id, gauge := some (.ofNat (b.others id).length) } else b

/-- No transaction has a circuit. -/
def NoCircuit (b : TransactionBook) : Prop := ∀ id, b.circuit id = none

/-- A book in which the next transaction can be registered: it is new, and no transaction has a circuit. -/
structure IsOpen (b : TransactionBook) : Prop where
  noCircuit : b.NoCircuit
  new : (⟨b.next⟩ : TransactionId) ∉ b.ids

theorem clear_withCircuit (b : TransactionBook) (circuit : TransactionId → Option Circuit) (id : TransactionId) :
    ({ b with circuit := circuit } : TransactionBook).clear id = { b.clear id with circuit := circuit } := by
  unfold clear
  by_cases h : id ∈ b.ids
  · rw [if_pos h, if_pos h]
    rfl
  · rw [if_neg h, if_neg h]

@[simp] theorem clear_next (b : TransactionBook) (id : TransactionId) : (b.clear id).next = b.next := by
  unfold clear
  split <;> rfl

@[simp] theorem clear_circuit (b : TransactionBook) (id : TransactionId) : (b.clear id).circuit = b.circuit := by
  unfold clear
  split <;> rfl

theorem mem_clear {b : TransactionBook} {id other : TransactionId} :
    other ∈ (b.clear id).ids ↔ other ∈ b.ids ∧ other ≠ id := by
  unfold clear
  split
  · simp [others]
  · rename_i h
    refine ⟨fun hother => ⟨hother, ?_⟩, And.left⟩
    rintro rfl
    exact h hother

theorem NoCircuit.clear {b : TransactionBook} (h : b.NoCircuit) (id : TransactionId) : (b.clear id).NoCircuit := by
  intro other
  rw [clear_circuit]
  exact h other

theorem IsOpen.clear {b : TransactionBook} (h : b.IsOpen) (id : TransactionId) : (b.clear id).IsOpen where
  noCircuit := h.noCircuit.clear id
  new := by
    rw [clear_next]
    exact fun hmem => h.new (mem_clear.1 hmem).1

end TransactionBook

/-! ## Keys of transactions -/

/-- Openings have a key of their own. -/
theorem TransactionId.breakerKey_ne_sessionCreationKey (id : TransactionId) : id.breakerKey ≠ sessionCreationKey := by
  intro h
  have hlists := congrArg String.toList h
  rw [breakerKey, String.toList_append] at hlists
  have hheads := congrArg List.head? hlists
  rw [List.head?_append_of_ne_nil _ (by decide)] at hheads
  exact absurd hheads (by decide)

namespace Breaker

variable (b : Breaker) (now : Instant) {key other : String}

/-! What is told or asked about one key leaves the circuits of other keys as they are. -/

theorem get?_recordFailure_of_ne (h : other ≠ key) :
    (b.recordFailure now key).circuits.get? other = b.circuits.get? other := by
  rw [recordFailure, Table.get?_insert, if_neg h]

theorem get?_recordSuccess_of_ne (h : other ≠ key) :
    (b.recordSuccess key).circuits.get? other = b.circuits.get? other := by
  rw [recordSuccess, Table.get?_modify, if_neg h]

theorem get?_canExecute_of_ne (h : other ≠ key) :
    (b.canExecute now key).1.circuits.get? other = b.circuits.get? other := by
  unfold canExecute
  split
  · rfl
  · dsimp only
    rw [Table.get?_insert, if_neg h]

/-! Only a failure makes a circuit. -/

theorem get?_recordSuccess_of_none (h : b.circuits.get? other = none) :
    (b.recordSuccess key).circuits.get? other = none := by
  by_cases heq : other = key
  · rw [recordSuccess, Table.get?_modify, if_pos heq, ← heq, h]
    rfl
  · rw [b.get?_recordSuccess_of_ne heq, h]

theorem get?_canExecute_of_none (h : b.circuits.get? other = none) :
    (b.canExecute now key).1.circuits.get? other = none := by
  by_cases heq : other = key
  · rw [← heq, canExecute_of_none h, h]
  · rw [b.get?_canExecute_of_ne now heq, h]

theorem get?_forget_of_none (h : b.circuits.get? other = none) : (b.forget key).circuits.get? other = none := by
  rw [forget, Table.get?_erase, h, ite_self]

end Breaker

/-! ## What leaves the book as it is -/

/-- The gauge has a name of its own. -/
theorem Metric.name_ne_transactionsActive {m : Metric} (h : m ≠ .transactionsActive) :
    m.name ≠ Metric.transactionsActive.name := by
  cases m <;> first | exact absurd rfl h | decide

theorem Happening.value?_of_ne {e : Emission} {m : Metric} (h : e.name ≠ m.name) : (reported e).value? m = none :=
  if_neg h

namespace Relay

/-- What the book does not hold may change at will, and so may the log as long as the gauge is not set. -/
theorem book_eq {r r' : Relay} {more : List Happening} (hkeys : r'.transactions.keys = r.transactions.keys)
    (hnext : r'.nextTransaction = r.nextTransaction) (hlog : r'.log = r.log ++ more)
    (hquiet : reportedValues .transactionsActive more = [])
    (hcircuit : ∀ id : TransactionId, r'.breaker.circuits.get? id.breakerKey = r.breaker.circuits.get? id.breakerKey) :
    r'.book = r.book := by
  simp only [book, hkeys, hnext, hlog, lastReported?_append_of_nil hquiet, funext hcircuit]

theorem book_note {h : Happening} (hquiet : h.value? .transactionsActive = none) (r : Relay) :
    (r.note h).book = r.book := by
  have hnone : reportedValues .transactionsActive [h] = [] := by
    rw [reportedValues, List.filterMap_cons_none hquiet, List.filterMap_nil]
  exact book_eq rfl rfl rfl hnone fun _ => rfl

@[simp] theorem book_ask (r : Relay) (request : Request) : (r.ask request).book = r.book := book_note rfl r

theorem book_report {m : Metric} (hm : m ≠ .transactionsActive) (verb : EmissionVerb) (value : Binary64)
    (labels : Labels) (r : Relay) : (r.report verb m value labels).book = r.book :=
  book_note (Happening.value?_of_ne (Metric.name_ne_transactionsActive hm)) r

theorem book_count {m : Metric} (hm : m ≠ .transactionsActive) (labels : Labels) (r : Relay) :
    (r.count m labels).book = r.book :=
  book_report hm .increment .one labels r

theorem book_observe {m : Metric} (hm : m ≠ .transactionsActive) (value : Binary64) (labels : Labels) (r : Relay) :
    (r.observe m value labels).book = r.book :=
  book_report hm .observe value labels r

theorem book_foldl_note {emissions : List Emission}
    (hquiet : ∀ e ∈ emissions, e.name ≠ Metric.transactionsActive.name) (r : Relay) :
    (emissions.foldl (fun r e => r.note (.reported e)) r).book = r.book := by
  induction emissions generalizing r with
  | nil => rfl
  | cons e rest ih =>
    rw [List.foldl_cons, ih fun e' he' => hquiet e' (List.mem_cons_of_mem _ he')]
    exact book_note (Happening.value?_of_ne (hquiet e List.mem_cons_self)) r

@[simp] theorem book_withRegistry (r : Relay) (change : Registry → Registry) :
    (r.withRegistry change).book = r.book := rfl

@[simp] theorem book_updateTransaction (r : Relay) (id : TransactionId)
    (change : TransactionState → TransactionState) : (r.updateTransaction id change).book = r.book := by
  simp only [book, updateTransaction, Table.keys_modify]

@[simp] theorem book_updateSession (r : Relay) (handle : SessionHandle) (counter : SessionCounter) (delta : Nat) :
    (r.updateSession handle counter delta).1.book = r.book := by
  unfold updateSession
  split <;> rfl

@[simp] theorem book_bump (r : Relay) (handle : SessionHandle) (counter : SessionCounter) :
    (r.bump handle counter).book = r.book :=
  r.book_updateSession handle counter 1

@[simp] theorem book_markIdle (r : Relay) (handle : SessionHandle) : (r.markIdle handle).1.book = r.book := by
  unfold markIdle
  split <;> rfl

@[simp] theorem book_recordError (r : Relay) (handle : SessionHandle) (failure : Failure) :
    (r.recordError handle failure).book = r.book := rfl

@[simp] theorem book_acquireClient (r : Relay) : r.acquireClient.1.book = r.book := by
  rw [acquireClient_fst]
  refine book_eq rfl rfl rfl ?_ fun _ => rfl
  split <;> rfl

@[simp] theorem book_recreateClient (r : Relay) : r.recreateClient.1.book = r.book := by
  rw [recreateClient_fst]
  refine book_eq rfl rfl rfl ?_ fun _ => rfl
  split
  · split <;> rfl
  · rfl

/-! ### The breaker -/

theorem book_recordFailure (r : Relay) (key : String) :
    (r.recordFailure key).book =
      { r.book with circuit := fun id => (r.breaker.recordFailure r.now key).circuits.get? id.breakerKey } := rfl

theorem book_recordSuccess (r : Relay) (key : String) :
    (r.recordSuccess key).book =
      { r.book with circuit := fun id => (r.breaker.recordSuccess key).circuits.get? id.breakerKey } := rfl

/-- Where no transaction has a circuit, asking and reporting successes change nothing in the book. -/
theorem book_of_noCircuit {r : Relay} (h : r.book.NoCircuit) {circuit : TransactionId → Option Circuit}
    (hcircuit : ∀ id, r.book.circuit id = none → circuit id = none) : { r.book with circuit := circuit } = r.book := by
  have hsame : circuit = r.book.circuit := funext fun id => (hcircuit id (h id)).trans (h id).symm
  rw [hsame]

/-! ### The two entries -/

theorem book_reportTransactions (r : Relay) :
    r.reportTransactions.book = { r.book with gauge := some (.ofNat r.book.ids.length) } := by
  have hlast : lastReported? .transactionsActive
      [.reported (EmissionVerb.set.emit .transactionsActive (.ofNat r.transactions.size) [])] =
      some (.ofNat r.book.ids.length) := by
    rw [← Table.length_keys]
    exact lastReported?_eq_some rfl
  simp only [reportTransactions, gauge, report, note, book]
  rw [lastReported?_append_of_ne_nil (by rw [reportedValues]; exact List.cons_ne_nil _ _), hlast]
  rfl

theorem book_registerTransaction {r : Relay} (h : (⟨r.book.next⟩ : TransactionId) ∉ r.book.ids)
    (state : TransactionState) : (r.registerTransaction state).1.book = r.book.register := by
  have hkeys : (r.transactions.insert ⟨r.nextTransaction⟩ state).keys = r.book.ids ++ [⟨r.book.next⟩] :=
    Table.keys_insert_of_not_mem h state
  simp only [registerTransaction, book_reportTransactions]
  simp only [book, hkeys, TransactionBook.register, List.length_append, List.length_cons, List.length_nil]

@[simp] theorem book_clearTransaction (r : Relay) (id : TransactionId) :
    (r.clearTransaction id).1.book = r.book.clear id := by
  unfold clearTransaction TransactionBook.clear
  by_cases h : id ∈ r.book.ids
  · rw [if_pos (Table.contains_iff.2 h), if_pos h, book_reportTransactions]
    simp only [book, Table.keys_erase, TransactionBook.others]
  · rw [if_neg (fun hmem => h (Table.contains_iff.1 hmem)), if_neg h]

end Relay

/-! ## Runs -/

namespace QueryStatistics

theorem emissions_quiet (s : QueryStatistics) (labels : Labels) :
    ∀ e ∈ s.emissions labels, e.name ≠ Metric.transactionsActive.name := by
  intro e he
  obtain ⟨m, hm, value, labels, rfl⟩ := exists_metric_of_mem_emissions he
  have hmetrics : ∀ m ∈ metrics, m ≠ .transactionsActive := by decide
  exact Metric.name_ne_transactionsActive (hmetrics m hm)

end QueryStatistics

namespace TransactionRun

/-- How a run leaves the book: as it is while the run waits, and without its transaction when it is over. -/
def Books (t : Transaction) (b : TransactionBook) (x : Relay × Progress TransactionRun Outcome) : Prop :=
  match x.2 with
  | .waiting _ => x.1.book = b
  | .finished _ => x.1.book = b.clear t.id

variable (t : Transaction) (retries : Nat) {r : Relay}

/-- Where its key has no circuit, an attempt is let through. -/
theorem attempt_of_none (h : r.book.circuit t.id = none) :
    attempt t retries r = (r.ask (.beginTransaction t.session.remote), .waiting (beginning t retries)) := by
  have hadmitted : r.canExecute t.id.breakerKey = (r, true) := by
    rw [Relay.canExecute, Breaker.canExecute_of_none h]
  unfold attempt
  rw [hadmitted]
  rfl

theorem leave_book (r : Relay) :
    (leave t r).book =
      { r.book.clear t.id with
        circuit := fun id => if id.breakerKey = t.id.breakerKey then none else r.book.circuit id } := by
  have hcleared := r.book_clearTransaction t.id
  have hcircuit : (r.clearTransaction t.id).1.book.circuit = r.book.circuit := by
    rw [hcleared, TransactionBook.clear_circuit]
  rw [← hcleared, ← hcircuit]
  simp only [leave, Relay.book, Relay.withBreaker, Breaker.forget, Table.get?_erase]

/-- Whatever was reported under its own key, a run that ends takes itself out of the book and leaves no
circuit behind. -/
theorem leave_book_of_noCircuit (hnone : r.book.NoCircuit) {r' : Relay} {circuit : TransactionId → Option Circuit}
    (hbook : r'.book = { r.book with circuit := circuit })
    (hcircuit : ∀ id : TransactionId, id.breakerKey ≠ t.id.breakerKey → circuit id = none) :
    (leave t r').book = r.book.clear t.id := by
  have hforgotten : (fun id : TransactionId => if id.breakerKey = t.id.breakerKey then none else circuit id) =
      r.book.circuit := by
    funext id
    rw [hnone id]
    split
    · rfl
    · rename_i hne
      exact hcircuit id hne
  rw [leave_book, hbook, TransactionBook.clear_withCircuit]
  simp only [hforgotten]
  rw [← TransactionBook.clear_circuit r.book t.id]

theorem next_books (results : List QueryResult) (rest : List Statement) (r : Relay) :
    Books t r.book (next t retries results rest r) := by
  cases rest with
  | nil => exact r.book_ask _
  | cons current rest => exact r.book_ask _

theorem rollBack_books (failure : Failure) (r : Relay) : Books t r.book (rollBack t retries failure r) :=
  r.book_ask _

@[simp] theorem noteFailure_book (failure : Failure) (r : Relay) : (noteFailure t retries failure r).book = r.book := by
  unfold noteFailure
  dsimp only
  rw [Relay.book_count (by simp)]
  simp

@[simp] theorem noteResult_book (result : QueryResult) (r : Relay) : (noteResult t result r).book = r.book := by
  unfold noteResult
  rw [Relay.book_bump, Relay.book_count (by simp), Relay.book_foldl_note (result.statistics.emissions_quiet _)]

theorem giveUp_books (failure outcome : Failure) (hnone : r.book.NoCircuit) :
    Books t r.book (giveUp t failure outcome r) := by
  refine leave_book_of_noCircuit t hnone ((Relay.book_count (by simp) _ _).trans (r.book_recordFailure _)) ?_
  intro id hne
  rw [r.breaker.get?_recordFailure_of_ne r.now hne]
  exact hnone id

theorem afterFailure_books (failure : Failure) (hnone : r.book.NoCircuit) :
    Books t r.book (afterFailure t retries failure r) := by
  have hnoted := noteFailure_book t retries failure r
  rw [← hnoted] at hnone ⊢
  unfold afterFailure
  dsimp only
  split
  · exact giveUp_books t failure failure hnone
  · split
    · exact giveUp_books t failure _ hnone
    · exact (Relay.book_observe (by simp) _ _ _).trans (Relay.book_count (by simp) _ _)

theorem afterCommit_books (results : List QueryResult) (hnone : r.book.NoCircuit) :
    Books t r.book (afterCommit t results r) := by
  have hupdated := r.book_updateTransaction t.id TransactionState.commit
  rw [← hupdated] at hnone ⊢
  refine leave_book_of_noCircuit t hnone (Relay.book_count (by simp) _ _ |>.trans <|
    (Relay.book_bump _ _ _).trans (Relay.book_recordSuccess _ _)) ?_
  intro id _
  exact Breaker.get?_recordSuccess_of_none _ (hnone id)

/-- **A run that goes on** leaves the book as it is while it waits again, and takes itself out of it when it is
over. -/
theorem resume_books (p : TransactionRun) (answer : p.wait.Answer) (hnone : r.book.NoCircuit) :
    Books p.transaction r.book (p.resume answer r) := by
  cases p with
  | beginning t retries =>
    cases answer with
    | ok _ =>
      have hcounted : (((r.bump t.session .transactionsStarted).count .transactionsStarted
          [("database", t.session.label)])).book = r.book := by
        rw [Relay.book_count (by simp), Relay.book_bump]
      exact hcounted ▸ next_books t retries [] t.statements _
    | error e => exact afterFailure_books t retries e hnone
  | running t retries results current rest =>
    cases answer with
    | ok raw =>
      simp only [resume]
      split
      · rename_i result _
        exact noteResult_book t result r ▸ next_books t retries _ rest _
      · exact rollBack_books t retries _ r
    | error e => exact rollBack_books t retries e r
  | rollingBack t retries e => exact afterFailure_books t retries e hnone
  | committing t retries results =>
    cases answer with
    | ok _ => exact afterCommit_books t results hnone
    | error e => exact rollBack_books t retries e r
  | backingOff t retries delay =>
    have hupdated := r.book_updateTransaction t.id fun s => { s with retryCount := retries + 1 }.restart
    rw [resume, attempt_of_none t (retries + 1) (hupdated ▸ hnone t.id)]
    exact (Relay.book_ask _ _).trans hupdated

/-- **A run that begins** registers and waits for its first attempt to begin; on a session that is not tracked it
does nothing. -/
theorem start_cases (hopen : r.book.IsOpen) (session : SessionHandle) (statements : List Statement)
    (substrings : Option (List String)) :
    ((start r session statements substrings).2.point? = none ∧
        (start r session statements substrings).1 = r) ∨
      ((start r session statements substrings).2.point? = some (beginning (r.nextRun session statements substrings) 0) ∧
        (start r session statements substrings).1.book = r.book.register) := by
  by_cases htracked : r.registry.isTracked session.id = true
  · have hregistered := Relay.book_registerTransaction hopen.new (.new session.id statements)
    have hcircuit : (r.registerTransaction (.new session.id statements)).1.book.circuit
        (r.nextRun session statements substrings).id = none := by
      rw [hregistered]
      exact hopen.noCircuit _
    rw [start_of_isTracked htracked, attempt_of_none _ 0 hcircuit]
    exact .inr ⟨rfl, (Relay.book_ask _ _).trans hregistered⟩
  · unfold start
    rw [if_neg htracked]
    exact .inl ⟨rfl, rfl⟩

/-- A run that is dropped takes itself out of the book. -/
theorem drop_book (p : TransactionRun) (hnone : r.book.NoCircuit) :
    (p.drop r).book = r.book.clear p.transaction.id :=
  leave_book_of_noCircuit p.transaction hnone rfl fun id _ => hnone id

end TransactionRun

/-! ## Everything else -/

namespace Opening

theorem acquisition_quiet (r : Relay) : reportedValues .transactionsActive (acquisition r) = [] := by
  unfold acquisition
  split <;> rfl

theorem recreation_quiet (r : Relay) : reportedValues .transactionsActive (recreation r) = [] := by
  unfold recreation
  split
  · split <;> rfl
  · rfl

theorem start_book (r : Relay) (database : Option String) (options : Option SessionOptions) :
    (start r database options).1.book = r.book := by
  have hasked : ∀ id : TransactionId, (r.breaker.canExecute r.now sessionCreationKey).1.circuits.get? id.breakerKey =
      r.breaker.circuits.get? id.breakerKey :=
    fun id => r.breaker.get?_canExecute_of_ne r.now id.breakerKey_ne_sessionCreationKey
  cases hfull : r.isFull with
  | true => rw [start_of_full hfull]
  | false =>
    cases hadmits : r.admitsOpening with
    | false => rw [start_of_refused hfull hadmits]
    | true =>
      cases hclient : r.slot.acquire.2 with
      | ok client =>
        rw [start_of_client hfull hadmits hclient]
        refine Relay.book_eq rfl rfl (List.append_assoc ..) ?_ hasked
        rw [reportedValues, List.filterMap_append, ← reportedValues, acquisition_quiet]
        rfl
      | error failure =>
        rw [start_of_no_client hfull hadmits hclient]
        refine Relay.book_eq rfl rfl rfl (acquisition_quiet r) fun id => ?_
        rw [Breaker.get?_recordFailure_of_ne _ _ id.breakerKey_ne_sessionCreationKey]
        exact hasked id

theorem resume_book (o : Opening) (reply : Except Failure RemoteSession) (r : Relay) :
    (o.resume reply r).1.book = r.book := by
  cases reply with
  | ok remote =>
    rw [resume_ok]
    exact Relay.book_eq rfl rfl rfl (by rfl) fun id =>
      r.breaker.get?_recordSuccess_of_ne id.breakerKey_ne_sessionCreationKey
  | error failure =>
    rw [resume_error]
    refine Relay.book_eq rfl rfl rfl ?_ fun id =>
      r.breaker.get?_recordFailure_of_ne r.now id.breakerKey_ne_sessionCreationKey
    split
    · exact recreation_quiet r
    · rfl

end Opening

theorem Closing.start_book (r : Relay) (id : SessionId) : (Closing.start r id).1.book = r.book := by
  unfold Closing.start
  split
  · rfl
  · split
    · rfl
    · rw [Relay.book_ask, Relay.book_withRegistry]

theorem Closing.resume_book (c : Closing) (reply : Except Failure Unit) (r : Relay) :
    (c.resume reply r).1.book = r.book := by
  simp only [Closing.resume, Relay.reportSessions, Relay.gauge]
  rw [Relay.book_report (by simp), Relay.book_count (by simp), Relay.book_withRegistry]

theorem Execution.start_book (r : Relay) (routing : RoutingMode) (statement : Statement) :
    (Execution.start r routing statement).1.book = r.book := by
  have hacquired := r.book_acquireClient
  unfold Execution.start
  split
  · rename_i r' client h
    rw [h] at hacquired
    exact (r'.book_ask _).trans hacquired
  · rename_i r' e h
    rw [h] at hacquired
    exact hacquired

theorem Execution.resume_book (p : Execution) (answer : p.wait.Answer) (r : Relay) :
    (p.resume answer r).1.book = r.book := by
  cases p with
  | executing client database routing statement attempt =>
    cases answer with
    | ok raw => rfl
    | error e =>
      simp only [Execution.resume]
      split <;> rfl
  | delaying span routing statement attempt =>
    have hrecreated := r.book_recreateClient
    simp only [Execution.resume]
    split
    · rename_i r' client h
      rw [h] at hrecreated
      exact (r'.book_ask _).trans hrecreated
    · rename_i r' e h
      rw [h] at hrecreated
      exact hrecreated

theorem ClientClosing.start_book (r : Relay) : (ClientClosing.start r).1.book = r.book := by
  unfold ClientClosing.start
  dsimp only
  split
  · exact Relay.book_ask _ _
  · rfl

theorem Stopping.start_book (r : Relay) : (Stopping.start r).1.book = r.book := by
  have htold : r.tellReaper.1.book = r.book := by
    unfold Relay.tellReaper
    split <;> rfl
  unfold Stopping.start
  split
  · rename_i r' h
    rw [h] at htold
    exact htold
  · rename_i r' id h
    rw [h] at htold
    split <;> exact htold

theorem Reaping.settle_book (r : Relay) (id : ReaperId) : (Reaping.settle r id).1.book = r.book := by
  unfold Reaping.settle
  split <;> rfl

theorem Operation.finish_book (f : OperationFrame) (outcome : TransactionRun.Outcome) (r : Relay) :
    (Operation.finish f outcome r).1.book = r.book := by
  cases outcome with
  | ok _ => exact Relay.book_observe (by simp) _ _ r
  | error e =>
    simp only [Operation.finish]
    rw [Relay.book_count (by simp), Relay.book_observe (by simp)]

/-- The run of an errand. -/
def Errand.run? : Errand → Option TransactionRun
  | transacting p => some p
  | _ => none

theorem Errand.eq_transacting_of_run? {e : Errand} {p : TransactionRun} (h : e.run? = some p) : e = .transacting p := by
  cases e with
  | transacting q => exact congrArg transacting (Option.some.inj h)
  | _ => exact absurd h (by simp [run?])

/-- Whether a deed may write in the book. -/
def Deed.writesBook : Deed → Bool
  | transact _ _ _ => true
  | recordFailure _ => true
  | clear _ => true
  | _ => false

/-- What is not about transactions leaves the book as it is, and begins no run. -/
theorem Deed.perform_book {d : Deed} (h : d.writesBook = false) {r : Relay} (hnone : r.book.NoCircuit) :
    (d.perform r).1.book = r.book ∧ ∀ e ∈ (d.perform r).2, e.run? = none := by
  cases d with
  | transact session statements substrings => exact absurd h (by simp [writesBook])
  | recordFailure key => exact absurd h (by simp [writesBook])
  | clear id => exact absurd h (by simp [writesBook])
  | openSession database options =>
    exact ⟨Opening.start_book r database options, forall_mem_map_point? (fun _ => by rfl) _⟩
  | closeSession id => exact ⟨Closing.start_book r id, forall_mem_map_point? (fun _ => by rfl) _⟩
  | execute routing statement =>
    exact ⟨Execution.start_book r routing statement, forall_mem_map_point? (fun _ => by rfl) _⟩
  | closeClient => exact ⟨ClientClosing.start_book r, forall_mem_map_point? (fun _ => by rfl) _⟩
  | startReaper =>
    refine ⟨?_, by simp [perform]⟩
    simp only [perform, Relay.startReaper]
    split <;> rfl
  | stopReaper => exact ⟨Stopping.start_book r, forall_mem_map_point? (fun _ => by rfl) _⟩
  | settleReaper reaper =>
    refine ⟨Reaping.settle_book r reaper, ?_⟩
    simp only [perform, Reaping.settle]
    split <;> simp [Progress.point?, Reaping.errand, Errand.run?]
  | update session counter delta => exact ⟨r.book_updateSession session counter delta, by simp [perform]⟩
  | markIdle session => exact ⟨r.book_markIdle session, by simp [perform]⟩
  | recordError session failure => exact ⟨r.book_recordError session failure, by simp [perform]⟩
  | acquireClient => exact ⟨r.book_acquireClient, by simp [perform]⟩
  | recreateClient => exact ⟨r.book_recreateClient, by simp [perform]⟩
  | recordSuccess key =>
    exact ⟨Relay.book_of_noCircuit hnone fun _ => Breaker.get?_recordSuccess_of_none _, by simp [perform]⟩
  | canExecute key =>
    exact ⟨Relay.book_of_noCircuit hnone fun _ => Breaker.get?_canExecute_of_none _ _, by simp [perform]⟩
  | forget key =>
    exact ⟨Relay.book_of_noCircuit hnone fun _ => Breaker.get?_forget_of_none _, by simp [perform]⟩
  | finish f outcome => exact ⟨Operation.finish_book f outcome r, by simp [perform]⟩

/-- A failure under a key that no transaction has does not show in the book. -/
theorem Relay.book_recordFailure_of_ne {key : String} (h : ∀ id : TransactionId, key ≠ id.breakerKey) (r : Relay) :
    (r.recordFailure key).book = r.book :=
  book_eq rfl rfl (List.append_nil r.log).symm rfl fun id =>
    r.breaker.get?_recordFailure_of_ne r.now fun heq => h id heq.symm

namespace Errand

/-- The end of an errand that is no run leaves the book as it is, and no run comes of it. -/
theorem resume_book (answers : Answers) {e : Errand} (h : e.run? = none) (r : Relay) :
    (e.resume answers r).1.book = r.book ∧ ∀ e' ∈ (e.resume answers r).2, e'.run? = none := by
  cases e with
  | transacting p => exact absurd h (by simp [run?])
  | opening o => exact ⟨o.resume_book _ r, by simp [resume]⟩
  | closing c => exact ⟨c.resume_book _ r, by simp [resume]⟩
  | executing e => exact ⟨e.resume_book _ r, forall_mem_map_point? (fun _ => by rfl) _⟩
  | closingClient c => exact ⟨rfl, by simp [resume]⟩
  | resting reaper interval => exact ⟨rfl, by simp [resume]⟩
  | stopping s => exact ⟨rfl, by simp [resume]⟩

theorem drop_book {e : Errand} (h : e.run? = none) (r : Relay) : (e.drop r).book = r.book := by
  cases e with
  | transacting p => exact absurd h (by simp [run?])
  | opening o => exact r.book_withRegistry _
  | _ => rfl

end Errand

end QueryRelay
