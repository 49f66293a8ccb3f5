import QueryRelay.Proofs.Session.Opening

/-!
# The client side of a relay

A `ClientSide` is what remains of a relay when only the client of the connection matters: the slot with its factory, how
often the factory was asked, and the clients that the engine was asked to close.  Clients are got and closed in three
ways, by `Relay.acquireClient`, `Relay.recreateClient` and `ClientClosing.start`; this module shows that **everything
else leaves the client side as it is**: sessions, transactions, circuits, reapers and reports.
-/

namespace QueryRelay

/-- The client that the engine is asked to close. -/
def Happening.closedClient? : Happening → Option ClientId
  | requested (.closeClient client) => some client
  | _ => none

/-- What of a relay is about the client of the connection. -/
structure ClientSide where
  slot : ClientSlot
  /-- How often the factory was asked for a client. -/
  asked : Nat
  /-- The clients that the engine was asked to close, one after the other. -/
  closed : List ClientId

/-- How often the factory was asked for a client. -/
def clientsAskedFor (log : List Happening) : Nat := log.countP Happening.asksForClient

/-- The clients that the engine was asked to close, one after the other. -/
def closedClients (log : List Happening) : List ClientId := log.filterMap Happening.closedClient?

/-- The client side of a relay. -/
def Relay.clientSide (r : Relay) : ClientSide := ⟨r.slot, clientsAskedFor r.log, closedClients r.log⟩

/-- Whether something seen from outside is about clients. -/
def Happening.concernsClients (h : Happening) : Bool := h.asksForClient || h.closedClient?.isSome

theorem mem_closedClients {log : List Happening} {client : ClientId} :
    client ∈ closedClients log ↔ .requested (.closeClient client) ∈ log := by
  rw [closedClients, List.mem_filterMap]
  constructor
  · rintro ⟨h, hmem, hclosed⟩
    cases h with
    | requested request =>
      cases request with
      | closeClient c =>
        cases hclosed
        exact hmem
      | _ => exact absurd hclosed (by simp [Happening.closedClient?])
    | _ => exact absurd hclosed (by simp [Happening.closedClient?])
  · exact fun hmem => ⟨_, hmem, rfl⟩

/-! ## What leaves the client side as it is -/

namespace Relay

theorem clientSide_note {h : Happening} (hc : h.concernsClients = false) (r : Relay) :
    (r.note h).clientSide = r.clientSide := by
  obtain ⟨hasked, hclosed⟩ := Bool.or_eq_false_iff.1 hc
  rw [Option.isSome_eq_false_iff, Option.isNone_iff_eq_none] at hclosed
  simp [clientSide, note, clientsAskedFor, closedClients, hasked, hclosed]

@[simp] theorem clientSide_report (r : Relay) (verb : EmissionVerb) (m : Metric) (value : Binary64) (labels : Labels) :
    (r.report verb m value labels).clientSide = r.clientSide :=
  clientSide_note rfl r

@[simp] theorem clientSide_count (r : Relay) (m : Metric) (labels : Labels) :
    (r.count m labels).clientSide = r.clientSide :=
  r.clientSide_report .increment m .one labels

@[simp] theorem clientSide_observe (r : Relay) (m : Metric) (value : Binary64) (labels : Labels) :
    (r.observe m value labels).clientSide = r.clientSide :=
  r.clientSide_report .observe m value labels

@[simp] theorem clientSide_reportSessions (r : Relay) : r.reportSessions.clientSide = r.clientSide :=
  r.clientSide_report .set .sessionsActive _ []

@[simp] theorem clientSide_foldl_note (emissions : List Emission) (r : Relay) :
    (emissions.foldl (fun r e => r.note (.reported e)) r).clientSide = r.clientSide := by
  induction emissions generalizing r with
  | nil => rfl
  | cons e rest ih => exact (ih _).trans (clientSide_note rfl r)

@[simp] theorem clientSide_withRegistry (r : Relay) (change : Registry → Registry) :
    (r.withRegistry change).clientSide = r.clientSide := rfl

@[simp] theorem clientSide_withBreaker (r : Relay) (change : Breaker → Breaker) :
    (r.withBreaker change).clientSide = r.clientSide := rfl

@[simp] theorem clientSide_recordFailure (r : Relay) (key : String) :
    (r.recordFailure key).clientSide = r.clientSide := rfl

@[simp] theorem clientSide_recordSuccess (r : Relay) (key : String) :
    (r.recordSuccess key).clientSide = r.clientSide := rfl

@[simp] theorem clientSide_updateTransaction (r : Relay) (id : TransactionId)
    (change : TransactionState → TransactionState) : (r.updateTransaction id change).clientSide = r.clientSide := rfl

@[simp] theorem clientSide_updateSession (r : Relay) (handle : SessionHandle) (counter : SessionCounter) (delta : Nat) :
    (r.updateSession handle counter delta).1.clientSide = r.clientSide := by
  unfold updateSession
  split <;> rfl

@[simp] theorem clientSide_bump (r : Relay) (handle : SessionHandle) (counter : SessionCounter) :
    (r.bump handle counter).clientSide = r.clientSide :=
  r.clientSide_updateSession handle counter 1

@[simp] theorem clientSide_markIdle (r : Relay) (handle : SessionHandle) :
    (r.markIdle handle).1.clientSide = r.clientSide := by
  unfold markIdle
  split <;> rfl

@[simp] theorem clientSide_recordError (r : Relay) (handle : SessionHandle) (failure : Failure) :
    (r.recordError handle failure).clientSide = r.clientSide := rfl

@[simp] theorem clientSide_registerTransaction (r : Relay) (state : TransactionState) :
    (r.registerTransaction state).1.clientSide = r.clientSide :=
  clientSide_report _ .set .transactionsActive _ []

@[simp] theorem clientSide_clearTransaction (r : Relay) (id : TransactionId) :
    (r.clearTransaction id).1.clientSide = r.clientSide := by
  unfold clearTransaction
  split
  · exact clientSide_report _ .set .transactionsActive _ []
  · rfl

@[simp] theorem clientSide_startReaper (r : Relay) : r.startReaper.1.clientSide = r.clientSide := by
  unfold startReaper
  split <;> rfl

@[simp] theorem clientSide_tellReaper (r : Relay) : r.tellReaper.1.clientSide = r.clientSide := by
  unfold tellReaper
  split <;> rfl

end Relay

/-! ### Transactions -/

namespace TransactionRun

variable (t : Transaction) (retries : Nat) (r : Relay)

@[simp] theorem leave_clientSide : (leave t r).clientSide = r.clientSide := by
  simp [leave]

@[simp] theorem finish_clientSide (outcome : Outcome) : (finish t outcome r).1.clientSide = r.clientSide :=
  leave_clientSide t r

@[simp] theorem attempt_clientSide : (attempt t retries r).1.clientSide = r.clientSide := by
  unfold attempt
  dsimp only
  split
  · exact Relay.clientSide_note rfl _
  · exact finish_clientSide t _ _

@[simp] theorem rollBack_clientSide (failure : Failure) : (rollBack t retries failure r).1.clientSide = r.clientSide :=
  Relay.clientSide_note rfl r

@[simp] theorem next_clientSide (results : List QueryResult) (rest : List Statement) :
    (next t retries results rest r).1.clientSide = r.clientSide := by
  cases rest with
  | nil => exact Relay.clientSide_note rfl r
  | cons current rest => exact Relay.clientSide_note rfl r

@[simp] theorem noteFailure_clientSide (failure : Failure) :
    (noteFailure t retries failure r).clientSide = r.clientSide := by
  simp [noteFailure]

@[simp] theorem giveUp_clientSide (failure outcome : Failure) :
    (giveUp t failure outcome r).1.clientSide = r.clientSide := by
  simp [giveUp]

@[simp] theorem afterFailure_clientSide (failure : Failure) :
    (afterFailure t retries failure r).1.clientSide = r.clientSide := by
  unfold afterFailure
  dsimp only
  split
  · simp
  · split <;> simp

@[simp] theorem noteResult_clientSide (result : QueryResult) : (noteResult t result r).clientSide = r.clientSide := by
  simp [noteResult]

@[simp] theorem afterCommit_clientSide (results : List QueryResult) :
    (afterCommit t results r).1.clientSide = r.clientSide := by
  simp [afterCommit]

theorem start_clientSide (session : SessionHandle) (statements : List Statement) (substrings : Option (List String)) :
    (start r session statements substrings).1.clientSide = r.clientSide := by
  unfold start
  split
  · simp
  · rfl

theorem resume_clientSide (p : TransactionRun) (answer : p.wait.Answer) :
    (p.resume answer r).1.clientSide = r.clientSide := by
  cases p with
  | beginning t retries =>
    cases answer with
    | ok _ => simp [resume]
    | error e => exact afterFailure_clientSide t retries r e
  | running t retries results current rest =>
    cases answer with
    | ok raw =>
      simp only [resume]
      split
      · simp
      · exact rollBack_clientSide t retries r _
    | error e => exact rollBack_clientSide t retries r e
  | rollingBack t retries e => exact afterFailure_clientSide t retries r e
  | committing t retries results =>
    cases answer with
    | ok _ => exact afterCommit_clientSide t r results
    | error e => exact rollBack_clientSide t retries r e
  | backingOff t retries delay => simp [resume]

end TransactionRun

/-! ### Sessions, reapers and reports -/

theorem Closing.start_clientSide (r : Relay) (id : SessionId) : (start r id).1.clientSide = r.clientSide := by
  unfold start
  split
  · rfl
  · dsimp only
    split
    · rfl
    · exact Relay.clientSide_note rfl _

theorem Closing.resume_clientSide (c : Closing) (reply : Except Failure Unit) (r : Relay) :
    (c.resume reply r).1.clientSide = r.clientSide := by
  simp [resume]

theorem Stopping.start_clientSide (r : Relay) : (start r).1.clientSide = r.clientSide := by
  have htold := r.clientSide_tellReaper
  unfold start
  split
  · rename_i r' h
    rwa [h] at htold
  · rename_i r' id h
    rw [h] at htold
    split <;> exact htold

theorem Reaping.settle_clientSide (r : Relay) (id : ReaperId) : (settle r id).1.clientSide = r.clientSide := by
  unfold settle
  split <;> rfl

theorem Operation.finish_clientSide (f : OperationFrame) (outcome : TransactionRun.Outcome) (r : Relay) :
    (finish f outcome r).1.clientSide = r.clientSide := by
  cases outcome with
  | ok _ => exact r.clientSide_observe _ _ _
  | error e => exact (Relay.clientSide_count _ _ _).trans (r.clientSide_observe _ _ _)

end QueryRelay
