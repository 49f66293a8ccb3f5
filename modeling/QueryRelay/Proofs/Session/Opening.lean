import QueryRelay.Proofs.Circuit.Admission
import QueryRelay.Proofs.Session.Invariant

/-!
# The ways out of an opening

An opening has five ways out: it finds no free place, the circuit of openings refuses it, the factory
has no client for it, the engine refuses it, or it gets its session.  Each of them treats the places, the
breaker, the client and the metrics in its own way; here is, for each, the relay that it leaves.

* `Stride` — a stretch of a call between two waits, and what can be read off it.
* `Opening.start_of_full`, `Opening.start_of_refused`, `Opening.start_of_no_client`,
  `Opening.start_of_client` — the beginning of an opening.
* `Opening.resume_ok`, `Opening.resume_error` — its end, when the engine was asked.
-/

namespace QueryRelay

/-! ## Strides -/

/-- Whether the factory is asked for a client. -/
def Happening.asksForClient : Happening → Bool
  | clientAsked => true
  | _ => false

/-- A stretch of a call from one wait to the next: the relay before it and the relay after it. -/
structure Stride where
  before : Relay
  after : Relay

namespace Stride

/-- What can be seen from outside of a stride. -/
def written (s : Stride) : List Happening := s.after.log.drop s.before.log.length

/-- How many places a stride takes, less those that it gives back. -/
def placesTaken (s : Stride) : Int := s.after.registry.pending - s.before.registry.pending

/-- In a stride the breaker is told these things, and asked these questions, about openings.  Nothing else
happens to it. -/
def Tells (s : Stride) (acts : List BreakerAct) : Prop :=
  s.after.breaker = s.before.breaker.after (acts.map fun act => ⟨sessionCreationKey, act, s.before.now⟩)

/-- How often the factory is asked for a client. -/
def clientsAsked (s : Stride) : Nat := s.written.countP Happening.asksForClient

theorem written_of_log {s : Stride} {more : List Happening} (h : s.after.log = s.before.log ++ more) :
    s.written = more := by
  rw [written, h, List.drop_left]

end Stride

/-! ## Refusals change nothing -/

/-- A refusal leaves the breaker as it is. -/
theorem Breaker.canExecute_of_refused {b : Breaker} {now : Instant} {key : String}
    (h : (b.canExecute now key).2 = false) : (b.canExecute now key).1 = b := by
  unfold canExecute at h ⊢
  cases hget : b.circuits.get? key with
  | none => rfl
  | some c =>
    rw [hget] at h
    have hcircuit : (c.pass b.config now).1 = c := Circuit.pass_of_refused h
    show ({ b with circuits := b.circuits.insert key (c.pass b.config now).1 } : Breaker) = b
    rw [hcircuit, Table.insert_eq_self hget]

namespace Relay

variable (r : Relay)

theorem canExecute_of_refused {key : String} (h : (r.canExecute key).2 = false) : (r.canExecute key).1 = r := by
  simp only [canExecute] at h ⊢
  rw [Breaker.canExecute_of_refused h]

/-- Whether all places are taken. -/
def isFull : Bool := decide (r.settings.limits.maxSessions ≤ r.registry.occupied)

/-- Whether the circuit of openings lets a call pass. -/
def admitsOpening : Bool := (r.canExecute sessionCreationKey).2

/-- Whether an opening that begins now asks the factory for a client: it is let through, and there is none. -/
def wantsClient : Bool := !r.isFull && r.admitsOpening && r.slot.client.isNone

/-! ## The client -/

/-- What getting a client changes. -/
theorem acquireClient_fst :
    r.acquireClient.1 =
      { r with
        slot := r.slot.acquire.1
        log := r.log ++ if r.slot.client.isNone then [.clientAsked] else [] } := by
  unfold acquireClient
  cases hclient : r.slot.client.isNone <;> simp [note]

theorem acquireClient_snd : r.acquireClient.2 = r.slot.acquire.2 := by
  unfold acquireClient
  cases r.slot.client.isNone <;> rfl

/-- What making the client anew changes: what is in the slot, and the log. -/
theorem recreateClient_fst :
    r.recreateClient.1 =
      { r with
        slot := r.slot.recreate.1
        log := r.log ++ .clientAsked ::
          match r.slot.recreate.2 with
          | .ok _ =>
            if r.settings.connection.reports then [.connectionReported (Metric.connectionRecreated.emit .one [])]
            else []
          | .error _ => [] } := by
  unfold recreateClient
  obtain ⟨slot, client⟩ := r.slot.recreate
  cases client with
  | ok _ =>
    cases hreports : r.settings.connection.reports with
    | true => simp [note, hreports, Metric.emit, Metric.definition, MetricKind.verb]
    | false => simp [note, hreports]
  | error _ => rfl

theorem recreateClient_snd : r.recreateClient.2 = r.slot.recreate.2 := rfl

end Relay

/-- A factory that fails leaves the client that there is. -/
theorem ClientSlot.client_recreate_of_error {s : ClientSlot} {failure : Failure} (h : s.recreate.2 = .error failure) :
    s.recreate.1.client = s.client := by
  unfold recreate at h ⊢
  split at h
  · exact absurd h (by simp)
  · rfl

/-- Where there is a client, it is taken; where there is none, it is made. -/
theorem ClientSlot.acquire_eq (s : ClientSlot) :
    s.acquire = match s.client with
      | some client => (s, .ok client)
      | none => s.recreate := rfl

/-! ## The ways out -/

namespace Opening

variable {r : Relay} {database : Option String} {options : Option SessionOptions}

theorem start_of_full (hfull : r.isFull = true) :
    start r database options =
      (r, .finished (.error (.resourceExhausted r.registry.occupied r.settings.limits.maxSessions))) := by
  have hnone : r.registry.reserve? r.settings.limits = none := if_pos (of_decide_eq_true hfull)
  rw [start, hnone]

/-- A relay with one more place taken. -/
def placed (r : Relay) : Relay := { r with registry := { r.registry with pending := r.registry.pending + 1 } }

theorem release_placed (r : Relay) : (placed r).withRegistry Registry.release = r := rfl

/-- What an opening does when there is a free place. -/
theorem start_of_free (hfree : r.isFull = false) :
    start r database options =
      if r.admitsOpening then
        match ((placed r).canExecute sessionCreationKey).1.acquireClient with
        | (r, .ok client) =>
          let o : Opening := ⟨client, database <|> r.settings.connection.database, options.getD {}⟩
          (r.ask (.openSession o.client o.database o.options), .waiting o)
        | (r, .error e) => ((r.recordFailure sessionCreationKey).withRegistry Registry.release, .finished (.error e))
      else
        (((placed r).canExecute sessionCreationKey).1.withRegistry Registry.release,
          .finished (.error (.circuitOpen sessionCreationKey))) := by
  have hsome : r.registry.reserve? r.settings.limits = some (placed r).registry := if_neg (of_decide_eq_false hfree)
  rw [start, hsome]
  rfl

/-- A refusal by the circuit gives the place back, and changes nothing else. -/
theorem start_of_refused (hfree : r.isFull = false) (hrefused : r.admitsOpening = false) :
    start r database options = (r, .finished (.error (.circuitOpen sessionCreationKey))) := by
  have hsame : ((placed r).canExecute sessionCreationKey).1 = placed r :=
    (placed r).canExecute_of_refused hrefused
  rw [start_of_free hfree, hrefused, hsame, release_placed]
  rfl

/-- What is seen when a client is wanted: the factory is asked where there is none. -/
def acquisition (r : Relay) : List Happening := if r.slot.client.isNone then [.clientAsked] else []

/-- Who was let through and has a client asks the engine, and keeps its place. -/
theorem start_of_client (hfree : r.isFull = false) (hadmits : r.admitsOpening = true) {client : ClientId}
    (hclient : r.slot.acquire.2 = .ok client) :
    start r database options =
      ({ placed r with
          breaker := (r.breaker.canExecute r.now sessionCreationKey).1
          slot := r.slot.acquire.1
          log := r.log ++ acquisition r ++
            [.requested (.openSession client (database <|> r.settings.connection.database) (options.getD {}))] },
        .waiting ⟨client, database <|> r.settings.connection.database, options.getD {}⟩) := by
  set asked : Relay := ((placed r).canExecute sessionCreationKey).1
  have hacquired : asked.acquireClient = (asked.acquireClient.1, .ok client) :=
    Prod.ext rfl (asked.acquireClient_snd.trans hclient)
  rw [start_of_free hfree, if_pos hadmits, hacquired, asked.acquireClient_fst]
  rfl

/-- Who was let through and has no client reports a failure, and gives its place back. -/
theorem start_of_no_client (hfree : r.isFull = false) (hadmits : r.admitsOpening = true) {failure : Failure}
    (hclient : r.slot.acquire.2 = .error failure) :
    start r database options =
      ({ r with
          breaker := (r.breaker.canExecute r.now sessionCreationKey).1.recordFailure r.now sessionCreationKey
          slot := r.slot.acquire.1
          log := r.log ++ acquisition r },
        .finished (.error failure)) := by
  set asked : Relay := ((placed r).canExecute sessionCreationKey).1
  have hacquired : asked.acquireClient = (asked.acquireClient.1, .error failure) :=
    Prod.ext rfl (asked.acquireClient_snd.trans hclient)
  rw [start_of_free hfree, if_pos hadmits, hacquired, asked.acquireClient_fst]
  rfl

/-- **How an opening begins**: it is over at once, and the factory may have been asked, or it waits for the engine to
open a session on the database that was named, and else on that of the connection. -/
theorem start_cases (r : Relay) (database : Option String) (options : Option SessionOptions) :
    (∃ r' failure, start r database options = (r', .finished (.error failure)) ∧
        (r'.log = r.log ∨ r'.log = r.log ++ acquisition r)) ∨
      ∃ r' o, start r database options = (r', .waiting o) ∧
        o.database = (database <|> r.settings.connection.database) ∧
        r'.log = r.log ++ acquisition r ++ [.requested (.openSession o.client o.database o.options)] := by
  cases hfull : r.isFull with
  | true => exact .inl ⟨r, _, start_of_full hfull, .inl rfl⟩
  | false =>
    cases hadmits : r.admitsOpening with
    | false => exact .inl ⟨r, _, start_of_refused hfull hadmits, .inl rfl⟩
    | true =>
      cases hclient : r.slot.acquire.2 with
      | error failure => exact .inl ⟨_, failure, start_of_no_client hfull hadmits hclient, .inr rfl⟩
      | ok client => exact .inr ⟨_, _, start_of_client hfull hadmits hclient, rfl, rfl⟩

/-- Who has a session reports a success; its place goes over to the session. -/
theorem resume_ok (o : Opening) (remote : RemoteSession) (r : Relay) :
    o.resume (.ok remote) r =
      ({ r with
          registry := (r.registry.track o.database remote r.now).1
          breaker := r.breaker.recordSuccess sessionCreationKey
          log := r.log ++
            SessionSide.openedReport o (r.registry.track o.database remote r.now).1.sessions.size },
        .ok (r.registry.track o.database remote r.now).2) := by
  simp [resume, Relay.reportSessions, Relay.gauge, Relay.count, Relay.report, Relay.note, Relay.recordSuccess,
    Relay.withBreaker, SessionSide.openedReport, Metric.emit, Metric.definition, MetricKind.verb]

/-- Whether the engine could not be reached. -/
def isUnreachable : Except Failure RemoteSession → Bool
  | .ok _ => false
  | .error failure => failure.kind = .connectionFailure

/-- What is seen when a client is made anew. -/
def recreation (r : Relay) : List Happening :=
  .clientAsked ::
    match r.slot.recreate.2 with
    | .ok _ =>
      if r.settings.connection.reports then [.connectionReported (Metric.connectionRecreated.emit .one [])] else []
    | .error _ => []

/-- Who is refused by the engine reports a failure, and gives its place back.  Only where the engine could
not be reached, the client is made anew. -/
theorem resume_error (o : Opening) (failure : Failure) (r : Relay) :
    o.resume (.error failure) r =
      ({ r with
          registry := r.registry.release
          breaker := r.breaker.recordFailure r.now sessionCreationKey
          slot := if failure.kind = .connectionFailure then r.slot.recreate.1 else r.slot
          log := r.log ++ if failure.kind = .connectionFailure then recreation r else [] },
        .error failure) := by
  cases failure with
  | connectionFailure message =>
    simp only [resume, Relay.recreateClient_fst]
    rfl
  | _ => simp [resume, Failure.kind, Relay.recordFailure, Relay.withBreaker, Relay.withRegistry]

end Opening

end QueryRelay
