import QueryRelay.Proofs.Connection.Side
import QueryRelay.Proofs.Exchange.Errand

/-!
# Dealings with the client

Statements outside a session, openings of sessions and whoever ends the connection all deal with the one slot for the
client, at different moments and in any order.  A `Dealing` is what they do to it between two waits: they acquire the
client, have it recreated, or close it.

* `Dealing.Course`, `Dealing.course` — what a dealing can do, said once: it finds a client, it has one made, it finds that
  the factory fails, or it empties the slot.
* `Deed.dealing?`, `Errand.dealing?` — which calls deal with the client, and on which relay.
* `ClientStep` — anything that can happen to a relay, with its dealing; `ClientStep.dealtWith`: **the client side of a
  relay changes in dealings only**.
-/

namespace QueryRelay

/-! ## What a dealing does -/

/-- What can be done with the client of a connection. -/
inductive ClientAct where
  | acquire
  | recreate
  | close
deriving Repr, DecidableEq, Inhabited

/-- Something that is done with the client, and the relay on which it is done. -/
structure Dealing where
  act : ClientAct
  before : Relay

namespace Dealing

/-- The relay after it. -/
def after (d : Dealing) : Relay :=
  match d.act with
  | .acquire => d.before.acquireClient.1
  | .recreate => d.before.recreateClient.1
  | .close => (ClientClosing.start d.before).1

/-- What whoever acquires or recreates the client gets. -/
def outcome? (d : Dealing) : Option (Except Failure ClientId) :=
  match d.act with
  | .acquire => some d.before.acquireClient.2
  | .recreate => some d.before.recreateClient.2
  | .close => none

/-- How often the factory is asked in it. -/
def clientsAsked (d : Dealing) : Nat := d.after.clientSide.asked - d.before.clientSide.asked

/-- What the factory gives in it, if it is asked. -/
def given? (d : Dealing) : Option (Except Failure ClientId) :=
  if d.clientsAsked = 0 then none else some d.before.slot.factory.make.2

/-- The client that the factory makes in it, if it is asked and does not fail. -/
def made? (d : Dealing) : Option ClientId := d.given?.bind Except.toOption

end Dealing

namespace ClientSlot

variable {s : ClientSlot}

theorem recreate_of_ok {client : ClientId} (h : s.factory.make.2 = .ok client) :
    s.recreate = (⟨s.factory.make.1, some client⟩, .ok client) := by
  have hmake : s.factory.make = (s.factory.make.1, .ok client) := Prod.ext rfl h
  rw [recreate, hmake]

theorem recreate_of_error {failure : Failure} (h : s.factory.make.2 = .error failure) :
    s.recreate = ({ s with factory := s.factory.make.1 }, .error failure) := by
  have hmake : s.factory.make = (s.factory.make.1, .error failure) := Prod.ext rfl h
  rw [recreate, hmake]

end ClientSlot

namespace Relay

variable (r : Relay)

theorem acquireClient_of_some {client : ClientId} (h : r.slot.client = some client) :
    r.acquireClient = (r, .ok client) := by
  simp [acquireClient, ClientSlot.acquire_eq, h]

theorem acquireClient_snd_of_none (h : r.slot.client = none) : r.acquireClient.2 = r.slot.recreate.2 := by
  rw [acquireClient_snd, ClientSlot.acquire_eq, h]

theorem clientSide_acquireClient_of_none (h : r.slot.client = none) :
    r.acquireClient.1.clientSide = ⟨r.slot.recreate.1, clientsAskedFor r.log + 1, closedClients r.log⟩ := by
  rw [acquireClient_fst, ClientSlot.acquire_eq, h]
  simp [clientSide, clientsAskedFor, closedClients, Happening.asksForClient, Happening.closedClient?]

theorem clientSide_recreateClient :
    r.recreateClient.1.clientSide = ⟨r.slot.recreate.1, clientsAskedFor r.log + 1, closedClients r.log⟩ := by
  rw [recreateClient_fst]
  cases r.slot.recreate.2 with
  | ok client =>
    cases r.settings.connection.reports <;>
      simp [clientSide, clientsAskedFor, closedClients, List.countP_cons, Happening.asksForClient,
        Happening.closedClient?]
  | error failure => simp [clientSide, clientsAskedFor, closedClients, Happening.asksForClient, Happening.closedClient?]

end Relay

theorem ClientClosing.start_clientSide (r : Relay) :
    (start r).1.clientSide =
      ⟨{ r.slot with client := none }, clientsAskedFor r.log, closedClients r.log ++ r.slot.client.toList⟩ := by
  rw [start, ClientSlot.take]
  cases r.slot.client <;>
    simp [Relay.clientSide, Relay.ask, Relay.note, clientsAskedFor, closedClients, Happening.asksForClient,
      Happening.closedClient?]

/-- What a dealing can do. -/
inductive Dealing.Course (d : Dealing) : Prop
  /-- Who acquires the client finds it, and nothing changes. -/
  | finds (client : ClientId) (hact : d.act = .acquire) (hclient : d.before.slot.client = some client)
      (hside : d.after.clientSide = d.before.clientSide) (houtcome : d.outcome? = some (.ok client))
  /-- The factory makes a client, which is stored in place of the one before. -/
  | makes (client : ClientId) (hact : d.act ≠ .close) (hneeded : d.act = .acquire → d.before.slot.client = none)
      (hmake : d.before.slot.factory.make.2 = .ok client)
      (hside : d.after.clientSide = ⟨⟨d.before.slot.factory.make.1, some client⟩, d.before.clientSide.asked + 1,
        d.before.clientSide.closed⟩) (houtcome : d.outcome? = some (.ok client))
  /-- The factory fails, and what is stored remains. -/
  | fails (failure : Failure) (hact : d.act ≠ .close) (hneeded : d.act = .acquire → d.before.slot.client = none)
      (hmake : d.before.slot.factory.make.2 = .error failure)
      (hside : d.after.clientSide = ⟨{ d.before.slot with factory := d.before.slot.factory.make.1 },
        d.before.clientSide.asked + 1, d.before.clientSide.closed⟩) (houtcome : d.outcome? = some (.error failure))
  /-- What is stored is taken out and closed. -/
  | empties (hact : d.act = .close)
      (hside : d.after.clientSide = ⟨{ d.before.slot with client := none }, d.before.clientSide.asked,
        d.before.clientSide.closed ++ d.before.slot.client.toList⟩) (houtcome : d.outcome? = none)

namespace Dealing

/-- A dealing that asks the factory: it goes well or it fails. -/
theorem course_of_asking {d : Dealing} (hact : d.act ≠ .close)
    (hneeded : d.act = .acquire → d.before.slot.client = none)
    (hside : d.after.clientSide =
      ⟨d.before.slot.recreate.1, clientsAskedFor d.before.log + 1, closedClients d.before.log⟩)
    (houtcome : d.outcome? = some d.before.slot.recreate.2) : d.Course := by
  cases hmake : d.before.slot.factory.make.2 with
  | ok client =>
    rw [ClientSlot.recreate_of_ok hmake] at hside houtcome
    exact .makes client hact hneeded hmake hside houtcome
  | error failure =>
    rw [ClientSlot.recreate_of_error hmake] at hside houtcome
    exact .fails failure hact hneeded hmake hside houtcome

/-- **What a dealing can do.** -/
theorem course (d : Dealing) : d.Course := by
  obtain ⟨act, r⟩ := d
  cases act with
  | acquire =>
    cases hclient : r.slot.client with
    | some client =>
      have hfound : r.acquireClient = (r, .ok client) := r.acquireClient_of_some hclient
      refine .finds client rfl hclient ?_ ?_
      · simp only [after, hfound]
      · simp only [outcome?, hfound]
    | none =>
      exact course_of_asking (by simp) (fun _ => hclient) (r.clientSide_acquireClient_of_none hclient)
        (congrArg some (r.acquireClient_snd_of_none hclient))
  | recreate => exact course_of_asking (by simp) (by simp) r.clientSide_recreateClient rfl
  | close => exact .empties rfl (ClientClosing.start_clientSide r) rfl

end Dealing

/-! ## Who deals with the client -/

/-- The dealing of a deed: statements, and openings that are let through, acquire the client. -/
def Deed.dealing? : Deed → Relay → Option Dealing
  | openSession _ _, r =>
    if !r.isFull && r.admitsOpening then some ⟨.acquire, ((Opening.placed r).canExecute sessionCreationKey).1⟩ else none
  | execute _ _, r => some ⟨.acquire, r⟩
  | acquireClient, r => some ⟨.acquire, r⟩
  | recreateClient, r => some ⟨.recreate, r⟩
  | closeClient, r => some ⟨.close, r⟩
  | _, _ => none

/-- The dealing at the end of an errand: the client is recreated where the engine could not be reached for a session, and
after the pause that follows a failed attempt to run a statement. -/
def Errand.dealing? (answers : Answers) : Errand → Relay → Option Dealing
  | opening o, r =>
    if Opening.isUnreachable (answers o.wait) then some ⟨.recreate, r.recordFailure sessionCreationKey⟩ else none
  | executing (.delaying _ _ _ _), r => some ⟨.recreate, r⟩
  | _, _ => none

/-- From one relay to another the client was dealt with in this way only, if at all. -/
def DealtWith (r r' : Relay) : Option Dealing → Prop
  | some d => d.before.clientSide = r.clientSide ∧ r'.clientSide = d.after.clientSide
  | none => r'.clientSide = r.clientSide

namespace Opening

theorem start_dealtWith (r : Relay) (database : Option String) (options : Option SessionOptions) :
    DealtWith r (start r database options).1 (Deed.dealing? (.openSession database options) r) := by
  cases hfull : r.isFull with
  | true =>
    rw [start_of_full hfull, Deed.dealing?, hfull]
    exact rfl
  | false =>
    cases hadmits : r.admitsOpening with
    | false =>
      rw [start_of_refused hfull hadmits, Deed.dealing?, hfull, hadmits]
      exact rfl
    | true =>
      rw [start_of_free hfull, Deed.dealing?, hfull, hadmits]
      refine ⟨rfl, ?_⟩
      simp only [if_true, Dealing.after]
      generalize ((placed r).canExecute sessionCreationKey).1.acquireClient = acquired
      obtain ⟨r', client⟩ := acquired
      cases client with
      | ok client => exact Relay.clientSide_note rfl r'
      | error e => rfl

theorem resume_dealtWith (answers : Answers) (o : Opening) (r : Relay) :
    DealtWith r (o.resume (answers o.wait) r).1 (Errand.dealing? answers (.opening o) r) := by
  rw [Errand.dealing?]
  cases answers o.wait with
  | ok remote =>
    show (o.resume (.ok remote) r).1.clientSide = r.clientSide
    simp only [resume, Relay.clientSide_reportSessions, Relay.clientSide_count, Relay.clientSide_recordSuccess]
    rfl
  | error e =>
    cases e with
    | connectionFailure message => exact ⟨rfl, rfl⟩
    | _ => exact rfl

end Opening

namespace Execution

theorem start_dealtWith (r : Relay) (routing : RoutingMode) (statement : Statement) :
    DealtWith r (start r routing statement).1 (some ⟨.acquire, r⟩) := by
  refine ⟨rfl, ?_⟩
  rw [start, Dealing.after]
  generalize r.acquireClient = acquired
  obtain ⟨r', client⟩ := acquired
  cases client with
  | ok client => exact Relay.clientSide_note rfl r'
  | error e => rfl

theorem resume_dealtWith (answers : Answers) (p : Execution) (r : Relay) :
    DealtWith r (p.resume (answers p.wait) r).1 (Errand.dealing? answers (.executing p) r) := by
  cases p with
  | executing client database routing statement attempt =>
    cases answers (executing client database routing statement attempt).wait with
    | ok raw => exact rfl
    | error e =>
      simp only [resume]
      split <;> exact rfl
  | delaying span routing statement attempt =>
    refine ⟨rfl, ?_⟩
    simp only [resume, Dealing.after]
    generalize r.recreateClient = recreated
    obtain ⟨r', client⟩ := recreated
    cases client with
    | ok client => exact Relay.clientSide_note rfl r'
    | error e => rfl

end Execution

theorem Deed.perform_dealtWith (d : Deed) (r : Relay) : DealtWith r (d.perform r).1 (d.dealing? r) := by
  cases d with
  | openSession database options => exact Opening.start_dealtWith r database options
  | closeSession id => exact Closing.start_clientSide r id
  | transact session statements substrings => exact TransactionRun.start_clientSide r session statements substrings
  | execute routing statement => exact Execution.start_dealtWith r routing statement
  | closeClient | acquireClient | recreateClient => exact ⟨rfl, rfl⟩
  | startReaper => exact r.clientSide_startReaper
  | stopReaper => exact Stopping.start_clientSide r
  | settleReaper reaper => exact Reaping.settle_clientSide r reaper
  | update session counter delta => exact r.clientSide_updateSession session counter delta
  | markIdle session => exact r.clientSide_markIdle session
  | clear id => exact r.clientSide_clearTransaction id
  | finish f outcome => exact Operation.finish_clientSide f outcome r
  | recordError | recordFailure | recordSuccess | canExecute | forget => exact rfl

theorem Errand.resume_dealtWith (answers : Answers) (e : Errand) (r : Relay) :
    DealtWith r (e.resume answers r).1 (e.dealing? answers r) := by
  cases e with
  | opening o => exact o.resume_dealtWith answers r
  | closing c => exact c.resume_clientSide (answers c.wait) r
  | transacting t => exact TransactionRun.resume_clientSide r t (answers t.wait)
  | executing p => exact p.resume_dealtWith answers r
  | closingClient | resting | stopping => exact rfl

theorem Errand.drop_clientSide (e : Errand) (r : Relay) : (e.drop r).clientSide = r.clientSide := by
  cases e with
  | transacting t => exact TransactionRun.leave_clientSide t.transaction r
  | _ => rfl

/-! ## Steps -/

/-- What can happen to a relay, with its dealing if there is one. -/
inductive ClientStep : Relay → Option Dealing → Relay → Prop
  /-- A call does something without waiting. -/
  | done (d : Deed) (r : Relay) : ClientStep r (d.dealing? r) (d.perform r).1
  /-- A call has waited, and goes on. -/
  | ended (e : Errand) (answers : Answers) (r : Relay) : ClientStep r (e.dealing? answers r) (e.resume answers r).1
  /-- A call that waits is dropped. -/
  | dropped (e : Errand) (r : Relay) : ClientStep r none (e.drop r)
  | elapsed (span : Duration) (r : Relay) : ClientStep r none { r with now := r.now + span.nanos }

/-- **Nothing but its dealing changes the client side.** -/
theorem ClientStep.dealtWith {r r' : Relay} {dealing : Option Dealing} (h : ClientStep r dealing r') :
    DealtWith r r' dealing := by
  cases h with
  | done d r => exact d.perform_dealtWith r
  | ended e answers r => exact e.resume_dealtWith answers r
  | dropped e r => exact e.drop_clientSide r
  | elapsed span r => exact rfl

end QueryRelay
