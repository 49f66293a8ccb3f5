import QueryRelay.Proofs.Exchange.Passage
import QueryRelay.Proofs.Session.Opening
import QueryRelay.Proofs.Session.Since

/-!
# A statement outside a session

A statement outside a session runs on the client of the connection.  While the connection seems to be at fault, the call
pauses, replaces the client and tries again, as often as the settings allow.  This module follows a call through all its
attempts, whatever the factory gives and the engine answers, as long as nobody else changes the client in between.

* `ClientSlot.supply` — what the factory gives at first, and in place of that, one time after the other.
* `Execution.HasCome` — how far a call has come, with all that it has heard and written; `HasCome.start` and
  `HasCome.resume` are its steps.
* `Exchange.Executes` — the invariant of the run, with one lemma for each kind of move.
* `execute_retries_as_documented` — **what a call amounts to**: which attempts there are, on which clients, what comes
  between them and how they end.
-/

namespace QueryRelay

/-! ## Clients, one after the other -/

namespace ClientSlot

/-- The client of a connection, and then its replacements, each by what the factory gives for it. -/
def supply (s : ClientSlot) : Nat → ClientSlot × Except Failure ClientId
  | 0 => s.acquire
  | n + 1 => (s.supply n).1.recreate

variable {s : ClientSlot} {client : ClientId} {failure : Failure}

theorem client_recreate_of_ok (h : s.recreate.2 = .ok client) : s.recreate.1.client = some client := by
  unfold recreate at h ⊢
  split at h
  · cases h
    rfl
  · exact absurd h (by simp)

theorem client_acquire_of_ok (h : s.acquire.2 = .ok client) : s.acquire.1.client = some client := by
  rw [acquire_eq] at h ⊢
  cases hclient : s.client with
  | some c =>
    rw [hclient] at h
    cases h
    exact hclient
  | none =>
    rw [hclient] at h
    exact client_recreate_of_ok h

theorem client_acquire_of_error (h : s.acquire.2 = .error failure) : s.acquire.1.client = none := by
  rw [acquire_eq] at h ⊢
  cases hclient : s.client with
  | some c =>
    rw [hclient] at h
    exact absurd h (by simp)
  | none =>
    rw [hclient] at h
    exact (client_recreate_of_error h).trans hclient

/-- What was made last is stored. -/
theorem client_supply_of_ok {n : Nat} (h : (s.supply n).2 = .ok client) : (s.supply n).1.client = some client := by
  cases n with
  | zero => exact client_acquire_of_ok h
  | succ n => exact client_recreate_of_ok h

end ClientSlot

/-! ## What is heard and written -/

/-- The report of a client that was replaced. -/
def recreationReport : Emission := Metric.connectionRecreated.emit .one []

namespace Happening

/-- The client on which a statement is tried. -/
def triedOn? : Happening → Option ClientId
  | requested (.execute client _ _ _) => some client
  | _ => none

/-- Whether the connection reports that its client was replaced. -/
def isRecreation : Happening → Bool
  | connectionReported e => decide (e = recreationReport)
  | _ => false

end Happening

namespace Execution

section Trace

variable (before : Relay) (routing : RoutingMode) (statement : Statement)

/-- What is written when a client is asked for, at first or in place of the one before. -/
def askingFor : Nat → List Happening
  | 0 => if before.slot.client.isNone then [.clientAsked] else []
  | n + 1 => .clientAsked ::
    match (before.slot.supply (n + 1)).2 with
    | .ok _ => if before.settings.connection.reports then [.connectionReported recreationReport] else []
    | .error _ => []

/-- The request of an attempt. -/
def attempt (client : ClientId) : Request := .execute client before.settings.connection.database routing statement

/-- What is heard at the end of an attempt. -/
def attemptHeard (client : ClientId) (reply : Except Failure RawResult) : Heard :=
  ⟨.reply (.execute client before.settings.connection.database routing statement), reply⟩

/-- What is heard at the end of the pause after it. -/
def pauseHeard : Heard := ⟨.pause before.settings.connection.reconnectDelay, ()⟩

/-- What is written in attempts on these clients: before each of them the client is asked for. -/
def attemptsWritten (clients : List ClientId) : List Happening :=
  clients.zipIdx.flatMap fun c => askingFor before c.2 ++ [.requested (attempt before routing statement c.1)]

/-- What is heard in the attempts that failed: each failure, and one pause after it. -/
def triesHeard (tries : List (ClientId × Failure)) : List Heard :=
  tries.flatMap fun t => [attemptHeard before routing statement t.1 (.error t.2), pauseHeard before]

theorem attemptsWritten_concat (clients : List ClientId) (client : ClientId) :
    attemptsWritten before routing statement (clients ++ [client]) =
      attemptsWritten before routing statement clients ++
        (askingFor before clients.length ++ [.requested (attempt before routing statement client)]) := by
  simp [attemptsWritten, List.zipIdx_append]

theorem triesHeard_concat (tries : List (ClientId × Failure)) (t : ClientId × Failure) :
    triesHeard before routing statement (tries ++ [t]) =
      triesHeard before routing statement tries ++
        [attemptHeard before routing statement t.1 (.error t.2), pauseHeard before] := by
  simp [triesHeard]

theorem length_triesHeard (tries : List (ClientId × Failure)) :
    (triesHeard before routing statement tries).length = 2 * tries.length := by
  simp [triesHeard, List.length_flatMap, Nat.mul_comm]

end Trace

/-! ## How far a call has come -/

/-- Each of these clients is what the factory gave at its place. -/
def Supplied (before : Relay) (clients : List ClientId) : Prop :=
  ∀ (n : Nat) client, clients[n]? = some client → (before.slot.supply n).2 = .ok client

/-- Attempts that failed and were followed by another one, or will be: each ran on the client that the factory had given
just before, failed in a way that a new connection may mend, and was not the last one that is allowed. -/
structure Retried (before : Relay) (tries : List (ClientId × Failure)) : Prop where
  few : tries.length < before.settings.connection.maxAttempts
  clients : Supplied before (tries.map Prod.fst)
  related : ∀ t ∈ tries, t.2.isConnectionRelated = true

/-- How far a call has come, by the attempts that failed: what it has heard and written, and what is stored. -/
inductive HasCome (before : Relay) (routing : RoutingMode) (statement : Statement) :
    List (ClientId × Failure) → List Heard → List Happening → ClientSlot → Progress Execution Outcome → Prop
  /-- The factory fails: its failure is returned, and nothing is tried any more. -/
  | refused {tries : List (ClientId × Failure)} {slot : ClientSlot} {failure : Failure}
    (hretried : Retried before tries) (hrefused : (before.slot.supply tries.length).2 = .error failure)
    (hslot : slot = (before.slot.supply tries.length).1) :
    HasCome before routing statement tries (triesHeard before routing statement tries)
      (attemptsWritten before routing statement (tries.map Prod.fst) ++ askingFor before tries.length) slot
      (.finished (.error failure))
  /-- An attempt runs on the client that the factory has just given, or that was stored at first. -/
  | executing {tries : List (ClientId × Failure)} {slot : ClientSlot} {client : ClientId}
    (hretried : Retried before tries) (hclient : (before.slot.supply tries.length).2 = .ok client)
    (hslot : slot = (before.slot.supply tries.length).1) :
    HasCome before routing statement tries (triesHeard before routing statement tries)
      (attemptsWritten before routing statement (tries.map Prod.fst ++ [client])) slot
      (.waiting (.executing client before.settings.connection.database routing statement (tries.length + 1)))
  /-- The last attempt has failed, and the call pauses before the next one. -/
  | delaying {tries : List (ClientId × Failure)} {t : ClientId × Failure} {slot : ClientSlot}
    (hretried : Retried before (tries ++ [t])) (hslot : slot = (before.slot.supply tries.length).1) :
    HasCome before routing statement (tries ++ [t])
      (triesHeard before routing statement tries ++ [attemptHeard before routing statement t.1 (.error t.2)])
      (attemptsWritten before routing statement ((tries ++ [t]).map Prod.fst)) slot
      (.waiting (.delaying before.settings.connection.reconnectDelay routing statement (tries.length + 1)))
  /-- An attempt gives records, or fails in another way, or was the last one that is allowed: what the engine answered
  is returned, and the stored client is left as it is. -/
  | answered {tries : List (ClientId × Failure)} {slot : ClientSlot} {client : ClientId}
    {reply : Except Failure RawResult} (hretried : Retried before tries)
    (hclient : (before.slot.supply tries.length).2 = .ok client)
    (hover : ∀ failure, reply = .error failure → failure.isConnectionRelated = false ∨
      tries.length + 1 = before.settings.connection.maxAttempts)
    (hslot : slot = (before.slot.supply tries.length).1) :
    HasCome before routing statement tries
      (triesHeard before routing statement tries ++ [attemptHeard before routing statement client reply])
      (attemptsWritten before routing statement (tries.map Prod.fst ++ [client])) slot
      (.finished (reply.map RawResult.records))

theorem Supplied.concat {before : Relay} {clients : List ClientId} (h : Supplied before clients) {client : ClientId}
    (hclient : (before.slot.supply clients.length).2 = .ok client) : Supplied before (clients ++ [client]) := by
  intro n c hn
  rw [List.getElem?_append] at hn
  split at hn
  · exact h n c hn
  · rename_i hlast
    rw [List.getElem?_singleton] at hn
    split at hn
    · cases hn
      rwa [show n = clients.length by omega]
    · exact absurd hn (by simp)

namespace Retried

variable {before : Relay} {tries : List (ClientId × Failure)} {client : ClientId}

theorem nil (h : 1 ≤ before.settings.connection.maxAttempts) : Retried before [] :=
  ⟨h, fun _ _ hn => absurd hn (by simp), fun _ ht => absurd ht List.not_mem_nil⟩

/-- The client of the attempt that follows. -/
theorem supplied_concat (h : Retried before tries) (hclient : (before.slot.supply tries.length).2 = .ok client) :
    Supplied before (tries.map Prod.fst ++ [client]) :=
  h.clients.concat (by rwa [List.length_map])

/-- The attempt that follows fails as well, and is not the last one. -/
theorem concat (h : Retried before tries) (hclient : (before.slot.supply tries.length).2 = .ok client)
    {failure : Failure} (hrelated : failure.isConnectionRelated = true)
    (hfew : tries.length + 1 < before.settings.connection.maxAttempts) :
    Retried before (tries ++ [(client, failure)]) where
  few := by rwa [List.length_append, List.length_singleton]
  clients := by
    rw [List.map_append]
    exact h.supplied_concat hclient
  related := by
    intro t ht
    rcases List.mem_append.1 ht with hbefore | hnew
    · exact h.related t hbefore
    · cases List.mem_singleton.1 hnew
      exact hrelated

end Retried

namespace HasCome

variable {before r : Relay} {routing : RoutingMode} {statement : Statement} {tries : List (ClientId × Failure)}
  {heard : List Heard} {written : List Happening}

/-- **The beginning.** -/
theorem start (hm : 1 ≤ before.settings.connection.maxAttempts) :
    ∃ written, (Execution.start before routing statement).1.log = before.log ++ written ∧
      HasCome before routing statement [] [] written (Execution.start before routing statement).1.slot
        (Execution.start before routing statement).2 := by
  have hfst := before.acquireClient_fst
  have hsnd := before.acquireClient_snd
  rw [Execution.start]
  generalize before.acquireClient = acquired at hfst hsnd
  obtain ⟨r, client⟩ := acquired
  dsimp only at hfst hsnd
  subst hfst
  cases client with
  | error failure => exact ⟨_, rfl, refused (.nil hm) hsnd.symm rfl⟩
  | ok client =>
    have hexecuting := @executing before routing statement [] _ client (.nil hm) hsnd.symm rfl
    rw [attemptsWritten_concat] at hexecuting
    exact ⟨_, List.append_assoc _ _ _, hexecuting⟩

/-- **The engine answers**: the call is over, or pauses before the next attempt. -/
theorem answer {client : ClientId} (hretried : Retried before tries)
    (hclient : (before.slot.supply tries.length).2 = .ok client) (hslot : r.slot = (before.slot.supply tries.length).1)
    (hsettings : r.settings = before.settings) (database : Option String) (reply : Except Failure RawResult) :
    ∃ tries' p, (Execution.executing client database routing statement (tries.length + 1)).resume reply r = (r, p) ∧
      HasCome before routing statement tries'
        (triesHeard before routing statement tries ++ [attemptHeard before routing statement client reply])
        (attemptsWritten before routing statement (tries.map Prod.fst ++ [client])) r.slot p := by
  cases reply with
  | ok raw =>
    exact ⟨tries, _, rfl, answered hretried hclient (fun failure hfailure => absurd hfailure (by simp)) hslot⟩
  | error failure =>
    have hfew := hretried.few
    simp only [Execution.resume, hsettings]
    cases hagain : failure.isConnectionRelated &&
        decide (tries.length + 1 < before.settings.connection.maxAttempts) with
    | true =>
      obtain ⟨hrelated, hmore⟩ := Bool.and_eq_true_iff.1 hagain
      have hnext := hretried.concat hclient hrelated (of_decide_eq_true hmore)
      have hdelaying := @delaying before routing statement _ _ _ hnext hslot
      rw [List.map_append] at hdelaying
      exact ⟨tries ++ [(client, failure)], _, rfl, hdelaying⟩
    | false =>
      refine ⟨tries, _, rfl, @answered before routing statement _ _ _ (.error failure) hretried hclient ?_ hslot⟩
      intro other hother
      cases hother
      rcases Bool.and_eq_false_iff.1 hagain with hrelated | hmore
      · exact .inl hrelated
      · exact .inr (by have := of_decide_eq_false hmore; omega)

/-- **The pause has passed**: the factory is asked for another client, and with that the call tries again. -/
theorem tryAgain {t : ClientId × Failure} (hretried : Retried before (tries ++ [t]))
    (hslot : r.slot = (before.slot.supply tries.length).1) (hsettings : r.settings = before.settings)
    (pause : Duration) :
    ∃ more r' p, (Execution.delaying pause routing statement (tries.length + 1)).resume () r = (r', p) ∧
      r'.log = r.log ++ more ∧
      HasCome before routing statement (tries ++ [t]) (triesHeard before routing statement (tries ++ [t]))
        (attemptsWritten before routing statement ((tries ++ [t]).map Prod.fst) ++ more) r'.slot p := by
  have hlength : (tries ++ [t]).length = tries.length + 1 := by simp
  have hsupply : before.slot.supply (tries ++ [t]).length = r.slot.recreate := by
    rw [hlength, hslot, ClientSlot.supply]
  have hasking : askingFor before (tries ++ [t]).length = Opening.recreation r := by
    rw [hlength, askingFor, ← hlength, hsupply, Opening.recreation, hsettings]
    rfl
  have hfst := r.recreateClient_fst
  have hsnd : r.recreateClient.2 = r.slot.recreate.2 := r.recreateClient_snd
  simp only [Execution.resume]
  generalize r.recreateClient = recreated at hfst hsnd
  obtain ⟨r', client⟩ := recreated
  dsimp only at hfst hsnd
  subst hfst
  cases client with
  | error failure =>
    have hrefused := @refused before routing statement (tries ++ [t]) r.slot.recreate.1 failure hretried
      (by rw [hsupply, hsnd]) (by rw [hsupply])
    exact ⟨_, _, _, rfl, by rw [hasking]; rfl, hrefused⟩
  | ok client =>
    have hexecuting := @executing before routing statement (tries ++ [t]) r.slot.recreate.1 client hretried
      (by rw [hsupply, hsnd]) (by rw [hsupply])
    rw [attemptsWritten_concat, List.length_map, hasking] at hexecuting
    rw [hlength, ← hsettings] at hexecuting
    refine ⟨_, _, _, rfl, ?_, hexecuting⟩
    rw [← List.append_assoc, attempt, ← hsettings]
    rfl

/-- **The wait is over**: the engine has answered, or the pause has passed. -/
theorem resume {p : Execution} (h : HasCome before routing statement tries heard written r.slot (.waiting p))
    (hsettings : r.settings = before.settings) (answer : p.wait.Answer) :
    ∃ tries' more, (p.resume answer r).1.log = r.log ++ more ∧
      HasCome before routing statement tries' (heard ++ [⟨p.wait, answer⟩]) (written ++ more) (p.resume answer r).1.slot
        (p.resume answer r).2 := by
  generalize hslot : r.slot = slot at h
  cases h with
  | @executing tries _ client hretried hclient hsame =>
    obtain ⟨tries', p, hresume, hcome⟩ := HasCome.answer hretried hclient (hslot.trans hsame) hsettings _ answer
    refine ⟨tries', [], ?_, ?_⟩
    · rw [hresume, List.append_nil]
    · rw [hresume, List.append_nil]
      exact hcome
  | @delaying tries t _ hretried hsame =>
    obtain ⟨more, r', p, hresume, hlog, hcome⟩ := tryAgain hretried (hslot.trans hsame) hsettings _
    have hheard : triesHeard before routing statement tries ++
        [attemptHeard before routing statement t.1 (.error t.2)] ++ [pauseHeard before] =
          triesHeard before routing statement (tries ++ [t]) := by
      rw [triesHeard_concat, List.append_assoc]
      rfl
    refine ⟨tries ++ [t], more, ?_, ?_⟩
    · rw [hresume]
      exact hlog
    · rw [hresume]
      exact hheard ▸ hcome

end HasCome

/-! ## What was written -/

section Written

variable {before : Relay} {routing : RoutingMode} {statement : Statement} {clients : List ClientId}

theorem triedOn_askingFor (n : Nat) : (askingFor before n).filterMap Happening.triedOn? = [] := by
  cases n with
  | zero =>
    rw [askingFor]
    cases before.slot.client.isNone <;> rfl
  | succ n =>
    rw [askingFor]
    cases (before.slot.supply (n + 1)).2 with
    | ok client => cases before.settings.connection.reports <;> rfl
    | error failure => rfl

theorem countP_askingFor_of_error {n : Nat} {failure : Failure} (h : (before.slot.supply n).2 = .error failure) :
    (askingFor before n).countP Happening.isRecreation = 0 := by
  cases n with
  | zero =>
    rw [askingFor]
    cases before.slot.client.isNone <;> rfl
  | succ n =>
    rw [askingFor, h]
    rfl

/-- A client that replaces another one is reported once, if the connection reports at all. -/
theorem countP_askingFor_of_ok {n : Nat} {client : ClientId} (h : (before.slot.supply n).2 = .ok client) :
    (askingFor before n).countP Happening.isRecreation =
      if n ≠ 0 ∧ before.settings.connection.reports = true then 1 else 0 := by
  cases n with
  | zero =>
    rw [askingFor]
    cases before.slot.client.isNone <;> rfl
  | succ n =>
    rw [askingFor, h]
    cases before.settings.connection.reports with
    | true => simp [Happening.isRecreation]
    | false => rfl

/-- Each attempt asks the engine once. -/
theorem triedOn_attemptsWritten (clients : List ClientId) :
    (attemptsWritten before routing statement clients).filterMap Happening.triedOn? = clients := by
  induction clients using List.reverseRecOn with
  | nil => rfl
  | append_singleton clients client ih =>
    rw [attemptsWritten_concat, List.filterMap_append, List.filterMap_append, ih, triedOn_askingFor]
    rfl

/-- Each client but the first one replaces another one. -/
theorem countP_attemptsWritten (h : Supplied before clients) :
    (attemptsWritten before routing statement clients).countP Happening.isRecreation =
      if before.settings.connection.reports then clients.length - 1 else 0 := by
  induction clients using List.reverseRecOn with
  | nil => simp [attemptsWritten]
  | append_singleton clients client ih =>
    have hbefore : Supplied before clients := fun n c hn =>
      h n c ((List.getElem?_append_left (List.getElem?_eq_some_iff.1 hn).1).trans hn)
    have hlast := countP_askingFor_of_ok (h clients.length client List.getElem?_concat_length)
    have hattempt : [Happening.requested (attempt before routing statement client)].countP Happening.isRecreation = 0 :=
      rfl
    rw [attemptsWritten_concat, List.countP_append, List.countP_append, ih hbefore, hlast, hattempt,
      List.length_append, List.length_singleton]
    cases hreports : before.settings.connection.reports with
    | false => simp
    | true =>
      by_cases hfirst : clients.length = 0
      · simp [hfirst]
      · rw [if_pos rfl, if_pos ⟨hfirst, rfl⟩, if_pos rfl]
        omega

/-- If the factory fails, what it made last is still stored. -/
theorem Supplied.client_of_error (h : Supplied before clients) {failure : Failure}
    (hrefused : (before.slot.supply clients.length).2 = .error failure) :
    (before.slot.supply clients.length).1.client = clients.getLast? := by
  rcases List.eq_nil_or_concat clients with rfl | ⟨clients, client, rfl⟩
  · exact ClientSlot.client_acquire_of_error hrefused
  · rw [List.concat_eq_append] at h hrefused ⊢
    rw [List.length_append, List.length_singleton, ClientSlot.supply] at hrefused ⊢
    rw [ClientSlot.client_recreate_of_error hrefused, List.getLast?_concat,
      ClientSlot.client_supply_of_ok (h clients.length client List.getElem?_concat_length)]

end Written

namespace HasCome

variable {before : Relay} {routing : RoutingMode} {statement : Statement} {tries : List (ClientId × Failure)}
  {heard : List Heard} {written : List Happening} {slot : ClientSlot} {p : Progress Execution Outcome}

/-- **The attempts there are**: each one on the client that the factory gave for it, the last of which is stored; what
was written after them, if anything, has nothing to do with attempts and replacements. -/
theorem exists_attempts (h : HasCome before routing statement tries heard written slot p) :
    ∃ clients asking, Supplied before clients ∧ clients.length ≤ before.settings.connection.maxAttempts ∧
      written = attemptsWritten before routing statement clients ++ asking ∧
      asking.filterMap Happening.triedOn? = [] ∧ asking.countP Happening.isRecreation = 0 ∧
      slot.client = clients.getLast? := by
  cases h with
  | @refused tries _ failure htries hrefused hslot =>
    have hlength : (tries.map Prod.fst).length = tries.length := List.length_map _
    refine ⟨tries.map Prod.fst, askingFor before tries.length, htries.clients, ?_, rfl, triedOn_askingFor _,
      countP_askingFor_of_error hrefused, ?_⟩
    · rw [hlength]
      exact Nat.le_of_lt htries.few
    · rw [hslot, ← hlength]
      exact htries.clients.client_of_error (by rwa [hlength])
  | @executing tries _ client htries hclient hslot =>
    refine ⟨_, [], htries.supplied_concat hclient, ?_, (List.append_nil _).symm, rfl, rfl, ?_⟩
    · rw [List.length_append, List.length_map]
      exact htries.few
    · rw [hslot, List.getLast?_concat, ClientSlot.client_supply_of_ok hclient]
  | @delaying tries t _ htries hslot =>
    have hlast := htries.clients tries.length t.1 (by simp)
    refine ⟨_, [], htries.clients, ?_, (List.append_nil _).symm, rfl, rfl, ?_⟩
    · rw [List.length_map]
      exact Nat.le_of_lt htries.few
    · rw [hslot, List.map_append, List.map_singleton, List.getLast?_concat, ClientSlot.client_supply_of_ok hlast]
  | @answered tries _ client reply htries hclient hover hslot =>
    refine ⟨_, [], htries.supplied_concat hclient, ?_, (List.append_nil _).symm, rfl, rfl, ?_⟩
    · rw [List.length_append, List.length_map]
      exact htries.few
    · rw [hslot, List.getLast?_concat, ClientSlot.client_supply_of_ok hclient]

/-- A call is told something at most twice for each attempt: the engine's answer and the end of a pause. -/
theorem length_heard_lt (h : HasCome before routing statement tries heard written slot p) :
    heard.length < 2 * before.settings.connection.maxAttempts := by
  cases h with
  | refused htries | executing htries | answered htries =>
    have := htries.few
    simp only [List.length_append, List.length_singleton, length_triesHeard]
    omega
  | @delaying tries t _ htries hslot =>
    have hfew := htries.few
    rw [List.length_append, List.length_singleton] at hfew
    rw [List.length_append, length_triesHeard, List.length_singleton]
    omega

end HasCome

end Execution

/-! ## The run -/

namespace Exchange

/-- Along some moves, nobody but the call at this place changes what the connection stores. -/
def LeavesSlotAlong (x : Exchange) (i : Nat) (moves : List Move) : Prop :=
  ∀ before m y z, before ++ [m] <+: moves → x.run before = some y → y.apply m = some z → y.mover? m ≠ some i →
    z.relay.slot = y.relay.slot

/-- A move of the call at this place, the passing of time, or the beginning of a call that changes nothing of what the
connection stores. -/
inductive LeavesSlot (i : Nat) : Move → Prop
  | own (answers : Answers) : LeavesSlot i (.resume i answers)
  | elapse (span : Duration) : LeavesSlot i (.elapse span)
  | start (d : Demand) (hslot : ∀ r, (d.start r).1.slot = r.slot) : LeavesSlot i (.start d)

/-- Moves of these kinds are all right. -/
theorem leavesSlotAlong_of_moves {x : Exchange} {d : Demand} {later : List Move}
    (h : ∀ m ∈ later, LeavesSlot x.calls.length m) : x.LeavesSlotAlong x.calls.length (.start d :: later) := by
  intro before m y z hprefix hy hlast hmover
  cases before with
  | nil =>
    obtain ⟨rfl, -⟩ := List.cons_prefix_cons.1 hprefix
    cases Option.some.inj hy
    exact absurd rfl hmover
  | cons first rest =>
    obtain ⟨-, hrest⟩ := List.cons_prefix_cons.1 hprefix
    cases h m (hrest.subset (List.mem_append_right _ List.mem_cons_self)) with
    | own answers => exact absurd rfl hmover
    | elapse span =>
      cases Option.some.inj hlast
      rfl
    | start d hslot =>
      cases Option.some.inj hlast
      exact hslot y.relay

/-- A call that began with a statement has come so far, unless it was dropped. -/
def Executes (x : Exchange) (routing : RoutingMode) (statement : Statement) (moves : List Move) (y : Exchange) : Prop :=
  y.calls[x.calls.length]? = some .dropped ∨
    ∃ q p tries, y.calls[x.calls.length]? = some (.after (Call.lift .executing .records (q, p))) ∧
      q.now ≤ y.relay.now ∧
      Execution.HasCome x.relay routing statement tries (x.heardBy x.calls.length moves)
        (x.writtenBy x.calls.length moves) y.relay.slot p

theorem now_le_of_apply {x y : Exchange} {m : Move} (h : x.apply m = some y) : x.relay.now ≤ y.relay.now :=
  (since (run_snoc (show x.run [] = some x from rfl) h)).now

namespace Executes

variable {x y z : Exchange} {routing : RoutingMode} {statement : Statement} {moves : List Move} {m : Move}

/-- **The beginning.** -/
theorem begin (hm : 1 ≤ x.relay.settings.connection.maxAttempts)
    (h : x.apply (.start (.execute routing statement)) = some z) :
    x.Executes routing statement [.start (.execute routing statement)] z := by
  have hnothing : x.run [] = some x := rfl
  obtain ⟨written, hlog, hcome⟩ := @Execution.HasCome.start x.relay routing statement hm
  have hz := (Option.some.inj h).symm
  have hrelay : z.relay = (Execution.start x.relay routing statement).1 := congrArg Exchange.relay hz
  have hheard : x.heardBy x.calls.length [.start (.execute routing statement)] = [] :=
    heardBy_of_mover hnothing h rfl ((congrArg Exchange.heard hz).trans (List.append_nil _).symm)
  have hwritten : x.writtenBy x.calls.length [.start (.execute routing statement)] = written :=
    writtenBy_of_mover hnothing h rfl ((congrArg Relay.log hrelay).trans hlog)
  refine .inr ⟨_, (Execution.start x.relay routing statement).2, [], ?_,
    Nat.le_of_eq (congrArg Relay.now hrelay.symm), ?_⟩
  · rw [hz]
    exact List.getElem?_concat_length
  · rw [hheard, hwritten, hrelay]
    exact hcome

/-- **A move of the call itself**: it goes on, or is dropped. -/
theorem own (hrun : x.run moves = some y) (h : x.Executes routing statement moves y) (hlast : y.apply m = some z)
    (hmover : y.mover? m = some x.calls.length) : x.Executes routing statement (moves ++ [m]) z := by
  rcases h with hdropped | ⟨q, p, tries, hstands, hnow, hcome⟩
  · obtain ⟨_, _, hwaits, -⟩ := mover_cases hlast hmover hdropped
    exact absurd hwaits (by simp)
  · obtain ⟨call, since, hwaits, ⟨answers, rfl, hz⟩ | ⟨rfl, hz⟩⟩ := mover_cases hlast hmover hstands
    · cases p with
      | finished outcome => exact absurd hwaits (by simp [Call.lift, Standing.after, Progress.map])
      | waiting p =>
        cases hwaits
        obtain ⟨tries', more, hlog, hcome'⟩ := hcome.resume (settings_run hrun) (answers p.wait)
        have hrelay : z.relay = (p.resume (answers p.wait) y.relay).1 := congrArg Exchange.relay hz
        have hheard := heardBy_of_mover hrun hlast hmover (congrArg Exchange.heard hz)
        have hwritten := writtenBy_of_mover hrun hlast hmover ((congrArg Relay.log hrelay).trans hlog)
        refine .inr ⟨_, (p.resume (answers p.wait) y.relay).2, tries', ?_,
          Nat.le_of_eq (congrArg Relay.now hrelay.symm), ?_⟩
        · rw [hz]
          exact List.getElem?_set_self (List.getElem?_eq_some_iff.1 hstands).1
        · rw [hheard, hwritten, hrelay]
          exact hcome'
    · left
      rw [hz]
      exact List.getElem?_set_self (List.getElem?_eq_some_iff.1 hstands).1

/-- **A move of another call, or of time.** -/
theorem others (hrun : x.run moves = some y) (h : x.Executes routing statement moves y) (hlast : y.apply m = some z)
    (hmover : y.mover? m ≠ some x.calls.length) (hslot : z.relay.slot = y.relay.slot) :
    x.Executes routing statement (moves ++ [m]) z := by
  have hsame := calls_of_not_mover hlast hmover
  rcases h with hdropped | ⟨q, p, tries, hstands, hnow, hcome⟩
  · exact .inl (hsame.trans hdropped)
  · refine .inr ⟨q, p, tries, hsame.trans hstands, Nat.le_trans hnow (now_le_of_apply hlast), ?_⟩
    rw [heardBy_of_not_mover hrun hlast hmover, writtenBy_of_not_mover hrun hlast hmover, hslot]
    exact hcome

/-- **The induction over runs.** -/
theorem of_run {later : List Move} (hm : 1 ≤ x.relay.settings.connection.maxAttempts)
    (hy : x.run (.start (.execute routing statement) :: later) = some y)
    (hleaves : x.LeavesSlotAlong x.calls.length (.start (.execute routing statement) :: later)) :
    x.Executes routing statement (.start (.execute routing statement) :: later) y := by
  induction hy using run_cons_induct with
  | head hbegin => exact begin hm hbegin
  | @snoc later m y z hrun hlast ih =>
    have hmore : .start (.execute routing statement) :: later <+:
        .start (.execute routing statement) :: (later ++ [m]) :=
      List.prefix_append (.start (.execute routing statement) :: later) [m]
    have hbefore := ih fun before n v w hpre => hleaves before n v w (hpre.trans hmore)
    by_cases hmover : y.mover? m = some x.calls.length
    · exact hbefore.own hrun hlast hmover
    · exact hbefore.others hrun hlast hmover (hleaves _ m y z (List.prefix_refl _) hrun hlast hmover)

end Executes

end Exchange

/-! ## What a call amounts to -/

/-- What a call has done with a statement that it was given at `x`, by what it has heard and written until `y`. -/
structure RetriesAsDocumented (x : Exchange) (routing : RoutingMode) (statement : Statement) (heard : List Heard)
    (written : List Happening) (y : Exchange) : Prop where
  /-- It tries, pauses once after each attempt but the last, asks the factory once before the next, and ends in one of
  the documented ways. -/
  course : ∃ q p tries, y.calls[x.calls.length]? = some (.after (Call.lift .executing .records (q, p))) ∧
    Execution.HasCome x.relay routing statement tries heard written y.relay.slot p
  /-- There are no more attempts than are allowed. -/
  atMost : (written.filterMap Happening.triedOn?).length ≤ x.relay.settings.connection.maxAttempts
  /-- Each attempt runs on precisely the client that was made for it. -/
  clients : Execution.Supplied x.relay (written.filterMap Happening.triedOn?)
  /-- What is stored is the client that was made last, on which the last attempt ran. -/
  stored : y.relay.slot.client = (written.filterMap Happening.triedOn?).getLast?
  /-- Each replacement that succeeds, which is there for every attempt but the first, is reported once. -/
  recreations : written.countP Happening.isRecreation =
    if x.relay.settings.connection.reports then (written.filterMap Happening.triedOn?).length - 1 else 0
  /-- The call goes on a bounded number of times. -/
  bounded : heard.length < 2 * x.relay.settings.connection.maxAttempts
  /-- It has its result, or goes on, at the latest when it has paused, whatever it is told. -/
  goesOn : (∃ outcome, y.calls[x.calls.length]? = some (.finished (.records outcome))) ∨
    ∀ answers, ((y.apply (.elapse x.relay.settings.connection.reconnectDelay)).bind fun z =>
      z.apply (.resume x.calls.length answers)).isSome

/-- **A statement outside a session is retried as documented.**  Let the connection allow one attempt at least, and let
nobody else change its client while a call goes on that is not dropped.  Whatever is stored at first, whatever the
factory gives and whatever the engine answers, the attempts, the pauses and the replacements are those that
`Execution.HasCome` lists. -/
theorem execute_retries_as_documented {x y : Exchange} {later : List Move} {routing : RoutingMode}
    {statement : Statement} (hm : 1 ≤ x.relay.settings.connection.maxAttempts)
    (hy : x.run (.start (.execute routing statement) :: later) = some y)
    (hleaves : x.LeavesSlotAlong x.calls.length (.start (.execute routing statement) :: later))
    (hkept : y.calls[x.calls.length]? ≠ some .dropped) :
    RetriesAsDocumented x routing statement
      (x.heardBy x.calls.length (.start (.execute routing statement) :: later))
      (x.writtenBy x.calls.length (.start (.execute routing statement) :: later)) y := by
  obtain ⟨q, p, tries, hstands, hnow, hcome⟩ := (Exchange.Executes.of_run hm hy hleaves).resolve_left hkept
  generalize x.heardBy x.calls.length (.start (.execute routing statement) :: later) = heard at hcome
  generalize x.writtenBy x.calls.length (.start (.execute routing statement) :: later) = written at hcome
  obtain ⟨clients, asking, hsupplied, hfew, hwritten, hnoTry, hnoRecreation, hstored⟩ := hcome.exists_attempts
  have htried : written.filterMap Happening.triedOn? = clients := by
    rw [hwritten, List.filterMap_append, hnoTry, List.append_nil, Execution.triedOn_attemptsWritten]
  refine ⟨⟨q, p, tries, hstands, hcome⟩, by rwa [htried], by rwa [htried], by rwa [htried], ?_,
    hcome.length_heard_lt, ?_⟩
  · rw [htried, hwritten, List.countP_append, hnoRecreation, Nat.add_zero, Execution.countP_attemptsWritten hsupplied]
  · cases p with
    | finished outcome => exact .inl ⟨outcome, hstands⟩
    | waiting p =>
      right
      intro answers
      obtain ⟨z, hz, hrelay, hcalls⟩ : ∃ z, y.apply (.elapse x.relay.settings.connection.reconnectDelay) = some z ∧
          z.relay = { y.relay with now := y.relay.now + x.relay.settings.connection.reconnectDelay.nanos } ∧
          z.calls = y.calls := ⟨_, rfl, rfl, rfl⟩
      have hwaits : z.calls[x.calls.length]? = some (.waiting (.executing p) q.now) := hcalls ▸ hstands
      have hover : (Call.executing p).wait.isOver q.now z.relay = true := by
        rw [hrelay]
        cases hcome with
        | executing => rfl
        | delaying => exact decide_eq_true (Nat.add_le_add_right hnow _)
      rw [hz, Option.bind_some, Exchange.apply_resume_of_waiting hwaits hover answers]
      rfl

/-- An exchange on which one attempt fails and the next one goes well; somebody else is at work in between. -/
def failsThenRuns : List Move :=
  [.start (.recordSuccess "engine"), .resume 0 (.refusing (.connectionFailure "gone")), .elapse (.ofMillis 100),
    .resume 0 (.granting 0), .resume 0 (.granting 0)]

/-- Of two attempts that are allowed both are made, and the second client is stored. -/
theorem execute_retries_as_documented_of_two :
    ∃ y, (Exchange.new {} {}).run (.start (.execute .read (.plain "RETURN 1" [])) :: failsThenRuns) = some y ∧
      (Exchange.new {} {}).LeavesSlotAlong 0 (.start (.execute .read (.plain "RETURN 1" [])) :: failsThenRuns) ∧
      RetriesAsDocumented (Exchange.new {} {}) .read (.plain "RETURN 1" [])
        ((Exchange.new {} {}).heardBy 0 (.start (.execute .read (.plain "RETURN 1" [])) :: failsThenRuns))
        ((Exchange.new {} {}).writtenBy 0 (.start (.execute .read (.plain "RETURN 1" [])) :: failsThenRuns)) y ∧
      y.calls[0]? = some (.finished (.records (.ok []))) ∧ y.relay.slot.client = some ⟨2⟩ := by
  have hrun : ((Exchange.new {} {}).run (.start (.execute .read (.plain "RETURN 1" [])) :: failsThenRuns)).map
      (fun y => (y.calls[0]?, y.relay.slot.client)) = some (some (.finished (.records (.ok []))), some ⟨2⟩) := rfl
  obtain ⟨y, hy, hparts⟩ := Option.map_eq_some_iff.1 hrun
  obtain ⟨hresult, hclient⟩ := Prod.mk.inj hparts
  have hleaves : (Exchange.new {} {}).LeavesSlotAlong 0
      (.start (.execute .read (.plain "RETURN 1" [])) :: failsThenRuns) := by
    refine Exchange.leavesSlotAlong_of_moves (x := .new {} {}) ?_
    simp only [failsThenRuns, List.forall_mem_cons, List.not_mem_nil, false_imp_iff, implies_true, and_true]
    exact ⟨.start _ fun r => rfl, .own _, .elapse _, .own _, .own _⟩
  have hkept : y.calls[(Exchange.new {} {}).calls.length]? ≠ some .dropped := fun hdropped =>
    absurd (hresult.symm.trans hdropped) (by simp)
  exact ⟨y, hy, hleaves, execute_retries_as_documented (by decide) hy hleaves hkept, hresult, hclient⟩

end QueryRelay
