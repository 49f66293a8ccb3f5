import Mathlib.Algebra.GroupWithZero.Nat
import Mathlib.Data.List.DropRight
import QueryRelay.Proofs.Connection.Dealing
import QueryRelay.Proofs.Exchange.Invariant

/-!
# The client slot is a register

Whatever calls are begun, answered, dropped and waited for, the slot for the client behaves as a register that the
factory writes and whoever closes the client empties.

* `lastMade?` — the client that was made last since the slot was emptied.
* `ClientSide.Sound` — clients are numbered in the order in which they are made, so that a client that was closed is
  never made again; `ClientSide.Sound.after` is the step.
* `ClientHistory` — how a relay came about, with all dealings on the way; `IsRegister` is the law of the register, and
  `ClientHistory.isRegister` the induction over dealings.
* `Exchange.Deals` — the dealings of a run, move by move.
* `client_slot_is_register` — **every run has dealings, and with respect to them the slot is a register**.
-/

namespace QueryRelay

/-! ## The client that was made last -/

/-- The client that was made last since the slot was emptied, if there is one. -/
def lastMade? (dealings : List Dealing) : Option ClientId :=
  ((dealings.rtakeWhile fun d => d.act ≠ .close).filterMap Dealing.made?).getLast?

theorem lastMade?_concat_of_close {dealings : List Dealing} {d : Dealing} (h : d.act = .close) :
    lastMade? (dealings ++ [d]) = none := by
  rw [lastMade?, List.rtakeWhile_concat_neg _ _ _ (by simpa using h)]
  rfl

theorem lastMade?_concat {dealings : List Dealing} {d : Dealing} (h : d.act ≠ .close) :
    lastMade? (dealings ++ [d]) = d.made?.or (lastMade? dealings) := by
  rw [lastMade?, List.rtakeWhile_concat_pos _ _ _ (by simpa using h), List.filterMap_append, List.getLast?_append]
  cases hmade : d.made? <;> simp [lastMade?, hmade]

/-! ## Clients are made in order -/

/-- The factory gives a client that it has not given before, or it fails. -/
theorem ClientFactory.make_cases (f : ClientFactory) :
    (f.make.2 = .ok ⟨f.made + 1⟩ ∧ f.make.1.made = f.made + 1) ∨
      ∃ failure, f.make.2 = .error failure ∧ f.make.1.made = f.made := by
  unfold make
  split
  · exact .inr ⟨_, rfl, rfl⟩
  · exact .inl ⟨rfl, rfl⟩

/-- What is known of the clients that are stored or were closed. -/
structure ClientSide.Sound (s : ClientSide) : Prop where
  /-- They were made before. -/
  stored_le : ∀ client, s.slot.client = some client → client.number ≤ s.slot.factory.made
  closed_le : ∀ client ∈ s.closed, client.number ≤ s.slot.factory.made
  /-- The client that is stored was not closed. -/
  apart : ∀ client, s.slot.client = some client → client ∉ s.closed
  /-- No client was closed twice. -/
  nodup : s.closed.Nodup

/-- Where there is no client and none was closed, there is nothing to know. -/
theorem ClientSide.Sound.of_empty {s : ClientSide} (hclient : s.slot.client = none) (hclosed : s.closed = []) :
    s.Sound := by
  obtain ⟨⟨factory, client⟩, asked, closed⟩ := s
  cases hclient
  cases hclosed
  exact ⟨fun _ => nofun, fun _ => nofun, fun _ => nofun, List.nodup_nil⟩

/-- **A dealing preserves what is known of clients.** -/
theorem ClientSide.Sound.after {d : Dealing} (h : d.before.clientSide.Sound) : d.after.clientSide.Sound := by
  cases d.course with
  | finds client _ _ hside _ => rwa [hside]
  | makes client _ _ hmake hside _ =>
    -- The number of the new client is above all numbers before it, and so it was not closed.
    obtain ⟨hok, hmade⟩ | ⟨failure, herror, -⟩ := d.before.slot.factory.make_cases
    · cases hok.symm.trans hmake
      have hclosed : ∀ c ∈ d.before.clientSide.closed, c.number < d.before.slot.factory.made + 1 :=
        fun c hc => Nat.lt_succ_of_le (h.closed_le c hc)
      rw [hside]
      refine ⟨fun c hc => ?_, fun c hc => hmade ▸ (hclosed c hc).le, fun c hc hmem => ?_, h.nodup⟩
      · cases hc
        exact hmade.ge
      · cases hc
        exact (hclosed _ hmem).ne rfl
    · exact absurd (herror.symm.trans hmake) (by simp)
  | fails failure _ _ hmake hside _ =>
    obtain ⟨hok, -⟩ | ⟨_, -, hmade⟩ := d.before.slot.factory.make_cases
    · exact absurd (hok.symm.trans hmake) (by simp)
    · rw [hside]
      exact ⟨fun c hc => (h.stored_le c hc).trans hmade.ge, fun c hc => (h.closed_le c hc).trans hmade.ge, h.apart,
        h.nodup⟩
  | empties _ hside _ =>
    rw [hside]
    refine ⟨fun c hc => absurd hc (by simp), fun c hc => ?_, fun c hc => absurd hc (by simp), ?_⟩
    · rcases List.mem_append.1 hc with hc | hc
      · exact h.closed_le c hc
      · exact h.stored_le c (Option.mem_toList.1 hc)
    · -- Only what was stored is closed now, which is why it was not closed before.
      refine h.nodup.append (Option.toList_nodup _) fun c hclosed hc => ?_
      exact h.apart c (Option.mem_toList.1 hc) hclosed

/-! ## The law of the register -/

namespace Dealing

variable {d : Dealing}

/-- The slot after a dealing, by what was made. -/
theorem client_after (hact : d.act ≠ .close) : d.after.slot.client = d.made?.or d.before.slot.client := by
  cases d.course with
  | finds client _ hclient hside _ =>
    have hslot : d.after.slot = d.before.slot := congrArg ClientSide.slot hside
    simp [made?, given?, clientsAsked, hside, hslot]
  | makes client _ _ hmake hside _ =>
    have hslot : d.after.slot = ⟨d.before.slot.factory.make.1, some client⟩ := congrArg ClientSide.slot hside
    simp [made?, given?, clientsAsked, hside, hslot, hmake, Except.toOption]
  | fails failure _ _ hmake hside _ =>
    have hslot : d.after.slot = { d.before.slot with factory := d.before.slot.factory.make.1 } :=
      congrArg ClientSide.slot hside
    simp [made?, given?, clientsAsked, hside, hslot, hmake, Except.toOption]
  | empties hclose _ _ => exact absurd hclose hact

theorem client_after_of_close (hact : d.act = .close) : d.after.slot.client = none := by
  cases d.course with
  | empties _ hside _ => exact congrArg (fun s => s.slot.client) hside
  | finds _ hacquire _ _ _ => exact absurd (hact.symm.trans hacquire) (by simp)
  | makes _ hnot _ _ _ _ | fails _ hnot _ _ _ _ => exact absurd hact hnot

/-- Who acquires the client has one made if and only if there is none, and then once. -/
theorem clientsAsked_of_acquire (hact : d.act = .acquire) :
    d.clientsAsked = if d.before.slot.client = none then 1 else 0 := by
  cases d.course with
  | finds client _ hclient hside _ => simp [clientsAsked, hside, hclient]
  | makes _ _ hneeded _ hside _ | fails _ _ hneeded _ hside _ => simp [clientsAsked, hside, hneeded hact]
  | empties hclose _ _ => exact absurd (hact.symm.trans hclose) (by simp)

theorem asked_after : clientsAskedFor d.after.log = clientsAskedFor d.before.log + d.clientsAsked := by
  have hgrows : d.before.clientSide.asked ≤ d.after.clientSide.asked := by
    cases d.course with
    | finds _ _ _ hside _ => rw [hside]
    | makes _ _ _ _ hside _ | fails _ _ _ _ hside _ =>
      rw [hside]
      exact Nat.le_succ _
    | empties _ hside _ => rw [hside]
  exact (Nat.add_sub_cancel' hgrows).symm

/-- A factory that fails leaves what is stored. -/
theorem client_after_of_failure {failure : Failure} (h : d.given? = some (.error failure)) :
    d.after.slot.client = d.before.slot.client := by
  cases d.course with
  | finds _ _ _ hside _ | fails _ _ _ _ hside _ => exact congrArg (fun s => s.slot.client) hside
  | makes client _ _ hmake hside _ => exact absurd h (by simp [given?, clientsAsked, hside, hmake])
  | empties _ hside _ => exact absurd h (by simp [given?, clientsAsked, hside])

/-- What is handed out is stored, and nothing is closed. -/
theorem stored_of_outcome {client : ClientId} (h : d.outcome? = some (.ok client)) :
    d.after.slot.client = some client ∧ closedClients d.after.log = closedClients d.before.log := by
  cases d.course with
  | finds c _ hclient hside houtcome =>
    cases houtcome.symm.trans h
    exact ⟨(congrArg (fun s => s.slot.client) hside).trans hclient, congrArg ClientSide.closed hside⟩
  | makes c _ _ _ hside houtcome =>
    cases houtcome.symm.trans h
    exact ⟨congrArg (fun s => s.slot.client) hside, congrArg ClientSide.closed hside⟩
  | fails _ _ _ _ _ houtcome | empties _ _ houtcome => exact absurd (houtcome.symm.trans h) (by simp)

/-- What holds of a dealing with respect to those before it. -/
structure IsLawful (earlier : List Dealing) (d : Dealing) : Prop where
  /-- It finds the client that was made last since the slot was emptied. -/
  reads : d.before.slot.client = lastMade? earlier
  /-- Who acquires the client has one made if and only if there is none, and then once. -/
  asks : d.act = .acquire → d.clientsAsked = if d.before.slot.client = none then 1 else 0
  /-- A factory that fails leaves what is stored. -/
  fails : ∀ failure, d.given? = some (.error failure) → d.after.slot.client = d.before.slot.client
  /-- A client that is handed out is the one that is stored then, and the engine was never asked to close it. -/
  handsOut : ∀ client, d.outcome? = some (.ok client) →
    d.after.slot.client = some client ∧ .requested (.closeClient client) ∉ d.before.log

theorem isLawful {earlier : List Dealing} (hsound : d.before.clientSide.Sound)
    (hreads : d.before.slot.client = lastMade? earlier) : d.IsLawful earlier where
  reads := hreads
  asks := clientsAsked_of_acquire
  fails _ := client_after_of_failure
  handsOut client houtcome := by
    obtain ⟨hstored, hclosed⟩ := stored_of_outcome houtcome
    have hapart : client ∉ closedClients d.after.log := hsound.after.apart client hstored
    exact ⟨hstored, fun hmem => hapart (hclosed ▸ mem_closedClients.2 hmem)⟩

end Dealing

/-- With respect to these dealings, the slot of a relay is a register. -/
structure IsRegister (dealings : List Dealing) (r : Relay) : Prop where
  /-- It holds the client that was made last since it was emptied. -/
  holds : r.slot.client = lastMade? dealings
  lawful : ∀ earlier d later, dealings = earlier ++ d :: later → d.IsLawful earlier
  /-- Nobody else asks the factory. -/
  asked : clientsAskedFor r.log = (dealings.map Dealing.clientsAsked).sum
  /-- The engine is asked to close a client at most once. -/
  closedOnce : (closedClients r.log).Nodup

namespace IsRegister

variable {dealings : List Dealing} {r r' : Relay} {d : Dealing}

/-- A register is a matter of the client side. -/
theorem congr (h : IsRegister dealings r) (hside : r'.clientSide = r.clientSide) : IsRegister dealings r' where
  holds := (congrArg (fun s => s.slot.client) hside).trans h.holds
  lawful := h.lawful
  asked := (congrArg ClientSide.asked hside).trans h.asked
  closedOnce := (congrArg (fun s => s.closed.Nodup) hside).mpr h.closedOnce

/-- **One more dealing.** -/
theorem concat (h : IsRegister dealings d.before) (hsound : d.before.clientSide.Sound) :
    IsRegister (dealings ++ [d]) d.after where
  holds := by
    by_cases hact : d.act = .close
    · rw [Dealing.client_after_of_close hact, lastMade?_concat_of_close hact]
    · rw [Dealing.client_after hact, lastMade?_concat hact, h.holds]
  lawful earlier e later heq := by
    -- The dealing in question is the new one, or one of those before it.
    obtain rfl | ⟨middle, last, rfl⟩ := List.eq_nil_or_concat' later
    · obtain ⟨rfl, hlast⟩ := List.append_inj' heq rfl
      cases hlast
      exact Dealing.isLawful hsound h.holds
    · rw [← List.cons_append, ← List.append_assoc] at heq
      exact h.lawful earlier e middle (List.append_inj' heq rfl).1
  asked := by rw [Dealing.asked_after, h.asked, List.map_append, List.sum_append, List.map_singleton, List.sum_singleton]
  closedOnce := hsound.after.nodup

end IsRegister

/-! ## Histories -/

/-- How one relay came from another, with the dealings on the way. -/
inductive ClientHistory (r₀ : Relay) : List Dealing → Relay → Prop
  | start : ClientHistory r₀ [] r₀
  | step {dealings : List Dealing} {r r' : Relay} {dealing : Option Dealing} :
    ClientHistory r₀ dealings r → ClientStep r dealing r' → ClientHistory r₀ (dealings ++ dealing.toList) r'

namespace ClientHistory

variable {r₀ r r' : Relay} {dealings more : List Dealing}

theorem trans (h : ClientHistory r₀ dealings r) (hmore : ClientHistory r more r') :
    ClientHistory r₀ (dealings ++ more) r' := by
  induction hmore with
  | start => rwa [List.append_nil]
  | step _ hstep ih =>
    rw [← List.append_assoc]
    exact ih.step hstep

/-- **The induction over dealings.**  Where there was no client at the beginning and nothing had been seen, the slot is a
register; what is known of clients carries the induction. -/
theorem isRegister_and_sound (h : ClientHistory r₀ dealings r) (hslot : r₀.slot.client = none) (hlog : r₀.log = []) :
    IsRegister dealings r ∧ r.clientSide.Sound := by
  induction h with
  | start =>
    have hasked : clientsAskedFor r₀.log = 0 := by rw [hlog]; rfl
    have hclosed : closedClients r₀.log = [] := by rw [hlog]; rfl
    exact ⟨⟨hslot, fun earlier d later heq => absurd heq (by simp), hasked, hclosed ▸ List.nodup_nil⟩,
      .of_empty hslot hclosed⟩
  | @step dealings r r' dealing _ hstep ih =>
    obtain ⟨hregister, hsound⟩ := ih
    cases dealing with
    | none =>
      have hsame : r'.clientSide = r.clientSide := hstep.dealtWith
      rw [Option.toList_none, List.append_nil]
      exact ⟨hregister.congr hsame, hsame ▸ hsound⟩
    | some d =>
      obtain ⟨hbefore, hafter⟩ := hstep.dealtWith
      have hfound : d.before.clientSide.Sound := hbefore ▸ hsound
      exact ⟨((hregister.congr hbefore).concat hfound).congr hafter, hafter ▸ hfound.after⟩

end ClientHistory

/-- Everything that can happen to a relay continues its history. -/
theorem clientHistory_invariant (r₀ : Relay) : Invariant fun r _ _ => ∃ dealings, ClientHistory r₀ dealings r where
  perform d _ _ _ := fun ⟨_, h⟩ => ⟨_, h.step (.done d _)⟩
  resume answers e _ _ _ := fun ⟨_, h⟩ => ⟨_, h.step (.ended e answers _)⟩
  drop e _ _ _ := fun ⟨_, h⟩ => ⟨_, h.step (.dropped e _)⟩
  elapse span _ _ _ := fun ⟨_, h⟩ => ⟨_, h.step (.elapsed span _)⟩

namespace Exchange

/-- The dealings of a run, move by move. -/
inductive Deals (x : Exchange) : List Move → List Dealing → Exchange → Prop
  | nil : Deals x [] [] x
  | snoc {moves : List Move} {m : Move} {dealings more : List Dealing} {y z : Exchange} :
    Deals x moves dealings y → y.apply m = some z → ClientHistory y.relay more z.relay →
      Deals x (moves ++ [m]) (dealings ++ more) z

variable {x y : Exchange} {moves : List Move} {dealings : List Dealing}

theorem exists_deals (h : x.run moves = some y) : ∃ dealings, x.Deals moves dealings y := by
  induction h using run_induct with
  | nil => exact ⟨[], .nil⟩
  | @snoc moves m y z _ hlast ih =>
    obtain ⟨dealings, hdeals⟩ := ih
    obtain ⟨more, hmore⟩ : z.Satisfies fun r _ _ => ∃ more, ClientHistory y.relay more r :=
      (clientHistory_invariant y.relay).apply hlast ⟨[], .start⟩
    exact ⟨dealings ++ more, hdeals.snoc hlast hmore⟩

theorem Deals.history (h : x.Deals moves dealings y) : ClientHistory x.relay dealings y.relay := by
  induction h with
  | nil => exact .start
  | snoc _ _ hmore ih => exact ih.trans hmore

end Exchange

/-- **The client slot is a register.**  Begin with an empty slot and any factory, and let statements, openings of
sessions, recreations and closings come in any order and wait for each other in any way, whatever the factory gives and
the engine answers.  Then the slot holds the client that was made last since it was emptied; who acquires the client
has one made only where there is none; failures of the factory leave what is stored; no client is closed twice; and none
is handed out after it was closed. -/
theorem client_slot_is_register {settings : Settings} {factory : ClientFactory} {moves : List Move} {x : Exchange}
    (h : (Exchange.new settings factory).run moves = some x) :
    (∃ dealings, (Exchange.new settings factory).Deals moves dealings x) ∧
      ∀ dealings, (Exchange.new settings factory).Deals moves dealings x → IsRegister dealings x.relay :=
  ⟨Exchange.exists_deals h, fun _ hdeals => (hdeals.history.isRegister_and_sound rfl rfl).1⟩

/-- A factory that makes two clients and then fails once. -/
def failsThird : ClientFactory := ⟨[none, none, some (.connectionFailure "refused")], 0⟩

/-- A statement fails on the first client and is run on the second, which is closed, and closed again.  Then the factory
fails, and the client that it makes after that gives way to another when the engine cannot be reached for a session. -/
def closedAndReplaced : List Move :=
  [.start (.execute .read (.plain "RETURN 1" [])), .resume 0 (.refusing (.connectionFailure "gone")),
    .elapse (.ofMillis 100), .resume 0 (.granting 0), .resume 0 (.granting 0), .start .closeClient, .start .closeClient,
    .start .acquireClient, .start (.openSession none none), .resume 4 (.refusing (.connectionFailure "gone"))]

/-- Of the four clients that were made in five attempts, the fourth is stored and the second was closed, once. -/
theorem client_slot_is_register_of_four :
    ∃ x, (Exchange.new {} failsThird).run closedAndReplaced = some x ∧
      ((∃ dealings, (Exchange.new {} failsThird).Deals closedAndReplaced dealings x) ∧
        ∀ dealings, (Exchange.new {} failsThird).Deals closedAndReplaced dealings x → IsRegister dealings x.relay) ∧
      x.relay.slot.client = some ⟨4⟩ ∧ closedClients x.relay.log = [⟨2⟩] ∧ clientsAskedFor x.relay.log = 5 := by
  have hrun : ((Exchange.new {} failsThird).run closedAndReplaced).map
      (fun x => (x.relay.slot.client, closedClients x.relay.log, clientsAskedFor x.relay.log)) =
      some (some ⟨4⟩, [⟨2⟩], 5) := rfl
  obtain ⟨x, hx, hparts⟩ := Option.map_eq_some_iff.1 hrun
  obtain ⟨hclient, hrest⟩ := Prod.mk.inj hparts
  obtain ⟨hclosed, hasked⟩ := Prod.mk.inj hrest
  exact ⟨x, hx, client_slot_is_register hx, hclient, hclosed, hasked⟩

end QueryRelay
