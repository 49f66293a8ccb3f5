import QueryRelay.Proofs.Exchange.Passage

/-!
# Closing sessions in turn

Sweeps, and whoever closes all sessions, take a list of tracked sessions and close them one after the other.  This
module follows such a list: the sessions that were closed are gone, in order, the next one is being closed, and the
remaining ones are as they were, as long as nobody else has to do with sessions.

* `Closable` — sessions that are tracked and that nobody closes.
* `ClosedInTurn`, `ClosesNext` — some of them are closed, and nothing else has happened to the registry; the next one is
  being closed as well.
* `ClosedInTurn.start`, `ClosesNext.resume` — **the two steps**, whatever the engine answers.
* `closingsHeard` — what is heard in the course of that.
-/

namespace QueryRelay

/-! ## Tables without some keys -/

namespace Table

variable {κ α : Type} [DecidableEq κ]

omit [DecidableEq κ] in
theorem eq_of_entries {t u : Table κ α} (h : t.entries = u.entries) : t = u := by
  obtain ⟨entries, distinct⟩ := t
  cases h
  rfl

/-- A table without some of its keys. -/
def without (t : Table κ α) (keys : List κ) : Table κ α where
  entries := t.entries.filter fun e => e.1 ∉ keys
  distinct := t.distinct.sublist (List.filter_sublist.map Prod.fst)

theorem without_nil (t : Table κ α) : t.without [] = t :=
  eq_of_entries (List.filter_eq_self.2 fun _ _ => decide_eq_true List.not_mem_nil)

theorem get?_without (t : Table κ α) (keys : List κ) (key : κ) :
    (t.without keys).get? key = if key ∈ keys then none else t.get? key := by
  refine Option.ext fun value => ?_
  rw [← mem_entries_iff, without, List.mem_filter, mem_entries_iff]
  by_cases h : key ∈ keys <;> simp [h]

/-- Without one key more, whatever became of its value meanwhile. -/
theorem erase_modify_without (t : Table κ α) (keys : List κ) (key : κ) (change : α → α) :
    ((t.without keys).modify key change).erase key = t.without (keys ++ [key]) := by
  refine eq_of_entries ((erase_modify _ key change).trans ?_)
  simp only [erase, without, List.filter_filter, List.mem_append, List.mem_singleton, not_or, Bool.decide_and]
  exact List.filter_congr fun _ _ => Bool.and_comm ..

end Table

namespace Registry

/-- A registry without some of its sessions. -/
def without (g : Registry) (ids : List SessionId) : Registry := { g with sessions := g.sessions.without ids }

theorem without_nil (g : Registry) : g.without [] = g := by rw [without, Table.without_nil]

theorem remove_update_without (g : Registry) (ids : List SessionId) (id : SessionId)
    (change : SessionState → SessionState) :
    ((g.without ids).update id change).remove id = g.without (ids ++ [id]) :=
  congrArg (fun sessions => { g with sessions := sessions }) (Table.erase_modify_without ..)

end Registry

/-! ## The sessions of a list -/

/-- The closing of a tracked session. -/
def Closing.ofEntry (e : SessionId × TrackedSession) : Closing := ⟨e.1, e.2.remote, e.2.state.database⟩

/-- The request to close a tracked session. -/
def closeRequest (e : SessionId × TrackedSession) : Request := .closeSession e.2.remote

/-- What is heard when the engine answers that request. -/
def closeHeard (e : SessionId × TrackedSession) (reply : Except Failure Unit) : Heard :=
  ⟨.reply (.closeSession e.2.remote), reply⟩

/-- Sessions that can be closed in turn: they are tracked, and nobody closes them. -/
structure Closable (before : Relay) (line : List (SessionId × TrackedSession)) : Prop where
  tracked : ∀ e ∈ line, before.registry.sessions.get? e.1 = some e.2
  notClosing : ∀ e ∈ line, e.2.state.status ≠ .closing
  distinct : (line.map Prod.fst).Nodup

theorem Closable.of_sublist {before : Relay} {line : List (SessionId × TrackedSession)}
    (h : line.Sublist before.registry.sessions.entries) (hnot : ∀ e ∈ line, e.2.state.status ≠ .closing) :
    Closable before line where
  tracked := fun _ he => Table.mem_entries_iff.1 (h.subset he)
  notClosing := hnot
  distinct := before.registry.sessions.distinct.sublist (h.map Prod.fst)

/-- Some sessions are closed, one after the other, and nothing else has happened to the registry and to the client. -/
structure ClosedInTurn (before : Relay) (done : List (SessionId × TrackedSession)) (r : Relay) : Prop where
  registry : r.registry = before.registry.without (done.map Prod.fst)
  requests : r.requests = before.requests ++ done.map closeRequest
  slot : r.slot = before.slot

/-- Some sessions are closed, one after the other, and the next one is being closed. -/
structure ClosesNext (before : Relay) (done : List (SessionId × TrackedSession)) (e : SessionId × TrackedSession)
    (r : Relay) : Prop where
  registry : r.registry = (before.registry.without (done.map Prod.fst)).update e.1 fun s => s.transition .closing
  requests : r.requests = before.requests ++ (done ++ [e]).map closeRequest
  slot : r.slot = before.slot

/-- What is heard when sessions are closed in turn and the engine gives these answers. -/
def closingsHeard (line : List (SessionId × TrackedSession)) (replies : List (Except Failure Unit)) : List Heard :=
  List.zipWith closeHeard line replies

section Turns

variable {before r r' : Relay} {done rest : List (SessionId × TrackedSession)} {e : SessionId × TrackedSession}

theorem closingsHeard_append {replies more : List (Except Failure Unit)} (h : replies.length = done.length) :
    closingsHeard (done ++ rest) (replies ++ more) = closingsHeard done replies ++ closingsHeard rest more :=
  List.zipWith_append h.symm

/-- The next answer. -/
theorem closingsHeard_concat {replies : List (Except Failure Unit)} (h : replies.length = done.length)
    (reply : Except Failure Unit) :
    closingsHeard (done ++ e :: rest) (replies ++ [reply]) =
      closingsHeard (done ++ e :: rest) replies ++ [closeHeard e reply] := by
  have hnow : closingsHeard (done ++ e :: rest) (replies ++ []) =
      closingsHeard done replies ++ closingsHeard (e :: rest) [] := closingsHeard_append h
  rw [List.append_nil] at hnow
  rw [closingsHeard_append h, hnow]
  simp [closingsHeard]

theorem ClosedInTurn.nil (before : Relay) : ClosedInTurn before [] before :=
  ⟨before.registry.without_nil.symm, (List.append_nil _).symm, rfl⟩

/-- It does not matter what else changes. -/
theorem ClosedInTurn.congr (h : ClosedInTurn before done r) (hregistry : r'.registry = r.registry)
    (hrequests : r'.requests = r.requests) (hslot : r'.slot = r.slot) : ClosedInTurn before done r' :=
  ⟨hregistry.trans h.registry, hrequests.trans h.requests, hslot.trans h.slot⟩

theorem ClosesNext.congr (h : ClosesNext before done e r) (hregistry : r'.registry = r.registry)
    (hrequests : r'.requests = r.requests) (hslot : r'.slot = r.slot) : ClosesNext before done e r' :=
  ⟨hregistry.trans h.registry, hrequests.trans h.requests, hslot.trans h.slot⟩

/-- A session that is not on the list is as it was. -/
theorem ClosedInTurn.get?_of_not_mem (h : ClosedInTurn before done r) {id : SessionId} (hid : id ∉ done.map Prod.fst) :
    r.registry.sessions.get? id = before.registry.sessions.get? id := by
  rw [h.registry, Registry.without, Table.get?_without, if_neg hid]

theorem ClosesNext.get?_of_not_mem (h : ClosesNext before done e r) {id : SessionId}
    (hid : id ∉ (done ++ e :: rest).map Prod.fst) :
    r.registry.sessions.get? id = before.registry.sessions.get? id := by
  rw [List.map_append, List.map_cons, List.mem_append, List.mem_cons, not_or, not_or] at hid
  rw [h.registry, Registry.update, Table.get?_modify, if_neg hid.2.1, Registry.without, Table.get?_without,
    if_neg hid.1]

/-- **A closing begins for the next one.** -/
theorem ClosedInTurn.start (h : ClosedInTurn before done r) (hline : Closable before (done ++ e :: rest)) :
    ∃ r', Closing.start r e.1 = (r', .waiting (.ofEntry e)) ∧ ClosesNext before done e r' := by
  have hmem : e ∈ done ++ e :: rest := List.mem_append_right _ List.mem_cons_self
  have hnew : e.1 ∉ done.map Prod.fst := by
    have hdistinct := hline.distinct
    rw [List.map_append, List.map_cons, List.nodup_append] at hdistinct
    exact fun hdone => hdistinct.2.2 _ hdone _ List.mem_cons_self rfl
  have hget : r.registry.sessions.get? e.1 = some e.2 := by
    rw [h.registry, Registry.without, Table.get?_without, if_neg hnew]
    exact hline.tracked e hmem
  have hstart : Closing.start r e.1 =
      ((r.withRegistry fun g => g.update e.1 fun s => s.transition .closing).ask (closeRequest e),
        .waiting (.ofEntry e)) := by
    rw [Closing.start, hget]
    exact if_neg (hline.notClosing e hmem)
  refine ⟨_, hstart, ?_⟩
  · refine ⟨congrArg (·.update e.1 fun s => s.transition .closing) h.registry, ?_, h.slot⟩
    rw [List.map_append, ← List.append_assoc, ← h.requests]
    simp [Relay.requests, Relay.ask, Relay.note, Relay.withRegistry, Happening.request?, closeRequest]

/-- **The engine answers**, and the session is gone whatever the answer is. -/
theorem ClosesNext.resume (h : ClosesNext before done e r) (reply : Except Failure Unit) :
    ∃ r', (Closing.ofEntry e).resume reply r = (r', reply) ∧ ClosedInTurn before (done ++ [e]) r' := by
  refine ⟨_, rfl, ?_, ?_, h.slot⟩
  · rw [List.map_append, List.map_singleton, ← Registry.remove_update_without, ← h.registry]
    rfl
  · rw [← h.requests]
    simp [Relay.requests, Relay.reportSessions, Relay.gauge, Relay.count, Relay.report, Relay.note, Relay.withRegistry,
      Happening.request?]

end Turns

end QueryRelay
