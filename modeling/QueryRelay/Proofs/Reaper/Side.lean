import QueryRelay.Proofs.Exchange.Errand

/-!
# The reaper side of a relay

A `ReaperSide` is what a relay keeps of its background reapers: how far each of them is, and which one nobody has told
to stop.  This module says what starting a reaper, telling it to stop and its own pauses make of that.

* `ReaperSide.start`, `ReaperSide.tell`, `ReaperSide.finish` — the three things that happen to reapers.
* `Relay.startReaper_reaperSide`, `Stopping.start_reaperSide`, `Reaping.settle_reaperSide` — when they happen.
* `Errand.stopping?` — the reaper whose end an errand waits for; only stopping the reaper begins such an errand.
-/

namespace QueryRelay

/-- What of a relay is about reapers. -/
structure ReaperSide where
  phases : Table ReaperId ReaperPhase
  /-- The reaper that nobody has told to stop. -/
  current : Option ReaperId

namespace Relay

/-- The reaper side of a relay. -/
def reaperSide (r : Relay) : ReaperSide := ⟨r.reapers, r.reaper⟩

end Relay

namespace ReaperSide

/-- How far a reaper is. -/
def phase? (s : ReaperSide) (id : ReaperId) : Option ReaperPhase := s.phases.get? id

/-- The reaper that starts next. -/
def next (s : ReaperSide) : ReaperId := ⟨s.phases.size + 1⟩

/-- A reaper starts. -/
def start (s : ReaperSide) : ReaperSide := ⟨s.phases.insert s.next .running, some s.next⟩

/-- A reaper is told to stop. -/
def tell (s : ReaperSide) (id : ReaperId) : ReaperSide :=
  ⟨s.phases.modify id fun phase => if phase = .ended then phase else .told, none⟩

/-- A reaper ends. -/
def finish (s : ReaperSide) (id : ReaperId) : ReaperSide := { s with phases := s.phases.insert id .ended }

variable (s : ReaperSide) (id other : ReaperId)

@[simp] theorem phase?_start :
    s.start.phase? id = if id = s.next then some .running else s.phase? id :=
  Table.get?_insert ..

@[simp] theorem phase?_tell :
    (s.tell id).phase? other =
      if other = id then (s.phase? id).map fun phase => if phase = .ended then phase else .told else s.phase? other :=
  Table.get?_modify ..

@[simp] theorem phase?_finish :
    (s.finish id).phase? other = if other = id then some .ended else s.phase? other :=
  Table.get?_insert ..

@[simp] theorem current_start : s.start.current = some s.next := rfl

@[simp] theorem current_tell : (s.tell id).current = none := rfl

end ReaperSide

/-! ## Starting, telling and ending -/

/-- A reaper is started unless there is one. -/
theorem Relay.startReaper_reaperSide (r : Relay) :
    (r.startReaper = (r, none) ∧ ∃ id, r.reaper = some id ∧ r.reaperSide.phase? id ≠ some .ended) ∨
      (r.startReaper.2 = some r.reaperSide.next ∧ r.startReaper.1.reaperSide = r.reaperSide.start ∧
        ∀ id, r.reaper = some id → r.reaperSide.phase? id = some .ended) := by
  have hhas : r.hasReaper = true ↔ ∃ id, r.reaper = some id ∧ r.reaperSide.phase? id ≠ some .ended := by
    unfold hasReaper
    cases h : r.reaper with
    | none => simp
    | some id => simp [reaperSide, ReaperSide.phase?]
  unfold startReaper
  split
  · rename_i h
    exact .inl ⟨rfl, hhas.1 h⟩
  · rename_i h
    exact .inr ⟨rfl, rfl, fun id hid => Decidable.of_not_not fun hended => h (hhas.2 ⟨id, hid, hended⟩)⟩

/-- Telling the reaper to stop. -/
theorem Relay.tellReaper_eq (r : Relay) :
    (r.tellReaper = (r, none) ∧ r.reaper = none) ∨
      ∃ id, r.reaper = some id ∧ r.tellReaper.2 = some id ∧ r.tellReaper.1.reaperSide = r.reaperSide.tell id := by
  unfold tellReaper
  split
  · rename_i id h
    exact .inr ⟨id, h, rfl, rfl⟩
  · rename_i h
    exact .inl ⟨rfl, h⟩

/-- Whoever stops the reaper tells it, if there is one, and waits for its end unless it has ended already. -/
theorem Stopping.start_reaperSide (r : Relay) :
    (start r = (r, .finished ()) ∧ r.reaper = none) ∨
      ∃ id, r.reaper = some id ∧ (start r).1.reaperSide = r.reaperSide.tell id ∧
        (((start r).2.point? = none ∧ r.reaperSide.phase? id = some .ended) ∨
          ((start r).2.point? = some ⟨id⟩ ∧ r.reaperSide.phase? id ≠ some .ended)) := by
  rcases r.tellReaper_eq with ⟨htell, hnone⟩ | ⟨id, hid, htold, hside⟩
  · left
    simp only [start, htell]
    exact ⟨trivial, hnone⟩
  · right
    refine ⟨id, hid, ?_⟩
    have hended : r.tellReaper.1.reapers.get? id = some .ended ↔ r.reaperSide.phase? id = some .ended := by
      have hphase : r.tellReaper.1.reapers.get? id = (r.reaperSide.tell id).phase? id := by
        rw [← hside]
        rfl
      rw [hphase, ReaperSide.phase?_tell, if_pos rfl]
      cases r.reaperSide.phase? id with
      | none => simp
      | some phase => cases phase <;> simp
    have htell : r.tellReaper = (r.tellReaper.1, some id) := by rw [← htold]
    unfold start
    rw [htell]
    dsimp only
    by_cases h : r.reaperSide.phase? id = some .ended
    · rw [if_pos (hended.2 h)]
      exact ⟨hside, .inl ⟨rfl, h⟩⟩
    · rw [if_neg fun he => h (hended.1 he)]
      exact ⟨hside, .inr ⟨rfl, h⟩⟩

/-- Between two sweeps a reaper rests, unless it was told to stop: then it ends. -/
theorem Reaping.settle_reaperSide (r : Relay) (id : ReaperId) :
    (settle r id = (r, .waiting (resting id r.settings.limits.cleanupInterval)) ∧
        r.reaperSide.phase? id = some .running) ∨
      ∃ ended, settle r id = (ended, .finished ()) ∧ ended.reaperSide = r.reaperSide.finish id ∧
        r.reaperSide.phase? id ≠ some .running := by
  unfold settle
  split
  · rename_i h
    exact .inl ⟨rfl, h⟩
  · rename_i h
    exact .inr ⟨_, rfl, rfl, h⟩

/-! ## Waiting for the end of a reaper -/

/-- What an errand waits for the end of, if it waits for a reaper to end. -/
def Errand.stopping? : Errand → Option ReaperId
  | stopping s => some s.reaper
  | _ => none

/-- A deed that does not concern reapers does not wait for one. -/
theorem Deed.perform_not_stopping {d : Deed} (hd : d.concernsReapers = false) (r : Relay) :
    (d.perform r).2.bind Errand.stopping? = none := by
  cases d with
  | startReaper | stopReaper | settleReaper => exact absurd hd (by simp [concernsReapers])
  | openSession | closeSession | transact | execute | closeClient =>
    simp only [perform]
    rw [Option.bind_map]
    exact Option.bind_eq_none_iff.2 fun _ _ => rfl
  | _ => rfl

/-- An errand that goes on does not wait for a reaper to end. -/
theorem Errand.resume_not_stopping (answers : Answers) (e : Errand) (r : Relay) :
    (e.resume answers r).2.bind stopping? = none := by
  cases e with
  | transacting | executing =>
    simp only [resume]
    rw [Option.bind_map]
    exact Option.bind_eq_none_iff.2 fun _ _ => rfl
  | _ => rfl

end QueryRelay
