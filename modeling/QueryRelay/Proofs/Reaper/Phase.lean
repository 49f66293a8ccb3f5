import QueryRelay.Proofs.Reaper.Watch

/-!
# Running, told, ended

A reaper runs until it is told to stop, and ends some time after that; neither is ever taken back.  This module derives
from `Watch.Step` what holds of reapers at all times.

* `Watch.Sound` — identifiers are given out once, only the current reaper runs, and a reaper waits in one call until it
  ends; `Watch.Sound.step` keeps it.
* `Watch.Sound.running_unique` — **at most one reaper runs**.
* `ReaperSide.IsTold` — a reaper was told to stop; `Watch.Step.isTold`, `Watch.Step.ended` — **for good**.
* `Watch.LetsGo` — a reaper is told by somebody who does not wait for its end, which changes nothing of this.
* `Watch.Awaited` — somebody waits for every reaper that was told and has not ended.
* `Watch.Manned` — a reaper that was started waits in some call until it ends; `Exchange.watch_sound_manned` —
  this and `Watch.Sound` hold of every exchange that can be reached.
-/

namespace QueryRelay

namespace ReaperSide

/-- A reaper was told to stop, and may have ended since. -/
def IsTold (s : ReaperSide) (id : ReaperId) : Prop := s.phase? id = some .told ∨ s.phase? id = some .ended

variable {s : ReaperSide} {id other : ReaperId}

theorem IsTold.not_running (h : s.IsTold id) : s.phase? id ≠ some .running := by
  rcases h with h | h <;> simp [h]

theorem IsTold.known (h : s.IsTold id) : s.phase? id ≠ none := by
  rcases h with h | h <;> simp [h]

/-- Who runs when a reaper was told to stop is another one, and ran before. -/
theorem running_of_tell (h : (s.tell id).phase? other = some .running) :
    other ≠ id ∧ s.phase? other = some .running := by
  rw [phase?_tell] at h
  split at h
  · obtain ⟨phase, -, hphase⟩ := Option.map_eq_some_iff.1 h
    split at hphase
    · rename_i hended
      exact absurd (hphase.symm.trans hended) (by simp)
    · exact absurd hphase (by simp)
  · exact ⟨‹_›, h⟩

theorem ended_of_tell : (s.tell id).phase? other = some .ended ↔ s.phase? other = some .ended := by
  rw [phase?_tell]
  split
  · rename_i heq
    subst heq
    cases s.phase? other with
    | none => simp
    | some phase => cases phase <;> simp
  · rfl

theorem known_of_tell : (s.tell id).phase? other = none ↔ s.phase? other = none := by
  rw [phase?_tell]
  split
  · rename_i heq
    rw [heq, Option.map_eq_none_iff]
  · rfl

theorem isTold_tell (h : s.IsTold other) : (s.tell id).IsTold other := by
  rcases h with h | h
  · by_cases heq : other = id
    · subst heq
      exact .inl (by rw [phase?_tell, if_pos rfl, h]; rfl)
    · exact .inl (by rw [phase?_tell, if_neg heq, h])
  · exact .inr (ended_of_tell.2 h)

/-- A reaper that was started is told to stop. -/
theorem isTold_tell_self (h : s.phase? id ≠ none) : (s.tell id).IsTold id := by
  obtain ⟨phase, hphase⟩ := Option.ne_none_iff_exists'.1 h
  unfold IsTold
  rw [phase?_tell, if_pos rfl, hphase]
  cases phase <;> simp

/-- Whoever is told was told before, or is the one who is told now. -/
theorem told_of_tell (h : (s.tell id).phase? other = some .told) :
    other = id ∧ s.phase? id ≠ some .ended ∨ other ≠ id ∧ s.phase? other = some .told := by
  rw [phase?_tell] at h
  split at h
  · rename_i heq
    refine .inl ⟨heq, fun hended => ?_⟩
    rw [hended] at h
    exact absurd h (by simp)
  · exact .inr ⟨‹_›, h⟩

theorem size_tell : (s.tell id).phases.size = s.phases.size := by
  rw [← Table.length_keys, ← Table.length_keys, tell, Table.keys_modify]

/-- Identifiers have been given out in order. -/
def Counted (s : ReaperSide) : Prop := ∀ id, s.phase? id ≠ none → id.serial ≤ s.phases.size

namespace Counted

theorem next_new (h : s.Counted) : s.phase? s.next = none :=
  Decidable.of_not_not fun hknown => absurd (h s.next hknown) (Nat.not_succ_le_self _)

theorem start (h : s.Counted) : s.start.Counted := by
  intro id hknown
  have hsize : s.start.phases.size = s.phases.size + 1 := Table.size_insert_of_get?_none h.next_new _
  rw [hsize]
  rw [phase?_start] at hknown
  split at hknown
  · rename_i heq
    exact heq ▸ Nat.le_refl _
  · exact Nat.le_succ_of_le (h id hknown)

theorem tell (h : s.Counted) (id : ReaperId) : (s.tell id).Counted := by
  intro other hknown
  rw [size_tell]
  exact h other fun hnone => hknown (known_of_tell.2 hnone)

theorem finish (h : s.Counted) (hid : s.phase? id ≠ none) : (s.finish id).Counted := by
  intro other hknown
  have hmem : id ∈ s.phases.entries.map Prod.fst := Table.mem_keys_iff.2 (Option.isSome_iff_ne_none.2 hid)
  have hsize : (s.finish id).phases.size = s.phases.size := by
    rw [ReaperSide.finish, Table.insert, dif_pos hmem, ← Table.length_keys, ← Table.length_keys, Table.keys_modify]
  rw [hsize]
  rw [phase?_finish] at hknown
  split at hknown
  · rename_i heq
    exact heq ▸ h id hid
  · exact h other hknown

end Counted

end ReaperSide

namespace Watch

variable {asked : Prop} {w w' : Watch} {id : ReaperId}

/-! ## At most one reaper runs -/

/-- What holds of reapers at all times. -/
structure Sound (w : Watch) : Prop where
  counted : w.side.Counted
  /-- The current reaper was started. -/
  started : ∀ id, w.side.current = some id → w.side.phase? id ≠ none
  /-- A reaper that runs is the one that nobody has told to stop. -/
  current : ∀ id, w.side.phase? id = some .running → w.side.current = some id
  /-- A call is a reaper only until the reaper ends. -/
  waits : ∀ i id, w.reaper? i = some id → w.side.phase? id = some .running ∨ w.side.phase? id = some .told
  unique : ∀ i j id, w.reaper? i = some id → w.reaper? j = some id → i = j

namespace Sound

theorem running_unique (h : w.Sound) {other : ReaperId} (hid : w.side.phase? id = some .running)
    (hother : w.side.phase? other = some .running) : id = other :=
  Option.some.inj ((h.current id hid).symm.trans (h.current other hother))

theorem known (h : w.Sound) {i : Nat} (hi : w.reaper? i = some id) : w.side.phase? id ≠ none := by
  rcases h.waits i id hi with hphase | hphase <;> simp [hphase]

/-- No call is a reaper that has ended. -/
theorem not_ended (h : w.Sound) {i : Nat} (hi : w.reaper? i = some id) : w.side.phase? id ≠ some .ended := by
  rcases h.waits i id hi with hphase | hphase <;> simp [hphase]

/-- The current reaper is told to stop. -/
theorem tell (h : w.Sound) (hcurrent : w.side.current = some id) (stopping? : Nat → Option ReaperId) :
    Sound ⟨w.side.tell id, w.reaper?, stopping?⟩ where
  counted := h.counted.tell id
  started := fun _ hnone => absurd hnone (by simp)
  current := by
    intro other hrunning
    obtain ⟨hne, hbefore⟩ := ReaperSide.running_of_tell hrunning
    exact absurd (Option.some.inj ((h.current other hbefore).symm.trans hcurrent)) hne
  waits := by
    intro i other hi
    rcases h.waits i other hi with hrunning | htold
    · cases Option.some.inj ((h.current other hrunning).symm.trans hcurrent)
      right
      rw [ReaperSide.phase?_tell, if_pos rfl, hrunning]
      rfl
    · exact (ReaperSide.isTold_tell (.inl htold)).elim .inr fun hended =>
        absurd (htold.symm.trans (ReaperSide.ended_of_tell.1 hended)) (by simp)
  unique := h.unique

/-- A reaper starts, in a call of its own. -/
theorem start (h : w.Sound) {i : Nat} (hfree : w.reaper? i = none)
    (hnone : ∀ id, w.side.current = some id → w.side.phase? id = some .ended) :
    Sound { w with side := w.side.start, reaper? := Function.update w.reaper? i (some w.side.next) } where
  counted := h.counted.start
  started := by
    intro id hid
    cases Option.some.inj hid
    rw [ReaperSide.phase?_start, if_pos rfl]
    simp
  current := by
    intro other hrunning
    rw [ReaperSide.phase?_start] at hrunning
    split at hrunning
    · rename_i heq
      rw [heq, ReaperSide.current_start]
    · exact absurd (hrunning.symm.trans (hnone other (h.current other hrunning))) (by simp)
  waits := by
    intro j other hj
    rw [ReaperSide.phase?_start]
    split
    · exact .inl rfl
    · rename_i hne
      rcases update_eq_some hj with ⟨-, heq⟩ | ⟨-, hj⟩
      · exact absurd (Option.some.inj heq).symm hne
      · exact h.waits j other hj
  unique := by
    -- The new reaper is none of those that wait already.
    have hnew : ∀ j id, w.reaper? j = some id → id ≠ w.side.next := by
      rintro j id hj rfl
      exact h.known hj h.counted.next_new
    intro j k id hj hk
    rcases update_eq_some hj with ⟨rfl, hid⟩ | ⟨-, hj'⟩
    · rcases update_eq_some hk with ⟨rfl, -⟩ | ⟨-, hk'⟩
      · rfl
      · exact absurd (Option.some.inj hid).symm (hnew k id hk')
    · rcases update_eq_some hk with ⟨rfl, hid⟩ | ⟨-, hk'⟩
      · exact absurd (Option.some.inj hid).symm (hnew j id hj')
      · exact h.unique j k id hj' hk'

/-- A reaper ends, and its call with it. -/
theorem finish (h : w.Sound) {i : Nat} (hwaits : w.reaper? i = some id) :
    Sound { w with side := w.side.finish id, reaper? := Function.update w.reaper? i none } := by
  have hback : ∀ j other, Function.update w.reaper? i none j = some other → j ≠ i ∧ w.reaper? j = some other :=
    fun j other hj => (update_eq_some hj).resolve_left fun hnew => absurd hnew.2 (by simp)
  refine ⟨h.counted.finish (h.known hwaits), fun other hcurrent => ?_, fun other hrunning => ?_, fun j other hj => ?_,
    fun j k other hj hk => h.unique j k other (hback j other hj).2 (hback k other hk).2⟩
  · rw [ReaperSide.phase?_finish]
    split
    · simp
    · exact h.started other hcurrent
  · rw [ReaperSide.phase?_finish] at hrunning
    split at hrunning
    · exact absurd hrunning (by simp)
    · exact h.current other hrunning
  · obtain ⟨hji, hj'⟩ := hback j other hj
    have hne : other ≠ id := by
      rintro rfl
      exact hji (h.unique j i other hj' hwaits)
    rw [ReaperSide.phase?_finish, if_neg hne]
    exact h.waits j other hj'

/-- **Every step keeps all that.** -/
theorem step (h : w.Sound) (hstep : w.Step asked w') : w'.Sound := by
  cases hstep with
  | same => exact h
  | start i hasked hfree hnone => exact h.start hfree hnone
  | tell id hcurrent hended => exact h.tell hcurrent w.stopping?
  | stop i id hfree hcurrent hgoes => exact h.tell hcurrent _
  | finish i id hwaits htold => exact h.finish hwaits
  | stopped i id hwaits hended => exact ⟨h.counted, h.started, h.current, h.waits, h.unique⟩

end Sound

/-! ## Telling and ending are for good -/

namespace Step

/-- A reaper that has ended stays so. -/
theorem ended (hstep : w.Step asked w') (h : w.Sound) (hended : w.side.phase? id = some .ended) :
    w'.side.phase? id = some .ended := by
  cases hstep with
  | start i hasked hfree hnone =>
    rw [ReaperSide.phase?_start, if_neg, hended]
    rintro rfl
    exact absurd (hended.symm.trans h.counted.next_new) (by simp)
  | tell | stop => exact ReaperSide.ended_of_tell.2 hended
  | finish i other hwaits htold =>
    rw [ReaperSide.phase?_finish]
    split
    · rfl
    · exact hended
  | same | stopped => exact hended

/-- A reaper that was told to stop is not untold. -/
theorem isTold (hstep : w.Step asked w') (h : w.Sound) (htold : w.side.IsTold id) : w'.side.IsTold id := by
  cases hstep with
  | start i hasked hfree hnone =>
    have hne : id ≠ w.side.next := by
      rintro rfl
      exact htold.known h.counted.next_new
    unfold ReaperSide.IsTold
    rw [ReaperSide.phase?_start, if_neg hne]
    exact htold
  | tell | stop => exact ReaperSide.isTold_tell htold
  | finish i other hwaits hother =>
    unfold ReaperSide.IsTold
    rw [ReaperSide.phase?_finish]
    split
    · exact .inr rfl
    · exact htold
  | same | stopped => exact htold

/-- A call that is a reaper was that reaper before, if the reaper is not new. -/
theorem reaper?_of_known (hstep : w.Step asked w') (h : w.Sound) (hknown : w.side.phase? id ≠ none) {i : Nat}
    (hi : w'.reaper? i = some id) : w.reaper? i = some id := by
  cases hstep with
  | start j hasked hfree hnone =>
    rcases update_eq_some hi with ⟨-, hnew⟩ | ⟨-, hi⟩
    · exact absurd h.counted.next_new (Option.some.inj hnew ▸ hknown)
    · exact hi
  | finish j other hwaits htold =>
    rcases update_eq_some hi with ⟨-, hnew⟩ | ⟨-, hi⟩
    · exact absurd hnew (by simp)
    · exact hi
  | same | tell | stop | stopped => exact hi

/-- Without a demand no call becomes a reaper. -/
theorem reaper?_eq_none (hstep : w.Step asked w') (hasked : ¬asked) {i : Nat} (hi : w.reaper? i = none) :
    w'.reaper? i = none := by
  cases hstep with
  | start j hdemand hfree hnone => exact absurd hdemand hasked
  | finish j other hwaits htold =>
    refine Option.eq_none_iff_forall_ne_some.2 fun id hid => ?_
    rcases update_eq_some hid with ⟨-, hnew⟩ | ⟨-, hold⟩
    · exact absurd hnew (by simp)
    · exact absurd (hi.symm.trans hold) (by simp)
  | same | tell | stop | stopped => exact hi

/-- Without a demand no reaper becomes the current one. -/
theorem current_eq_none (hstep : w.Step asked w') (hasked : ¬asked) (hnone : w.side.current = none) :
    w'.side.current = none := by
  cases hstep with
  | start j hdemand hfree hno => exact absurd hdemand hasked
  | tell | stop => rfl
  | same | finish | stopped => exact hnone

/-- Who waits for a reaper to end waits on, until the reaper has ended. -/
theorem stopping?_or_ended (hstep : w.Step asked w') (h : w.Sound) {i : Nat}
    (hi : w.stopping? i = some id ∨ w.side.phase? id = some .ended) :
    w'.stopping? i = some id ∨ w'.side.phase? id = some .ended := by
  rcases hi with hi | hended
  · cases hstep with
    | stop j other hfree hcurrent hgoes =>
      have hij : i ≠ j := by
        rintro rfl
        exact absurd (hfree.symm.trans hi) (by simp)
      exact .inl ((Function.update_of_ne hij _ _).trans hi)
    | stopped j other hwaits hended =>
      by_cases hij : i = j
      · subst hij
        cases Option.some.inj (hi.symm.trans hwaits)
        exact .inr hended
      · exact .inl ((Function.update_of_ne hij _ _).trans hi)
    | same | start | tell | finish => exact .inl hi
  · exact .inr (hstep.ended h hended)

end Step

/-! ## Telling without a wait -/

/-- The current reaper is told to stop, if there is one, and nobody waits for that. -/
inductive LetsGo (w : Watch) : Watch → Prop
  | same (hcurrent : w.side.current = none) : LetsGo w w
  | tell (id : ReaperId) (hcurrent : w.side.current = some id) : LetsGo w { w with side := w.side.tell id }

namespace LetsGo

theorem sound (hletsGo : w.LetsGo w') (h : w.Sound) : w'.Sound := by
  cases hletsGo with
  | same hcurrent => exact h
  | tell id hcurrent => exact h.tell hcurrent w.stopping?

theorem ended (hletsGo : w.LetsGo w') (hended : w.side.phase? id = some .ended) : w'.side.phase? id = some .ended := by
  cases hletsGo with
  | same hcurrent => exact hended
  | tell other hcurrent => exact ReaperSide.ended_of_tell.2 hended

theorem isTold (hletsGo : w.LetsGo w') (htold : w.side.IsTold id) : w'.side.IsTold id := by
  cases hletsGo with
  | same hcurrent => exact htold
  | tell other hcurrent => exact ReaperSide.isTold_tell htold

theorem side_of_current (hletsGo : w.LetsGo w') (hcurrent : w.side.current = some id) :
    w'.side = w.side.tell id := by
  cases hletsGo with
  | same hnone => exact absurd (hnone.symm.trans hcurrent) (by simp)
  | tell other hother =>
    cases Option.some.inj (hother.symm.trans hcurrent)
    rfl

theorem reaper?_eq (hletsGo : w.LetsGo w') : w'.reaper? = w.reaper? := by
  cases hletsGo <;> rfl

theorem stopping?_eq (hletsGo : w.LetsGo w') : w'.stopping? = w.stopping? := by
  cases hletsGo <;> rfl

theorem current_eq_none (hletsGo : w.LetsGo w') : w'.side.current = none := by
  cases hletsGo with
  | same hcurrent => exact hcurrent
  | tell id hcurrent => rfl

end LetsGo

/-! ## Who waits -/

/-- Somebody waits for every reaper to end that was told to stop and has not ended. -/
def Awaited (w : Watch) : Prop := ∀ id, w.side.phase? id = some .told → ∃ i, w.stopping? i = some id

/-- **Every step keeps that**: a reaper is told by somebody who waits then, and the wait is over when it has ended. -/
theorem Awaited.step (h : w.Awaited) (hstep : w.Step asked w') : w'.Awaited := by
  intro id htold
  cases hstep with
  | same => exact h id htold
  | start i hasked hfree hnone =>
    rw [ReaperSide.phase?_start] at htold
    split at htold
    · exact absurd htold (by simp)
    · exact h id htold
  | tell other hcurrent hended =>
    rcases ReaperSide.told_of_tell htold with ⟨-, hgoes⟩ | ⟨-, hbefore⟩
    · exact absurd hended hgoes
    · exact h id hbefore
  | stop i other hfree hcurrent hgoes =>
    rcases ReaperSide.told_of_tell htold with ⟨rfl, -⟩ | ⟨-, hbefore⟩
    · exact ⟨i, Function.update_self i _ _⟩
    · obtain ⟨j, hj⟩ := h id hbefore
      have hji : j ≠ i := by
        rintro rfl
        exact absurd (hfree.symm.trans hj) (by simp)
      exact ⟨j, (Function.update_of_ne hji _ _).trans hj⟩
  | finish i other hwaits hother =>
    rw [ReaperSide.phase?_finish] at htold
    split at htold
    · exact absurd htold (by simp)
    · exact h id htold
  | stopped i other hwaits hended =>
    obtain ⟨j, hj⟩ := h id htold
    have hji : j ≠ i := by
      rintro rfl
      cases Option.some.inj (hj.symm.trans hwaits)
      exact absurd (htold.symm.trans hended) (by simp)
    exact ⟨j, (Function.update_of_ne hji _ _).trans hj⟩

/-- If no reaper is current, and nobody waits for one to end, no call is a reaper. -/
theorem Awaited.reaper?_eq_none (h : w.Awaited) (hsound : w.Sound) (hcurrent : w.side.current = none)
    (hstopping : ∀ i, w.stopping? i = none) (i : Nat) : w.reaper? i = none := by
  refine Option.eq_none_iff_forall_ne_some.2 fun id hi => ?_
  rcases hsound.waits i id hi with hrunning | htold
  · exact absurd (hcurrent.symm.trans (hsound.current id hrunning)) (by simp)
  · obtain ⟨j, hj⟩ := h id htold
    exact absurd ((hstopping j).symm.trans hj) (by simp)

/-! ## Reapers that are there -/

/-- A reaper that was started is a call that waits, until it has ended. -/
def Manned (w : Watch) : Prop :=
  ∀ id, w.side.phase? id ≠ none → w.side.phase? id ≠ some .ended → ∃ i, w.reaper? i = some id

/-- **Every step keeps that.** -/
theorem Manned.step (h : w.Manned) (hstep : w.Step asked w') : w'.Manned := by
  intro id hknown hgoes
  cases hstep with
  | same | stopped => exact h id hknown hgoes
  | start i hasked hfree hnone =>
    rw [ReaperSide.phase?_start] at hknown hgoes
    split at hknown
    · rename_i hnew
      subst hnew
      exact ⟨i, Function.update_self i _ _⟩
    · rename_i hold
      rw [if_neg hold] at hgoes
      obtain ⟨j, hj⟩ := h id hknown hgoes
      have hji : j ≠ i := by
        rintro rfl
        exact absurd (hfree.symm.trans hj) (by simp)
      exact ⟨j, (Function.update_of_ne hji _ _).trans hj⟩
  | tell | stop => exact h id (mt ReaperSide.known_of_tell.2 hknown) (mt ReaperSide.ended_of_tell.2 hgoes)
  | finish i other hwaits htold =>
    rw [ReaperSide.phase?_finish] at hknown hgoes
    split at hgoes
    · exact absurd rfl hgoes
    · rename_i hne
      rw [if_neg hne] at hknown
      obtain ⟨j, hj⟩ := h id hknown hgoes
      have hji : j ≠ i := by
        rintro rfl
        exact hne (Option.some.inj (hj.symm.trans hwaits))
      exact ⟨j, (Function.update_of_ne hji _ _).trans hj⟩

/-- Whoever waits for a reaper to end waits for one that was started. -/
def AwaitsKnown (w : Watch) : Prop := ∀ i id, w.stopping? i = some id → w.side.phase? id ≠ none

/-- **Every step keeps that.** -/
theorem AwaitsKnown.step (h : w.AwaitsKnown) (hsound : w.Sound) (hstep : w.Step asked w') : w'.AwaitsKnown := by
  intro i id hi
  cases hstep with
  | same => exact h i id hi
  | start j hasked hfree hnone =>
    rw [ReaperSide.phase?_start]
    split
    · simp
    · exact h i id hi
  | tell other hcurrent hended => exact mt ReaperSide.known_of_tell.1 (h i id hi)
  | stop j other hfree hcurrent hgoes =>
    refine mt ReaperSide.known_of_tell.1 ?_
    rcases update_eq_some hi with ⟨-, hnew⟩ | ⟨-, hbefore⟩
    · cases hnew
      exact hsound.started id hcurrent
    · exact h i id hbefore
  | finish j other hwaits htold =>
    rw [ReaperSide.phase?_finish]
    split
    · simp
    · exact h i id hi
  | stopped j other hwaits hended =>
    rcases update_eq_some hi with ⟨-, hnew⟩ | ⟨-, hbefore⟩
    · exact absurd hnew (by simp)
    · exact h i id hbefore

end Watch

namespace Exchange

variable {settings : Settings} {factory : ClientFactory} {moves : List Move} {x : Exchange}

theorem watch_sound_new (settings : Settings) (factory : ClientFactory) : (new settings factory).watch.Sound := by
  have hnoReaper : ∀ i id, (new settings factory).reaper? i ≠ some id := fun i id => by simp [reaper?, seen?, new]
  exact
    { counted := fun id hknown => absurd (Table.get?_empty id) hknown
      started := fun id hid => absurd hid (by simp [watch, Relay.reaperSide, new, Relay.new])
      current := fun id hrunning => absurd ((Table.get?_empty id).symm.trans hrunning) (by simp)
      waits := fun i id hi => absurd hi (hnoReaper i id)
      unique := fun i _ id hi => absurd hi (hnoReaper i id) }

/-- **What holds of reapers at all times**, also when those are dropped who wait for a reaper to end. -/
theorem watch_sound_manned (h : (new settings factory).run moves = some x) : x.watch.Sound ∧ x.watch.Manned := by
  induction h using run_induct with
  | nil => exact ⟨watch_sound_new settings factory, fun id hknown => absurd (Table.get?_empty id) hknown⟩
  | @snoc moves m y z h hlast ih =>
    obtain ⟨hsound, hmanned⟩ := ih
    cases m with
    | drop i =>
      rw [watch_drop hlast]
      exact ⟨⟨hsound.counted, hsound.started, hsound.current, hsound.waits, hsound.unique⟩, hmanned⟩
    | start | resume | elapse =>
      have hstep := watch_step hlast fun i hi => absurd hi (by simp)
      exact ⟨hsound.step hstep, hmanned.step hstep⟩

end Exchange

end QueryRelay
