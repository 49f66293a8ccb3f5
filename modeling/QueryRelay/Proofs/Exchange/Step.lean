import Mathlib.Data.List.Induction
import QueryRelay.Proofs.Exchange.Basic

/-!
# Moves and calls

A move is about at most one call: the one that begins, goes on or is dropped.  Every other call
stands as it stood, and the call that the move is about comes to wait again in two ways only: it has
just begun, or it went on from where it waited.

* `Exchange.apply_resume`, `Exchange.apply_drop` — what a move of these kinds needs and does.
* `Exchange.mover?` — the call that a move is about; `Exchange.mover_cases` is the inversion for a call that has begun.
* `Exchange.run_induct` — the induction on runs by their last moves; `Exchange.run_cons_induct` is that on runs which
  begin with a certain move.
* `ComesToWait` — by a move, a call comes to some point where it waits; `ComesToWait.cases` is the
  inversion.
-/

namespace QueryRelay

namespace Exchange

/-! ## Moves of each kind -/

variable {x y : Exchange} {i : Nat}

/-- Only a call that waits can go on. -/
theorem apply_resume {answers : Answers} (h : x.apply (.resume i answers) = some y) :
    ∃ call since, x.calls[i]? = some (.waiting call since) ∧
      y =
        { relay := (call.resume (answers call.wait) x.relay).1
          calls := x.calls.set i (.after (call.resume (answers call.wait) x.relay))
          heard := x.heard ++ [⟨call.wait, answers call.wait⟩] } := by
  simp only [apply] at h
  split at h
  · rename_i call since hcall
    split at h
    · exact ⟨call, since, hcall, (Option.some.inj h).symm⟩
    · exact absurd h (by simp)
  · exact absurd h (by simp)

/-- Only a call that waits can be dropped. -/
theorem apply_drop (h : x.apply (.drop i) = some y) :
    ∃ call since, x.calls[i]? = some (.waiting call since) ∧
      y = { x with relay := call.drop x.relay, calls := x.calls.set i .dropped } := by
  simp only [apply] at h
  split at h
  · rename_i call since hcall
    split at h
    · exact absurd h (by simp)
    · exact ⟨call, since, hcall, (Option.some.inj h).symm⟩
  · exact absurd h (by simp)

/-- What goes on is a call whose wait is over. -/
theorem isOver_of_apply_resume {answers : Answers} (h : x.apply (.resume i answers) = some y) {call : Call}
    {since : Instant} (hcall : x.calls[i]? = some (.waiting call since)) : call.wait.isOver since x.relay = true := by
  simp only [apply, hcall] at h
  split at h
  · assumption
  · exact absurd h (by simp)

/-- A reaper is not dropped. -/
theorem not_isReaper_of_apply_drop (h : x.apply (.drop i) = some y) {call : Call} {since : Instant}
    (hcall : x.calls[i]? = some (.waiting call since)) : call.isReaper = false := by
  simp only [apply, hcall] at h
  split at h
  · exact absurd h (by simp)
  · exact Bool.eq_false_iff.2 ‹_›

/-! ## The call that a move is about -/

/-- The call that a move is about. -/
def mover? (x : Exchange) : Move → Option Nat
  | .start _ => some x.calls.length
  | .resume i _ => some i
  | .drop i => some i
  | .elapse _ => none

/-- A move leaves the calls alone that it is not about. -/
theorem calls_of_not_mover {m : Move} (h : x.apply m = some y) (hi : x.mover? m ≠ some i) :
    y.calls[i]? = x.calls[i]? := by
  cases m with
  | start demand =>
    cases Option.some.inj h
    have hne : x.calls.length ≠ i := fun hlength => hi (hlength ▸ rfl)
    rw [List.getElem?_append]
    split
    · rfl
    · rw [List.getElem?_eq_none_iff.2 (by simp; omega), List.getElem?_eq_none_iff.2 (by omega)]
  | resume j answers =>
    obtain ⟨_, _, _, rfl⟩ := apply_resume h
    exact List.getElem?_set_ne fun hji => hi (congrArg some hji)
  | drop j =>
    obtain ⟨_, _, _, rfl⟩ := apply_drop h
    exact List.getElem?_set_ne fun hji => hi (congrArg some hji)
  | elapse span =>
    cases Option.some.inj h
    rfl

/-- No call is forgotten. -/
theorem length_calls_le {m : Move} (h : x.apply m = some y) : x.calls.length ≤ y.calls.length := by
  cases m with
  | start demand =>
    cases Option.some.inj h
    simp
  | resume j answers =>
    obtain ⟨_, _, _, rfl⟩ := apply_resume h
    simp
  | drop j =>
    obtain ⟨_, _, _, rfl⟩ := apply_drop h
    simp
  | elapse span =>
    cases Option.some.inj h
    exact Nat.le_refl _

/-- **The own moves of a call that has begun**: it waits, and goes on or is dropped. -/
theorem mover_cases {m : Move} {s : Standing} (h : x.apply m = some y) (hmover : x.mover? m = some i)
    (hs : x.calls[i]? = some s) :
    ∃ call since, s = .waiting call since ∧
      ((∃ answers, m = .resume i answers ∧
          y =
            { relay := (call.resume (answers call.wait) x.relay).1
              calls := x.calls.set i (.after (call.resume (answers call.wait) x.relay))
              heard := x.heard ++ [⟨call.wait, answers call.wait⟩] }) ∨
        (m = .drop i ∧ y = { x with relay := call.drop x.relay, calls := x.calls.set i .dropped })) := by
  cases m with
  | start demand =>
    cases Option.some.inj hmover
    exact absurd (List.getElem?_eq_some_iff.1 hs).1 (Nat.lt_irrefl _)
  | resume j answers =>
    cases Option.some.inj hmover
    obtain ⟨call, since, hcall, hy⟩ := apply_resume h
    exact ⟨call, since, Option.some.inj (hs.symm.trans hcall), .inl ⟨answers, rfl, hy⟩⟩
  | drop j =>
    cases Option.some.inj hmover
    obtain ⟨call, since, hcall, hy⟩ := apply_drop h
    exact ⟨call, since, Option.some.inj (hs.symm.trans hcall), .inr ⟨rfl, hy⟩⟩
  | elapse span => exact absurd hmover (by simp [mover?])

/-! ## Runs -/

/-- A first move is made, and then the rest. -/
theorem run_cons (x : Exchange) (m : Move) (rest : List Move) :
    x.run (m :: rest) = (x.apply m).bind fun y => y.run rest := by
  rw [run]
  cases x.apply m <;> rfl

/-- Moves are made one after the other: some of them, and then the rest. -/
theorem run_append (x : Exchange) (moves more : List Move) :
    x.run (moves ++ more) = (x.run moves).bind fun y => y.run more := by
  induction moves generalizing x with
  | nil => rfl
  | cons first rest ih =>
    rw [List.cons_append, run_cons, run_cons, Option.bind_assoc]
    exact Option.bind_congr fun y _ => ih y

/-- A last move is made where the others lead. -/
theorem run_concat (x : Exchange) (moves : List Move) (m : Move) :
    x.run (moves ++ [m]) = (x.run moves).bind fun y => y.apply m := by
  rw [run_append]
  exact Option.bind_congr fun y _ => (run_cons y m []).trans (Option.bind_fun_some _)

variable {z : Exchange} {moves more : List Move} {m : Move}

theorem run_trans (h : x.run moves = some y) (hmore : y.run more = some z) : x.run (moves ++ more) = some z := by
  rw [run_append, h]
  exact hmore

theorem run_snoc (h : x.run moves = some y) (hlast : y.apply m = some z) : x.run (moves ++ [m]) = some z := by
  rw [run_concat, h]
  exact hlast

theorem exists_of_run_cons (h : x.run (m :: more) = some z) : ∃ y, x.apply m = some y ∧ y.run more = some z :=
  Option.bind_eq_some_iff.1 ((run_cons x m more).symm.trans h)

/-- **The induction on runs**, from the first move to the last. -/
@[elab_as_elim]
theorem run_induct {motive : (moves : List Move) → (y : Exchange) → x.run moves = some y → Prop}
    (nil : motive [] x rfl)
    (snoc : ∀ {moves : List Move} {m : Move} {y z : Exchange} (h : x.run moves = some y)
      (hlast : y.apply m = some z), motive moves y h → motive (moves ++ [m]) z (run_snoc h hlast))
    {moves : List Move} {y : Exchange} (h : x.run moves = some y) : motive moves y h := by
  induction moves using List.reverseRecOn generalizing y with
  | nil =>
    cases Option.some.inj h
    exact nil
  | append_singleton moves m ih =>
    obtain ⟨w, hw, hlast⟩ := Option.bind_eq_some_iff.1 ((run_concat x moves m).symm.trans h)
    exact snoc hw hlast (ih hw)

/-- **The induction on runs that begin with a certain move**, from that move to the last. -/
@[elab_as_elim]
theorem run_cons_induct {first : Move}
    {motive : (later : List Move) → (y : Exchange) → x.run (first :: later) = some y → Prop}
    (head : ∀ {y : Exchange} (h : x.apply first = some y), motive [] y (run_snoc (show x.run [] = some x from rfl) h))
    (snoc : ∀ {later : List Move} {m : Move} {y z : Exchange} (h : x.run (first :: later) = some y)
      (hlast : y.apply m = some z), motive later y h → motive (later ++ [m]) z (run_snoc h hlast))
    {later : List Move} {y : Exchange} (h : x.run (first :: later) = some y) : motive later y h := by
  obtain ⟨w, hfirst, hrest⟩ := exists_of_run_cons h
  have hw : x.run [first] = some w := run_snoc (show x.run [] = some x from rfl) hfirst
  induction hrest using run_induct with
  | nil => exact head hfirst
  | snoc hy hlast ih => exact snoc (run_trans hw hy) hlast (ih (run_trans hw hy))

/-- A call that was dropped never goes on. -/
theorem dropped_of_run (h : x.run moves = some y) (hi : x.calls[i]? = some .dropped) :
    y.calls[i]? = some .dropped := by
  induction h using run_induct with
  | nil => exact hi
  | @snoc moves m y z h hlast ih =>
    refine (calls_of_not_mover hlast fun hmover => ?_).trans ih
    obtain ⟨_, _, hwaits, -⟩ := mover_cases hlast hmover ih
    exact absurd hwaits (by simp)

end Exchange

/-! ## Coming to wait -/

/-- By a move, the call that the move is about comes to a point where it waits. -/
structure ComesToWait (x : Exchange) (m : Move) (i : Nat) (call : Call) (y : Exchange) : Prop where
  applied : x.apply m = some y
  moved : x.mover? m = some i
  waits : ∃ since, y.calls[i]? = some (.waiting call since)

theorem Standing.eq_of_after_eq_waiting {s : Relay × CallProgress} {call : Call} {since : Instant}
    (h : Standing.after s = .waiting call since) : s = (s.1, .waiting call) := by
  obtain ⟨r, p⟩ := s
  cases p with
  | waiting point =>
    simp only [Standing.after, Standing.waiting.injEq] at h
    rw [h.1]
  | finished result => exact absurd h (by simp [Standing.after])

/-- **How a call comes to wait**: when it begins, or when it goes on. -/
theorem ComesToWait.cases {x y : Exchange} {m : Move} {i : Nat} {call : Call} (h : ComesToWait x m i call y) :
    (∃ demand, m = .start demand ∧ demand.start x.relay = (y.relay, .waiting call)) ∨
      ∃ answers before since, m = .resume i answers ∧ x.calls[i]? = some (.waiting before since) ∧
        before.resume (answers before.wait) x.relay = (y.relay, .waiting call) := by
  obtain ⟨happlied, hmoved, since, hwaits⟩ := h
  cases m with
  | start demand =>
    cases Option.some.inj hmoved
    cases Option.some.inj happlied
    rw [List.getElem?_concat_length, Option.some.injEq] at hwaits
    exact .inl ⟨demand, rfl, Standing.eq_of_after_eq_waiting hwaits⟩
  | resume j answers =>
    cases Option.some.inj hmoved
    obtain ⟨before, begun, hbefore, rfl⟩ := Exchange.apply_resume happlied
    rw [List.getElem?_set_self (List.getElem?_eq_some_iff.1 hbefore).1, Option.some.injEq] at hwaits
    exact .inr ⟨answers, before, begun, rfl, hbefore, Standing.eq_of_after_eq_waiting hwaits⟩
  | drop j =>
    cases Option.some.inj hmoved
    obtain ⟨before, begun, hbefore, rfl⟩ := Exchange.apply_drop happlied
    rw [List.getElem?_set_self (List.getElem?_eq_some_iff.1 hbefore).1] at hwaits
    exact absurd hwaits (by simp)
  | elapse span => exact absurd hmoved (by simp [Exchange.mover?])

end QueryRelay
