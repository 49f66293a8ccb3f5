import QueryRelay.Proofs.Exchange.Step
import QueryRelay.Proofs.Transaction.Side

/-!
# What one call does in a run

In a run many calls make their moves in some order.  The *passages* of a call are its own moves, each with the
exchanges before and after it; what the call heard and what it asked the engine for is read off them.  The moves of a
call, and the time that passes, make a run of their own, in which nobody else moves.

* `Passage`, `Exchange.passages` — the own moves of a call.
* `Exchange.heardBy`, `Exchange.requestsOf`, `Exchange.writtenBy` — what a call heard, what it asked for, and what it
  wrote to the log; `heardBy_of_mover`, `writtenBy_of_mover` — what a move of its own adds to that.
* `Exchange.only` — the moves of one call, and the passing of time, without those of the others.
-/

namespace QueryRelay

/-- A move, by the exchanges before and after it. -/
structure Passage where
  before : Exchange
  after : Exchange

namespace Passage

/-- What was written to the log in a passage. -/
def written (p : Passage) : List Happening := p.after.relay.log.drop p.before.relay.log.length

/-- What was heard in a passage. -/
def heard (p : Passage) : List Heard := p.after.heard.drop p.before.heard.length

/-- What the engine was asked in a passage. -/
def requests (p : Passage) : List Request := p.after.relay.requests.drop p.before.relay.requests.length

end Passage

/-- The same move, made by a call at another place. -/
def Move.atPlace (place : Nat) : Move → Move
  | start demand => .start demand
  | resume _ answers => .resume place answers
  | drop _ => .drop place
  | elapse span => .elapse span

namespace Exchange

/-- The own moves of a call among some moves. -/
def passages (x : Exchange) (i : Nat) : List Move → List Passage
  | [] => []
  | m :: rest =>
    match x.apply m with
    | some y => (if x.mover? m = some i then [⟨x, y⟩] else []) ++ y.passages i rest
    | none => []

/-- What a call hears in some moves. -/
def heardBy (x : Exchange) (i : Nat) (moves : List Move) : List Heard := (x.passages i moves).flatMap Passage.heard

/-- What a call asks the engine for in some moves. -/
def requestsOf (x : Exchange) (i : Nat) (moves : List Move) : List Request :=
  (x.passages i moves).flatMap Passage.requests

/-- What a call writes to the log in some moves. -/
def writtenBy (x : Exchange) (i : Nat) (moves : List Move) : List Happening :=
  (x.passages i moves).flatMap Passage.written

/-- The moves of one call, which then has another place, and the passing of time. -/
def only (x : Exchange) (i place : Nat) : List Move → List Move
  | [] => []
  | m :: rest =>
    match x.apply m with
    | some y => (if x.mover? m = some i ∨ x.mover? m = none then [m.atPlace place] else []) ++ y.only i place rest
    | none => []

variable {x y z : Exchange} {i place : Nat} {moves : List Move} {m : Move}

/-- One more move. -/
theorem passages_concat (hrun : x.run moves = some y) (hlast : y.apply m = some z) :
    x.passages i (moves ++ [m]) = x.passages i moves ++ if y.mover? m = some i then [⟨y, z⟩] else [] := by
  induction moves generalizing x with
  | nil =>
    cases Option.some.inj hrun
    simp [passages, hlast]
  | cons first rest ih =>
    obtain ⟨w, hfirst, hrest⟩ := exists_of_run_cons hrun
    simp only [List.cons_append, passages, hfirst]
    rw [ih hrest, List.append_assoc]

/-- One more move. -/
theorem only_concat (hrun : x.run moves = some y) (hlast : y.apply m = some z) :
    x.only i place (moves ++ [m]) =
      x.only i place moves ++ if y.mover? m = some i ∨ y.mover? m = none then [m.atPlace place] else [] := by
  induction moves generalizing x with
  | nil =>
    cases Option.some.inj hrun
    simp [only, hlast]
  | cons first rest ih =>
    obtain ⟨w, hfirst, hrest⟩ := exists_of_run_cons hrun
    simp only [List.cons_append, only, hfirst]
    rw [ih hrest, List.append_assoc]

theorem heardBy_concat (hrun : x.run moves = some y) (hlast : y.apply m = some z) :
    x.heardBy i (moves ++ [m]) =
      x.heardBy i moves ++ if y.mover? m = some i then z.heard.drop y.heard.length else [] := by
  rw [heardBy, passages_concat hrun hlast, List.flatMap_append, ← heardBy]
  split
  · rw [List.flatMap_singleton, Passage.heard]
  · rw [List.flatMap_nil]

theorem requestsOf_concat (hrun : x.run moves = some y) (hlast : y.apply m = some z) :
    x.requestsOf i (moves ++ [m]) =
      x.requestsOf i moves ++
        if y.mover? m = some i then z.relay.requests.drop y.relay.requests.length else [] := by
  rw [requestsOf, passages_concat hrun hlast, List.flatMap_append, ← requestsOf]
  split
  · rw [List.flatMap_singleton, Passage.requests]
  · rw [List.flatMap_nil]

theorem writtenBy_concat (hrun : x.run moves = some y) (hlast : y.apply m = some z) :
    x.writtenBy i (moves ++ [m]) =
      x.writtenBy i moves ++ if y.mover? m = some i then z.relay.log.drop y.relay.log.length else [] := by
  rw [writtenBy, passages_concat hrun hlast, List.flatMap_append, ← writtenBy]
  split
  · rw [List.flatMap_singleton, Passage.written]
  · rw [List.flatMap_nil]

/-! ### What one more move adds -/

/-- What the call heard in a move of its own. -/
theorem heardBy_of_mover (hrun : x.run moves = some y) (hlast : y.apply m = some z) (hmover : y.mover? m = some i)
    {told : List Heard} (htold : z.heard = y.heard ++ told) :
    x.heardBy i (moves ++ [m]) = x.heardBy i moves ++ told := by
  rw [heardBy_concat hrun hlast, if_pos hmover, htold, List.drop_left]

theorem heardBy_of_not_mover (hrun : x.run moves = some y) (hlast : y.apply m = some z)
    (hmover : y.mover? m ≠ some i) : x.heardBy i (moves ++ [m]) = x.heardBy i moves := by
  rw [heardBy_concat hrun hlast, if_neg hmover, List.append_nil]

/-- What the call wrote in a move of its own. -/
theorem writtenBy_of_mover (hrun : x.run moves = some y) (hlast : y.apply m = some z) (hmover : y.mover? m = some i)
    {written : List Happening} (hlog : z.relay.log = y.relay.log ++ written) :
    x.writtenBy i (moves ++ [m]) = x.writtenBy i moves ++ written := by
  rw [writtenBy_concat hrun hlast, if_pos hmover, hlog, List.drop_left]

theorem writtenBy_of_not_mover (hrun : x.run moves = some y) (hlast : y.apply m = some z)
    (hmover : y.mover? m ≠ some i) : x.writtenBy i (moves ++ [m]) = x.writtenBy i moves := by
  rw [writtenBy_concat hrun hlast, if_neg hmover, List.append_nil]

/-- A call whose wait is over can go on. -/
theorem apply_resume_of_waiting {call : Call} {since : Instant} (hcall : x.calls[i]? = some (.waiting call since))
    (hover : call.wait.isOver since x.relay = true) (answers : Answers) :
    x.apply (.resume i answers) = some
      { relay := (call.resume (answers call.wait) x.relay).1
        calls := x.calls.set i (.after (call.resume (answers call.wait) x.relay))
        heard := x.heard ++ [⟨call.wait, answers call.wait⟩] } := by
  simp only [apply, hcall]
  exact if_pos hover

/-- A call that waits can be dropped, unless it is a reaper. -/
theorem apply_drop_of_waiting {call : Call} {since : Instant} (hcall : x.calls[i]? = some (.waiting call since))
    (hreaper : call.isReaper = false) :
    x.apply (.drop i) = some { x with relay := call.drop x.relay, calls := x.calls.set i .dropped } := by
  simp only [apply, hcall, hreaper]
  rfl

/-- No call is forgotten in a run. -/
theorem length_calls_le_of_run (h : x.run moves = some y) : x.calls.length ≤ y.calls.length := by
  induction h using run_induct with
  | nil => exact Nat.le_refl _
  | snoc _ hlast ih => exact Nat.le_trans ih (length_calls_le hlast)

end Exchange

end QueryRelay
