import Mathlib.Data.List.DropRight
import Mathlib.Data.List.Induction
import QueryRelay.Circuit

/-!
# Histories of a breaker

What a breaker has been told and asked, call by call, with the time of each call.  Statements about
circuits are statements about such histories: which failures of a key were reported since its
circuit was last reset, when the latest of them was, and which questions were answered with yes.

* `BreakerCall`, `Breaker.after` — a call, and the breaker after a list of calls.
* `Breaker.circuit` — the circuit of a key, closed and empty where nothing is kept for it.
* `Breaker.circuit_take` — **a call moves the circuit of its own key, and no other**: what is said
  of all the calls on a breaker need only be looked at one circuit at a time.
* `Breaker.transcript` — the calls with their answers.
-/

namespace QueryRelay

/-! ## Calls -/

/-- What can be told to a breaker, or asked of it, about a key. -/
inductive BreakerAct where
  | failure
  | success
  | forgetting
  /-- Whether a call may pass. -/
  | question
deriving Repr, DecidableEq, Inhabited

/-- Whether the circuit of the key begins anew. -/
def BreakerAct.isReset : BreakerAct → Bool
  | success => true
  | forgetting => true
  | _ => false

/-- A call on a breaker. -/
structure BreakerCall where
  key : String
  act : BreakerAct
  time : Instant
deriving Repr, DecidableEq, Inhabited

namespace BreakerCall

/-- Whether a failure of this key is reported. -/
def isFailureOf (key : String) (c : BreakerCall) : Bool := c.key = key && c.act = .failure

/-- Whether the circuit of this key is reset: by a success, or by being forgotten. -/
def isResetOf (key : String) (c : BreakerCall) : Bool := c.key = key && c.act.isReset

/-- The clock does not go back between one call and a later one. -/
def InOrder (calls : List BreakerCall) : Prop := calls.Pairwise fun a b => a.time ≤ b.time

instance (calls : List BreakerCall) : Decidable (InOrder calls) :=
  inferInstanceAs (Decidable (calls.Pairwise fun a b => a.time ≤ b.time))

theorem inOrder_concat {calls : List BreakerCall} {c : BreakerCall} :
    InOrder (calls ++ [c]) ↔ InOrder calls ∧ ∀ a ∈ calls, a.time ≤ c.time := by
  simp [InOrder, List.pairwise_append]

end BreakerCall

/-! ## One circuit -/

/-- What an act makes of the circuit of its key, and whether it lets a call pass. -/
def Circuit.take (config : CircuitConfig) (act : BreakerAct) (now : Instant) (c : Circuit) : Circuit × Bool :=
  match act with
  | .failure => (c.fail config now, false)
  | .success => (.succeed, false)
  | .forgetting => ({}, false)
  | .question => c.pass config now

/-! ## A breaker -/

namespace Breaker

/-- The circuit of a key.  A key for which nothing is kept has a closed circuit without failures. -/
def circuit (b : Breaker) (key : String) : Circuit := (b.circuits.get? key).getD {}

theorem state_eq (b : Breaker) (key : String) : b.state key = (b.circuit key).state := by
  unfold state circuit
  cases b.circuits.get? key <;> rfl

/-- Takes a call: the breaker after it, and whether it lets a call pass. -/
def take (b : Breaker) (c : BreakerCall) : Breaker × Bool :=
  match c.act with
  | .failure => (b.recordFailure c.time c.key, false)
  | .success => (b.recordSuccess c.key, false)
  | .forgetting => (b.forget c.key, false)
  | .question => b.canExecute c.time c.key

@[simp] theorem circuit_recordFailure (b : Breaker) (now : Instant) (key other : String) :
    (b.recordFailure now key).circuit other =
      if other = key then (b.circuit key).fail b.config now else b.circuit other := by
  simp only [recordFailure, circuit, Table.get?_insert]
  split <;> rfl

/-- A success for a key without a circuit makes none, and a circuit that begins anew is the same. -/
@[simp] theorem circuit_recordSuccess (b : Breaker) (key other : String) :
    (b.recordSuccess key).circuit other = if other = key then {} else b.circuit other := by
  simp only [recordSuccess, circuit, Table.get?_modify]
  split
  · cases b.circuits.get? key <;> rfl
  · rfl

@[simp] theorem circuit_forget (b : Breaker) (key other : String) :
    (b.forget key).circuit other = if other = key then {} else b.circuit other := by
  simp only [forget, circuit, Table.get?_erase]
  split <;> rfl

/-- Asking about a key without a circuit is asking a closed one. -/
@[simp] theorem circuit_canExecute (b : Breaker) (now : Instant) (key other : String) :
    (b.canExecute now key).1.circuit other =
      if other = key then ((b.circuit key).pass b.config now).1 else b.circuit other := by
  unfold canExecute circuit
  cases hget : b.circuits.get? key with
  | none =>
    dsimp only
    split
    · rename_i heq
      rw [heq, hget]
      rfl
    · rfl
  | some c =>
    simp only [Table.get?_insert]
    split <;> rfl

theorem canExecute_snd (b : Breaker) (now : Instant) (key : String) :
    (b.canExecute now key).2 = ((b.circuit key).pass b.config now).2 := by
  unfold canExecute circuit
  cases b.circuits.get? key <;> rfl

@[simp] theorem new_config (config : CircuitConfig) : (new config).config = config := rfl

@[simp] theorem take_config (b : Breaker) (c : BreakerCall) : (b.take c).1.config = b.config := by
  obtain ⟨key, act, time⟩ := c
  cases act with
  | question =>
    simp only [take, canExecute]
    split <;> rfl
  | _ => rfl

/-- **A call moves the circuit of its own key, and no other.** -/
theorem circuit_take (b : Breaker) (c : BreakerCall) (key : String) :
    (b.take c).1.circuit key =
      if key = c.key then ((b.circuit key).take b.config c.act c.time).1 else b.circuit key := by
  obtain ⟨called, act, time⟩ := c
  by_cases hkey : key = called
  · subst hkey
    cases act <;> simp [take, Circuit.take, Circuit.succeed]
  · cases act <;> simp [take, hkey]

/-- A call is let through as the circuit of its key says. -/
theorem take_snd (b : Breaker) (c : BreakerCall) :
    (b.take c).2 = ((b.circuit c.key).take b.config c.act c.time).2 := by
  obtain ⟨called, act, time⟩ := c
  cases act with
  | question => exact b.canExecute_snd time called
  | _ => rfl

/-! ### Many calls -/

/-- The breaker after some calls. -/
def after (b : Breaker) (calls : List BreakerCall) : Breaker := calls.foldl (fun b c => (b.take c).1) b

theorem after_append (b : Breaker) (calls more : List BreakerCall) :
    b.after (calls ++ more) = (b.after calls).after more :=
  List.foldl_append

theorem after_concat (b : Breaker) (calls : List BreakerCall) (c : BreakerCall) :
    b.after (calls ++ [c]) = ((b.after calls).take c).1 :=
  b.after_append calls [c]

@[simp] theorem after_config (b : Breaker) (calls : List BreakerCall) : (b.after calls).config = b.config := by
  induction calls using List.reverseRecOn with
  | nil => rfl
  | append_singleton calls c ih => rw [after_concat, take_config, ih]

/-- The circuit of a key after one more call. -/
theorem circuit_after_concat (b : Breaker) (calls : List BreakerCall) (c : BreakerCall) (key : String) :
    (b.after (calls ++ [c])).circuit key =
      if key = c.key then (((b.after calls).circuit key).take b.config c.act c.time).1
      else (b.after calls).circuit key := by
  rw [after_concat, circuit_take, after_config]

/-- The calls, each with whether it let a call pass. -/
def transcript (b : Breaker) : List BreakerCall → List (BreakerCall × Bool)
  | [] => []
  | c :: rest => (c, (b.take c).2) :: (b.take c).1.transcript rest

theorem transcript_append (b : Breaker) (calls more : List BreakerCall) :
    b.transcript (calls ++ more) = b.transcript calls ++ (b.after calls).transcript more := by
  induction calls generalizing b with
  | nil => rfl
  | cons c rest ih =>
    rw [List.cons_append, transcript, transcript, ih]
    rfl

theorem transcript_concat (b : Breaker) (calls : List BreakerCall) (c : BreakerCall) :
    b.transcript (calls ++ [c]) = b.transcript calls ++ [(c, ((b.after calls).take c).2)] :=
  b.transcript_append calls [c]

theorem map_fst_transcript (b : Breaker) (calls : List BreakerCall) : (b.transcript calls).map Prod.fst = calls := by
  induction calls generalizing b with
  | nil => rfl
  | cons c rest ih => rw [transcript, List.map_cons, ih]

end Breaker

/-! ## What a history says of a key -/

/-- When failures of a key were reported. -/
def failureTimes (key : String) (calls : List BreakerCall) : List Instant :=
  (calls.filter (BreakerCall.isFailureOf key)).map BreakerCall.time

theorem failureTimes_append (key : String) (calls more : List BreakerCall) :
    failureTimes key (calls ++ more) = failureTimes key calls ++ failureTimes key more := by
  simp [failureTimes]

theorem failureTimes_singleton (key : String) (c : BreakerCall) :
    failureTimes key [c] = if c.isFailureOf key then [c.time] else [] := by
  cases h : c.isFailureOf key <;> simp [failureTimes, h]

theorem exists_of_mem_failureTimes {key : String} {calls : List BreakerCall} {t : Instant}
    (h : t ∈ failureTimes key calls) : ∃ c ∈ calls, c.time = t := by
  obtain ⟨c, hc, ht⟩ := List.mem_map.1 h
  exact ⟨c, (List.mem_filter.1 hc).1, ht⟩

end QueryRelay
