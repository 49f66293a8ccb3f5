import Mathlib.Data.List.DropRight
import Mathlib.Data.List.Forall2
import QueryRelay.Proofs.Metric.Series
import QueryRelay.Text.Ascending

/-!
# Which series a call belongs to

A series is a name with labels, and labels are the same if one list of them is a rearrangement of the other.  This
module says what a sink shows after any calls and resets, told from the calls alone.

* `SeriesKey.of_eq_iff` — labels in ascending order are a normal form: series neither merge nor split.
* `SeriesStore.Shows` — what is shown of some calls: sums by series and by name, observations by name, and last values.
* `SeriesStore.Rearranged` — the same calls in another order, their labels in another order as well.
* `sink_shows_calls_since_reset` — **what a sink shows** is what it was told since it was last emptied, whatever the
  order of increments and observations and of the labels in them.
-/

namespace QueryRelay

/-! ## Labels in ascending order -/

namespace Labels

theorem before_iff {a b : String × String} : before a b = true ↔ a.1 < b.1 ∨ a.1 = b.1 ∧ (a.2 < b.2 ∨ a.2 = b.2) := by
  simp only [before, Bool.or_eq_true, Bool.and_eq_true, decide_eq_true_eq]

theorem before_trans (a b c : String × String) (hab : before a b = true) (hbc : before b c = true) :
    before a c = true := by
  rw [before_iff] at hab hbc ⊢
  rcases hab with hlt | ⟨heq, hvalue⟩
  · rcases hbc with hlt' | ⟨heq', -⟩
    · exact Or.inl (String.lt_trans hlt hlt')
    · exact Or.inl (heq' ▸ hlt)
  · rcases hbc with hlt' | ⟨heq', hvalue'⟩
    · exact Or.inl (heq ▸ hlt')
    · refine Or.inr ⟨heq.trans heq', ?_⟩
      rcases hvalue with hlt | hsame
      · exact Or.inl (hvalue'.elim (String.lt_trans hlt) fun hsame' => hsame' ▸ hlt)
      · exact hsame ▸ hvalue'

theorem before_total (a b : String × String) : (before a b || before b a) = true := by
  rw [Bool.or_eq_true, before_iff, before_iff]
  by_cases hname : a.1 = b.1
  · by_cases hvalue : a.2 = b.2
    · exact Or.inl (Or.inr ⟨hname, Or.inr hvalue⟩)
    · by_cases hlt : a.2 < b.2
      · exact Or.inl (Or.inr ⟨hname, Or.inl hlt⟩)
      · exact Or.inr (Or.inr ⟨hname.symm, Or.inl (text_lt_of_not_lt hlt hvalue)⟩)
  · by_cases hlt : a.1 < b.1
    · exact Or.inl (Or.inl hlt)
    · exact Or.inr (Or.inl (text_lt_of_not_lt hlt hname))

theorem before_antisymm {a b : String × String} (hab : before a b = true) (hba : before b a = true) : a = b := by
  rw [before_iff] at hab hba
  rcases hab with hlt | ⟨hname, hvalue⟩
  · rcases hba with hlt' | ⟨hname', -⟩
    · exact absurd hlt' (String.lt_asymm hlt)
    · exact absurd (hname' ▸ hlt) (String.lt_irrefl _)
  · rcases hba with hlt' | ⟨-, hvalue'⟩
    · exact absurd (hname ▸ hlt') (String.lt_irrefl _)
    · refine Prod.ext hname (hvalue.elim (fun hlt => ?_) id)
      exact hvalue'.elim (fun hlt' => absurd hlt' (String.lt_asymm hlt)) Eq.symm

/-- Ascending order is a normal form of labels up to rearrangement. -/
theorem mergeSort_eq_iff {labels other : Labels} :
    labels.mergeSort before = other.mergeSort before ↔ labels.Perm other := by
  constructor
  · intro h
    exact (List.mergeSort_perm labels before).symm.trans (h ▸ List.mergeSort_perm other before)
  · intro h
    have hperm := (List.mergeSort_perm labels before).trans (h.trans (List.mergeSort_perm other before).symm)
    exact hperm.eq_of_pairwise (fun a b _ _ => before_antisymm)
      (List.pairwise_mergeSort before_trans before_total labels)
      (List.pairwise_mergeSort before_trans before_total other)

end Labels

/-- **Series neither merge nor split**: calls belong to one series exactly if they have one name, and the labels of the
one are a rearrangement of the labels of the other. -/
theorem SeriesKey.of_eq_iff {name other : String} {labels others : Labels} :
    SeriesKey.of name labels = SeriesKey.of other others ↔ name = other ∧ labels.Perm others := by
  rw [SeriesKey.of, SeriesKey.of, SeriesKey.mk.injEq, Labels.mergeSort_eq_iff]

namespace SeriesStore

/-! ## What some calls come to -/

/-- The calls of a verb for some series. -/
def callsOf (verb : EmissionVerb) (among : SeriesKey → Bool) (calls : List Emission) : List Emission :=
  calls.filter fun e => e.verb = verb && among e.key

section CallsOf

variable {verb : EmissionVerb} {among : SeriesKey → Bool} {calls : List Emission} {e : Emission}

theorem callsOf_cons : callsOf verb among (e :: calls) =
    if e.verb = verb ∧ among e.key = true then e :: callsOf verb among calls else callsOf verb among calls := by
  simp only [callsOf, List.filter_cons, Bool.and_eq_true, decide_eq_true_eq]

theorem callsOf_concat_of_pos (hverb : e.verb = verb) (hamong : among e.key = true) :
    callsOf verb among (calls ++ [e]) = callsOf verb among calls ++ [e] := by
  simp [callsOf, hverb, hamong]

theorem callsOf_concat_of_ne (hverb : e.verb ≠ verb) :
    callsOf verb among (calls ++ [e]) = callsOf verb among calls := by
  simp [callsOf, hverb]

theorem callsOf_concat_of_neg (hamong : among e.key = false) :
    callsOf verb among (calls ++ [e]) = callsOf verb among calls := by
  simp [callsOf, hamong]

theorem added_eq_sum (calls : List Emission) (among : SeriesKey → Bool) :
    added calls among = ((callsOf .increment among calls).map fun e => e.value.wholePart).sum := by
  induction calls using List.reverseRecOn with
  | nil => rfl
  | append_singleton calls e ih =>
    rw [added_append, ih]
    by_cases hverb : e.verb = .increment
    · rw [added_singleton hverb]
      cases hamong : among e.key with
      | true => rw [callsOf_concat_of_pos hverb hamong, if_pos rfl]; simp
      | false => rw [callsOf_concat_of_neg hamong, if_neg Bool.false_ne_true, Nat.add_zero]
    · rw [added_singleton_of_ne hverb, callsOf_concat_of_ne hverb, Nat.add_zero]

end CallsOf

/-! ## Observations -/

/-- The observations of some series. -/
def observedAmong (table : Table SeriesKey (List Binary64)) (among : SeriesKey → Bool) : List Binary64 :=
  ((table.entries.filter fun entry => among entry.1).map Prod.snd).flatten

theorem observedAmong_cons_perm {table : Table SeriesKey (List Binary64)} {among : SeriesKey → Bool}
    {key : SeriesKey} {values : List Binary64} {rest : List (SeriesKey × List Binary64)}
    (h : table.entries.Perm ((key, values) :: rest)) :
    (observedAmong table among).Perm ((if among key then values else []) ++
      ((rest.filter fun entry => among entry.1).map Prod.snd).flatten) := by
  refine ((h.filter _).map Prod.snd).flatten.trans ?_
  cases hamong : among key <;> simp [hamong]

/-- What is observed falls into the part of one series and the rest. -/
theorem observedAmong_perm (table : Table SeriesKey (List Binary64)) (key : SeriesKey) (among : SeriesKey → Bool) :
    (observedAmong table among).Perm
      ((if among key then (table.get? key).getD [] else []) ++ observedAmong (table.erase key) among) := by
  cases hget : table.get? key with
  | some values => exact observedAmong_cons_perm (Table.entries_perm_of_get? hget)
  | none =>
    rw [Option.getD_none, ite_self, List.nil_append, observedAmong, observedAmong,
      Table.entries_erase_of_get?_none hget]

/-- An observation more is one more of what is observed under its series. -/
theorem observedAmong_observe (table : Table SeriesKey (List Binary64)) (key : SeriesKey) (value : Binary64)
    (among : SeriesKey → Bool) :
    (observedAmong (table.insert key ((table.get? key).getD [] ++ [value])) among).Perm
      (observedAmong table among ++ if among key then [value] else []) := by
  refine (observedAmong_cons_perm (table.entries_insert_perm key _)).trans ?_
  refine List.Perm.trans ?_ ((observedAmong_perm table key among).symm.append_right _)
  cases among key with
  | false => simp [observedAmong]
  | true =>
    rw [if_pos rfl, if_pos rfl, if_pos rfl, List.append_assoc, List.append_assoc]
    exact List.perm_append_comm.append_left _

theorem observedAmong_ofCalls (calls : List Emission) (among : SeriesKey → Bool) :
    (observedAmong (ofCalls calls).observations among).Perm ((callsOf .observe among calls).map Emission.value) := by
  induction calls using List.reverseRecOn with
  | nil => exact .refl _
  | append_singleton calls e ih =>
    rw [ofCalls_concat]
    by_cases hverb : e.verb = .observe
    · have hobservations : ((ofCalls calls).record e).observations = (ofCalls calls).observations.insert e.key
          (((ofCalls calls).observations.get? e.key).getD [] ++ [e.value]) := by
        simp only [record, hverb]
        rfl
      rw [hobservations]
      refine (observedAmong_observe _ _ _ _).trans ?_
      cases hamong : among e.key with
      | true =>
        rw [callsOf_concat_of_pos hverb hamong, List.map_append]
        exact ih.append_right _
      | false =>
        rw [callsOf_concat_of_neg hamong, if_neg Bool.false_ne_true, List.append_nil]
        exact ih
    · have hobservations : ((ofCalls calls).record e).observations = (ofCalls calls).observations := by
        rw [record]
        split
        case h_3 hobserve => exact absurd hobserve hverb
        all_goals rfl
      rw [hobservations, callsOf_concat_of_ne hverb]
      exact ih

/-! ## Gauges -/

theorem get?_gauges_ofCalls (calls : List Emission) (key : SeriesKey) :
    (ofCalls calls).gauges.get? key = ((callsOf .set (fun k => k = key) calls).map Emission.value).getLast? := by
  induction calls using List.reverseRecOn with
  | nil => rfl
  | append_singleton calls e ih =>
    rw [ofCalls_concat]
    by_cases hverb : e.verb = .set
    · have hgauges : ((ofCalls calls).record e).gauges = (ofCalls calls).gauges.insert e.key e.value := by
        simp only [record, hverb]
        rfl
      rw [hgauges, Table.get?_insert]
      by_cases hkey : key = e.key
      · rw [if_pos hkey, callsOf_concat_of_pos hverb (decide_eq_true hkey.symm), List.map_append]
        simp
      · have hamong : decide (e.key = key) = false := decide_eq_false fun heq => hkey heq.symm
        rw [if_neg hkey, callsOf_concat_of_neg hamong, ih]
    · have hgauges : ((ofCalls calls).record e).gauges = (ofCalls calls).gauges := by
        rw [record]
        split
        case h_2 hset => exact absurd hset hverb
        all_goals rfl
      rw [hgauges, callsOf_concat_of_ne hverb]
      exact ih

/-! ## Rearranged calls -/

/-- The same call, its labels in another order perhaps. -/
structure SameCall (e other : Emission) : Prop where
  verb : e.verb = other.verb
  name : e.name = other.name
  value : e.value = other.value
  labels : e.labels.Perm other.labels

/-- The same calls in another order, each with its labels in another order perhaps. -/
def Rearranged (calls other : List Emission) : Prop :=
  ∃ middle, calls.Perm middle ∧ List.Forall₂ SameCall middle other

theorem SameCall.key {e other : Emission} (h : SameCall e other) : e.key = other.key :=
  SeriesKey.of_eq_iff.2 ⟨h.name, h.labels⟩

theorem map_callsOf_congr {α : Type} {verb : EmissionVerb} {among : SeriesKey → Bool} (value : Emission → α)
    (hvalue : ∀ e other, SameCall e other → value e = value other) {calls other : List Emission}
    (h : List.Forall₂ SameCall calls other) :
    (callsOf verb among calls).map value = (callsOf verb among other).map value := by
  induction h with
  | nil => rfl
  | @cons e e' calls other hfirst _ ih =>
    rw [callsOf_cons, callsOf_cons, hfirst.verb, hfirst.key]
    split
    · rw [List.map_cons, List.map_cons, hvalue e e' hfirst]
      exact congrArg _ ih
    · exact ih

namespace Rearranged

variable {calls other : List Emission}

/-- What calls of a verb come to, for some series, is the same up to its order. -/
theorem map_callsOf_perm {α : Type} (h : Rearranged calls other) (verb : EmissionVerb) (among : SeriesKey → Bool)
    (value : Emission → α) (hvalue : ∀ e other, SameCall e other → value e = value other) :
    ((callsOf verb among calls).map value).Perm ((callsOf verb among other).map value) := by
  obtain ⟨middle, hperm, hsame⟩ := h
  rw [← map_callsOf_congr value hvalue hsame]
  exact (hperm.filter _).map value

theorem added_eq (h : Rearranged calls other) (among : SeriesKey → Bool) : added calls among = added other among := by
  rw [added_eq_sum, added_eq_sum]
  refine (h.map_callsOf_perm .increment among _ fun e other hsame => ?_).sum_nat
  rw [hsame.value]

theorem exact (h : Rearranged calls other) (hexact : Exact calls) : Exact other where
  whole := by
    intro e he hverb
    have hmem : e.value ∈ (callsOf .increment (fun _ => true) other).map Emission.value :=
      List.mem_map_of_mem (List.mem_filter.2 ⟨he, by simp [hverb]⟩)
    have hperm := h.map_callsOf_perm .increment (fun _ => true) Emission.value fun _ _ hsame => hsame.value
    obtain ⟨same, hsame, hvalue⟩ := List.mem_map.1 (hperm.mem_iff.2 hmem)
    obtain ⟨hcalls, hsameVerb⟩ := List.mem_filter.1 hsame
    rw [← hvalue]
    exact hexact.whole same hcalls (by simpa using hsameVerb)
  bound := by
    intro name
    rw [← h.added_eq]
    exact hexact.bound name

end Rearranged

/-! ## Calls and resets -/

/-- What is done to a store: it takes in a call, or it is emptied. -/
inductive StoreAct where
  | call (e : Emission)
  | reset

/-- The call that is taken in, if there is one. -/
def StoreAct.call? : StoreAct → Option Emission
  | call e => some e
  | reset => none

/-- The store after one thing done to it. -/
def act (store : SeriesStore) : StoreAct → SeriesStore
  | .call e => store.record e
  | .reset => empty

/-- An empty store after all that was done to it. -/
def afterActs (acts : List StoreAct) : SeriesStore := acts.foldl act empty

/-- The calls since the last reset. -/
def callsSinceReset (acts : List StoreAct) : List Emission :=
  (acts.rtakeWhile fun act => act.call?.isSome).filterMap StoreAct.call?

theorem callsSinceReset_concat_call (acts : List StoreAct) (e : Emission) :
    callsSinceReset (acts ++ [.call e]) = callsSinceReset acts ++ [e] := by
  have hkept : (StoreAct.call e).call?.isSome = true := rfl
  rw [callsSinceReset, List.rtakeWhile_concat, if_pos hkept, List.filterMap_append]
  rfl

theorem callsSinceReset_concat_reset (acts : List StoreAct) : callsSinceReset (acts ++ [.reset]) = [] := by
  have hdropped : ¬StoreAct.reset.call?.isSome = true := Bool.false_ne_true
  rw [callsSinceReset, List.rtakeWhile_concat, if_neg hdropped]
  rfl

/-- A store keeps the calls since the last reset, and nothing else. -/
theorem afterActs_eq_ofCalls (acts : List StoreAct) : afterActs acts = ofCalls (callsSinceReset acts) := by
  induction acts using List.reverseRecOn with
  | nil => rfl
  | append_singleton acts last ih =>
    rw [afterActs, List.foldl_append]
    rw [afterActs] at ih
    rw [ih]
    cases last with
    | call e => rw [callsSinceReset_concat_call, ofCalls_concat]; rfl
    | reset => rw [callsSinceReset_concat_reset]; rfl

/-! ## What a sink shows -/

/-- What a store shows of some calls. -/
structure Shows (store : SeriesStore) (calls : List Emission) : Prop where
  /-- For a name with labels: the sum of what was added under that name with these labels in some order. -/
  counterWith : ∀ name labels, store.counterWith name labels = .exactly
    ((calls.filter fun e => e.verb = .increment ∧ e.name = name ∧ e.labels.Perm labels).map
      fun e => e.value.wholePart).sum
  /-- For a name: the sum of what was added under it with any labels. -/
  counter : ∀ name, store.counter name = .exactly
    ((calls.filter fun e => e.verb = .increment ∧ e.name = name).map fun e => e.value.wholePart).sum
  /-- It does not matter in which order the series of a name are added up. -/
  anyOrder : ∀ name (values : List Binary64), values.Perm (named store.counters name) →
    values.foldl (· + ·) .zero = store.counter name
  /-- All that was observed under a name, each value as often as it was. -/
  observed : ∀ name, (store.observed name).Perm
    ((calls.filter fun e => e.verb = .observe ∧ e.name = name).map Emission.value)
  /-- The last value that was set under a name without labels. -/
  gauge : ∀ name, store.gauge? name =
    ((calls.filter fun e => e.verb = .set ∧ e.name = name ∧ e.labels = []).map Emission.value).getLast?

theorem callsOf_eq_filter {verb : EmissionVerb} {among : SeriesKey → Bool} {p : Emission → Prop} [DecidablePred p]
    (h : ∀ e, among e.key = true ↔ p e) (calls : List Emission) :
    callsOf verb among calls = calls.filter fun e => e.verb = verb ∧ p e := by
  refine List.filter_congr fun e _ => ?_
  rw [Bool.eq_iff_iff, Bool.and_eq_true, decide_eq_true_eq, decide_eq_true_eq, h]

/-- The calls of one series. -/
theorem callsOf_series (verb : EmissionVerb) (name : String) (labels : Labels) (calls : List Emission) :
    callsOf verb (fun key => key = SeriesKey.of name labels) calls =
      calls.filter fun e => e.verb = verb ∧ e.name = name ∧ e.labels.Perm labels :=
  callsOf_eq_filter (fun e => by rw [decide_eq_true_eq, Emission.key, SeriesKey.of_eq_iff]) calls

/-- The calls under one name. -/
theorem callsOf_name (verb : EmissionVerb) (name : String) (calls : List Emission) :
    callsOf verb (fun key => key.name = name) calls = calls.filter fun e => e.verb = verb ∧ e.name = name :=
  callsOf_eq_filter (fun e => by rw [decide_eq_true_eq, Emission.key, SeriesKey.of]) calls

theorem shows_ofCalls {calls : List Emission} (h : Exact calls) : (ofCalls calls).Shows calls where
  counterWith name labels := by rw [counterWith_ofCalls h, added_eq_sum, callsOf_series]
  counter name := by rw [counter_ofCalls h, added_eq_sum, callsOf_name]
  anyOrder name values hvalues := by rw [foldl_named_ofCalls h name hvalues, counter_ofCalls h]
  observed name := by
    rw [← callsOf_name]
    exact observedAmong_ofCalls calls fun key => key.name = name
  gauge name := by
    rw [gauge?, get?_gauges_ofCalls, callsOf_series]
    simp only [List.perm_nil]

end SeriesStore

open SeriesStore in
/-- **A sink shows the calls since it was last emptied.**  A counter is the sum of what was added under its name, and
under a list of labels up to their order; observations are all that was observed, and a gauge has the last value that
was set without labels.  Counters and observations are the same if the calls since the last reset came in another order
and their labels in another order, and what came before the last reset does not matter.  The amounts are whole, and
small enough to be added without rounding. -/
theorem sink_shows_calls_since_reset (acts : List StoreAct) (h : Exact (callsSinceReset acts)) :
    (afterActs acts).Shows (callsSinceReset acts) ∧
      ∀ other : List StoreAct, Rearranged (callsSinceReset acts) (callsSinceReset other) → ∀ name : String,
        (afterActs other).counter name = (afterActs acts).counter name ∧
          (∀ labels others : Labels, labels.Perm others →
            (afterActs other).counterWith name others = (afterActs acts).counterWith name labels) ∧
          ((afterActs other).observed name).Perm ((afterActs acts).observed name) := by
  rw [afterActs_eq_ofCalls acts]
  refine ⟨shows_ofCalls h, fun other hother name => ?_⟩
  have hexact := hother.exact h
  rw [afterActs_eq_ofCalls other]
  refine ⟨?counter, fun labels others hlabels => ?counterWith, ?observed⟩
  case counter => rw [counter_ofCalls h, counter_ofCalls hexact, hother.added_eq]
  case counterWith =>
    have hkey : SeriesKey.of name others = SeriesKey.of name labels := SeriesKey.of_eq_iff.2 ⟨rfl, hlabels.symm⟩
    rw [counterWith_ofCalls h, counterWith_ofCalls hexact, hother.added_eq, hkey]
  case observed =>
    have hcalls := hother.map_callsOf_perm .observe (fun key => key.name = name) Emission.value
      fun _ _ hsame => hsame.value
    exact (observedAmong_ofCalls _ _).trans (hcalls.symm.trans (observedAmong_ofCalls _ _).symm)

/-- A counter with two series, of which one is named with its labels in both orders, with a gauge and observations,
after a reset. -/
def exampleActs : List SeriesStore.StoreAct :=
  [.call ⟨.increment, "retries", .exactly 9, [("kind", "remote"), ("database", "graph")]⟩, .reset,
    .call ⟨.increment, "retries", .exactly 1, [("kind", "remote"), ("database", "graph")]⟩,
    .call ⟨.set, "active", .exactly 3, []⟩,
    .call ⟨.increment, "retries", .exactly 2, [("database", "graph"), ("kind", "remote")]⟩,
    .call ⟨.observe, "delay", .exactly 5, [("kind", "remote")]⟩,
    .call ⟨.increment, "retries", .exactly 4, [("kind", "remote"), ("database", "graph"), ("kind", "remote")]⟩,
    .call ⟨.set, "active", .exactly 2, []⟩,
    .call ⟨.set, "active", .exactly 8, [("database", "graph")]⟩,
    .call ⟨.observe, "delay", .exactly 5, []⟩]

/-- The calls after the reset from the last to the first, with their labels from the last to the first. -/
def backwardActs : List SeriesStore.StoreAct :=
  (SeriesStore.callsSinceReset exampleActs).reverse.map fun e => .call { e with labels := e.labels.reverse }

/-- A label that is repeated makes a series of its own, and both count for the name. -/
theorem sink_shows_calls_since_reset_of_exampleActs :
    SeriesStore.Exact (SeriesStore.callsSinceReset exampleActs) ∧
      (SeriesStore.afterActs exampleActs).counterWith "retries" [("kind", "remote"), ("database", "graph")] =
        .exactly 3 ∧
      (SeriesStore.afterActs exampleActs).counter "retries" = .exactly 7 ∧
      ((SeriesStore.afterActs exampleActs).observed "delay").Perm [.exactly 5, .exactly 5] ∧
      (SeriesStore.afterActs exampleActs).gauge? "active" = some (.exactly 2) ∧
      SeriesStore.Rearranged (SeriesStore.callsSinceReset exampleActs) (SeriesStore.callsSinceReset backwardActs) ∧
      (SeriesStore.afterActs backwardActs).counter "retries" = .exactly 7 := by
  have hexact : SeriesStore.Exact (SeriesStore.callsSinceReset exampleActs) := by
    refine ⟨fun e he hverb => ?_, fun name => ?_⟩
    · have hall : ∀ e ∈ SeriesStore.callsSinceReset exampleActs, e.value = .exactly e.value.wholePart := by
        decide +kernel
      exact hall e he
    · have hall : SeriesStore.added (SeriesStore.callsSinceReset exampleActs) (fun _ => true) < 2 ^ 53 := by
        decide +kernel
      exact Nat.lt_of_le_of_lt (sumWhere_mono (fun _ _ => rfl) _) hall
  have hcalls : SeriesStore.callsSinceReset backwardActs =
      (SeriesStore.callsSinceReset exampleActs).reverse.map fun e => { e with labels := e.labels.reverse } := rfl
  have hbackward : SeriesStore.Rearranged (SeriesStore.callsSinceReset exampleActs)
      (SeriesStore.callsSinceReset backwardActs) := by
    refine ⟨_, (List.reverse_perm _).symm, ?_⟩
    rw [hcalls, List.forall₂_map_right_iff, List.forall₂_same]
    exact fun e _ => ⟨rfl, rfl, rfl, (List.reverse_perm _).symm⟩
  obtain ⟨hshows, hsame⟩ := sink_shows_calls_since_reset exampleActs hexact
  have hcounter : (SeriesStore.afterActs exampleActs).counter "retries" = .exactly 7 := by
    refine (hshows.counter "retries").trans ?_
    decide +kernel
  refine ⟨hexact, (hshows.counterWith _ _).trans ?_, hcounter, hshows.observed _, (hshows.gauge _).trans ?_,
    hbackward, (hsame backwardActs hbackward "retries").1.trans hcounter⟩
  all_goals decide +kernel

end QueryRelay
