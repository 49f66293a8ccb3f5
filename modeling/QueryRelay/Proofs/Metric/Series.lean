import Mathlib.Algebra.Order.BigOperators.Group.List
import Mathlib.Algebra.Order.Ring.Nat
import Mathlib.Data.List.Induction
import QueryRelay.Metric.Series
import QueryRelay.Proofs.Binary64.Exact

/-!
# What a sink keeps of the calls to it

A store files every call under its series.  This module says what is found there after any calls: the counters hold
what was added, by series and by name, and the names are those of the calls.

* `sumWhere` — the sum of what stands under some of the keys, be they of calls or of a table.
* `SeriesStore.Holds` — the invariant: the counters hold whole numbers, and over whatever series one looks at, as much
  as the calls added; `SeriesStore.Holds.record` is its step.
* `SeriesStore.foldl_named_ofCalls`, `SeriesStore.counterWith_ofCalls` — **what the counters show** is the sum of the
  amounts, in whatever order the series of a name are added up.
* `SeriesStore.contains_ofCalls` — the names that are there.
-/

namespace QueryRelay

/-! ## Sums by key -/

section SumWhere

variable {κ ι : Type} {among : κ → Bool}

/-- The sum of what stands under some of the keys. -/
def sumWhere (among : κ → Bool) (entries : List (κ × Nat)) : Nat :=
  ((entries.filter fun entry => among entry.1).map Prod.snd).sum

@[simp] theorem sumWhere_nil : sumWhere among [] = 0 := rfl

theorem sumWhere_cons (entry : κ × Nat) (rest : List (κ × Nat)) :
    sumWhere among (entry :: rest) = (if among entry.1 then entry.2 else 0) + sumWhere among rest := by
  cases h : among entry.1 <;> simp [sumWhere, h]

@[simp] theorem sumWhere_append (entries more : List (κ × Nat)) :
    sumWhere among (entries ++ more) = sumWhere among entries + sumWhere among more := by
  simp [sumWhere]

theorem sumWhere_eq_zero {entries : List (κ × Nat)} (h : ∀ entry ∈ entries, among entry.1 = true → entry.2 = 0) :
    sumWhere among entries = 0 := by
  refine List.sum_eq_zero (List.forall_mem_map.2 fun entry hentry => ?_)
  obtain ⟨hmem, hamong⟩ := List.mem_filter.1 hentry
  exact h entry hmem hamong

/-- Many ones under one key are their number. -/
theorem sumWhere_ones (key : κ) (items : List ι) :
    sumWhere among (items.map fun _ => (key, 1)) = sumWhere among [(key, items.length)] := by
  induction items with
  | nil => simp [sumWhere_cons]
  | cons item rest ih =>
    rw [List.map_cons, sumWhere_cons, ih, sumWhere_cons, sumWhere_cons]
    cases among key <;> simp [Nat.add_comm]

theorem le_sumWhere_of_mem {entry : κ × Nat} {entries : List (κ × Nat)} (h : entry ∈ entries)
    (hamong : among entry.1 = true) : entry.2 ≤ sumWhere among entries :=
  List.le_sum_of_mem (List.mem_map_of_mem (List.mem_filter.2 ⟨h, hamong⟩))

/-- Under a key that occurs once stands the value of its entry. -/
theorem sumWhere_of_nodup [DecidableEq κ] {entries : List (κ × Nat)} (hnodup : (entries.map Prod.fst).Nodup)
    {entry : κ × Nat} (h : entry ∈ entries) : sumWhere (fun key => key = entry.1) entries = entry.2 := by
  induction entries with
  | nil => exact nomatch h
  | cons first rest ih =>
    obtain ⟨hnew, hrest⟩ := List.nodup_cons.1 hnodup
    rw [sumWhere_cons]
    rcases List.mem_cons.1 h with rfl | hmem
    · have hnone : sumWhere (fun key => decide (key = entry.1)) rest = 0 :=
        sumWhere_eq_zero fun other hother heq =>
          absurd (of_decide_eq_true heq ▸ List.mem_map_of_mem hother) hnew
      simp [hnone]
    · have hne : first.1 ≠ entry.1 := fun heq => hnew (heq ▸ List.mem_map_of_mem hmem)
      simpa [hne] using ih hrest hmem

theorem sumWhere_perm {entries other : List (κ × Nat)} (h : entries.Perm other) :
    sumWhere among entries = sumWhere among other :=
  ((h.filter _).map _).sum_nat

theorem sumWhere_mono {more : κ → Bool} (h : ∀ key, among key = true → more key = true) (entries : List (κ × Nat)) :
    sumWhere among entries ≤ sumWhere more entries := by
  induction entries with
  | nil => exact Nat.le_refl 0
  | cons entry rest ih =>
    rw [sumWhere_cons, sumWhere_cons]
    cases hentry : among entry.1 with
    | true => simpa [h entry.1 hentry] using ih
    | false => exact Nat.le_trans (by simpa using ih) (Nat.le_add_left _ _)

/-- Keys may be renamed before one looks at them. -/
theorem sumWhere_map (f : ι → κ) (entries : List (ι × Nat)) :
    sumWhere among (entries.map fun entry => (f entry.1, entry.2)) = sumWhere (fun key => among (f key)) entries := by
  simp [sumWhere, List.filter_map, Function.comp_def]

end SumWhere

/-! ## Calls -/

/-- The series that a call belongs to. -/
def Emission.key (e : Emission) : SeriesKey := SeriesKey.of e.name e.labels

/-- What a call adds to the counter of its series, if it adds anything. -/
def Emission.increment? (e : Emission) : Option (SeriesKey × Nat) :=
  if e.verb = .increment then some (e.key, e.value.wholePart) else none

namespace Table

variable {κ α : Type} [DecidableEq κ]

theorem any_keys_insert (t : Table κ α) (key : κ) (value : α) (p : κ → Bool) :
    (t.insert key value).keys.any p = (p key || t.keys.any p) := by
  by_cases h : key ∈ t.keys
  · have hkeys : (t.insert key value).keys = t.keys := by
      rw [insert, dif_pos (show key ∈ t.entries.map Prod.fst from h), keys_modify]
    rw [hkeys]
    cases hp : p key with
    | true => exact List.any_eq_true.2 ⟨key, h, hp⟩
    | false => rfl
  · rw [keys_insert_of_not_mem h, List.any_append, Bool.or_comm]
    simp

theorem entries_erase_of_get?_none {t : Table κ α} {key : κ} (h : t.get? key = none) :
    (t.erase key).entries = t.entries := by
  refine List.filter_eq_self.2 fun entry hentry => decide_eq_true fun heq => ?_
  have hget : t.get? entry.1 = some entry.2 := mem_entries_iff.1 hentry
  rw [heq, h] at hget
  exact nomatch hget

end Table

namespace SeriesStore

/-- What a sink keeps of some calls. -/
def ofCalls (calls : List Emission) : SeriesStore := calls.foldl record empty

theorem ofCalls_concat (calls : List Emission) (e : Emission) : ofCalls (calls ++ [e]) = (ofCalls calls).record e := by
  rw [ofCalls, List.foldl_append]
  rfl

/-- How much some calls add to the counters of some series. -/
def added (calls : List Emission) (among : SeriesKey → Bool) : Nat :=
  sumWhere among (calls.filterMap Emission.increment?)

/-- How much there is on the counters of some series. -/
def held (table : Table SeriesKey Binary64) (among : SeriesKey → Bool) : Nat :=
  sumWhere among (table.entries.map fun entry => (entry.1, entry.2.wholePart))

/-- The amounts are whole numbers, and what they come to under a name is added up exactly. -/
structure Exact (calls : List Emission) : Prop where
  whole : ∀ e ∈ calls, e.verb = .increment → e.value.IsWhole
  bound : ∀ name, added calls (fun key => key.name = name) < 2 ^ 53

theorem added_append (calls more : List Emission) (among : SeriesKey → Bool) :
    added (calls ++ more) among = added calls among + added more among := by
  simp [added]

theorem added_singleton {e : Emission} (h : e.verb = .increment) (among : SeriesKey → Bool) :
    added [e] among = if among e.key then e.value.wholePart else 0 := by
  simp [added, Emission.increment?, h, sumWhere_cons]

theorem added_singleton_of_ne {e : Emission} (h : e.verb ≠ .increment) (among : SeriesKey → Bool) :
    added [e] among = 0 := by
  simp [added, Emission.increment?, h]

/-- What increments add under a name can be read off their names. -/
theorem added_name_of_increments {calls : List Emission} (h : ∀ e ∈ calls, e.verb = .increment) (name : String) :
    added calls (fun key => key.name = name) =
      sumWhere (fun given => given = name) (calls.map fun e => (e.name, e.value.wholePart)) := by
  have hall : calls.filterMap Emission.increment? = calls.map fun e => (e.key, e.value.wholePart) := by
    rw [← List.filterMap_eq_map]
    exact List.filterMap_congr fun e he => if_pos (h e he)
  have hnames : calls.map (fun e => (e.name, e.value.wholePart)) =
      (calls.map fun e => (e.key, e.value.wholePart)).map fun entry => (entry.1.name, entry.2) := by
    rw [List.map_map]
    rfl
  rw [added, hall, hnames, sumWhere_map]

theorem added_flatMap {ι : Type} (items : List ι) (calls : ι → List Emission) (among : SeriesKey → Bool) :
    added (items.flatMap calls) among = (items.map fun item => added (calls item) among).sum := by
  induction items with
  | nil => rfl
  | cons item rest ih => rw [List.flatMap_cons, added_append, ih, List.map_cons, List.sum_cons]

theorem added_perm {calls other : List Emission} (h : calls.Perm other) (among : SeriesKey → Bool) :
    added calls among = added other among :=
  sumWhere_perm (h.filterMap _)

namespace Exact

variable {calls more : List Emission}

theorem bound_key (h : Exact calls) (key : SeriesKey) : added calls (fun k => k = key) < 2 ^ 53 := by
  refine Nat.lt_of_le_of_lt (sumWhere_mono (fun k hk => ?_) _) (h.bound key.name)
  rw [of_decide_eq_true hk]
  exact decide_eq_true rfl

theorem of_append (h : Exact (calls ++ more)) : Exact calls where
  whole e he := h.whole e (List.mem_append_left _ he)
  bound name := by
    have hbound := h.bound name
    rw [added_append] at hbound
    omega

theorem of_perm (h : Exact calls) (hperm : calls.Perm more) : Exact more where
  whole e he := h.whole e (hperm.mem_iff.2 he)
  bound name := by
    rw [← added_perm hperm]
    exact h.bound name

end Exact

/-! ## One call more -/

/-- What is held falls into the part of one series and the rest. -/
theorem held_eq_add (table : Table SeriesKey Binary64) (key : SeriesKey) (among : SeriesKey → Bool) :
    held table among =
      (if among key then ((table.get? key).getD .zero).wholePart else 0) + held (table.erase key) among := by
  cases hget : table.get? key with
  | none =>
    rw [held, held, Table.entries_erase_of_get?_none hget]
    simp [← Binary64.exactly_zero]
  | some value => exact (sumWhere_perm ((Table.entries_perm_of_get? hget).map _)).trans (sumWhere_cons _ _)

/-- Over whatever series one looks at, a counter that is set contributes its new value in place of the old one. -/
theorem held_insert (table : Table SeriesKey Binary64) (key : SeriesKey) (value : Binary64)
    (among : SeriesKey → Bool) :
    held (table.insert key value) among =
      (if among key then value.wholePart else 0) + held (table.erase key) among :=
  (sumWhere_perm ((table.entries_insert_perm key value).map _)).trans (sumWhere_cons _ _)

/-- The counters hold whole numbers, and as much as some calls added. -/
structure Holds (store : SeriesStore) (calls : List Emission) : Prop where
  whole : ∀ entry ∈ store.counters.entries, entry.2.IsWhole
  held : ∀ among, held store.counters among = added calls among

namespace Holds

variable {store : SeriesStore} {calls : List Emission}

/-- A series shows what was added to it, and nothing if nothing was. -/
theorem getD_eq_exactly (h : Holds store calls) (key : SeriesKey) :
    (store.counters.get? key).getD .zero = .exactly (added calls fun k => k = key) := by
  have hwhole : ((store.counters.get? key).getD .zero).IsWhole := by
    cases hget : store.counters.get? key with
    | none => exact Binary64.exactly_zero ▸ Binary64.isWhole_exactly 0
    | some value => exact h.whole _ (Table.mem_entries_iff.2 hget)
  have hrest : SeriesStore.held (store.counters.erase key) (fun k => k = key) = 0 := by
    refine sumWhere_eq_zero (List.forall_mem_map.2 fun entry hentry heq => ?_)
    exact absurd (of_decide_eq_true heq) (of_decide_eq_true (List.mem_filter.1 hentry).2)
  rw [← h.held, held_eq_add _ key, hrest, if_pos (decide_eq_true rfl)]
  exact hwhole

/-- A call that is no increment leaves the counters as they are. -/
theorem record_of_ne (h : Holds store calls) {e : Emission} (hverb : e.verb ≠ .increment) :
    Holds (store.record e) (calls ++ [e]) := by
  have hcounters : (store.record e).counters = store.counters := by
    rw [SeriesStore.record]
    split
    case h_1 hincrement => exact absurd hincrement hverb
    all_goals rfl
  refine ⟨by rw [hcounters]; exact h.whole, fun among => ?_⟩
  rw [hcounters, added_append, added_singleton_of_ne hverb]
  exact h.held among

theorem record_of_increment (h : Holds store calls) {e : Emission} (hverb : e.verb = .increment)
    (hexact : Exact (calls ++ [e])) : Holds (store.record e) (calls ++ [e]) := by
  have hbound := hexact.bound_key e.key
  rw [added_append, added_singleton hverb, if_pos (decide_eq_true rfl)] at hbound
  have hvalue : (store.counters.get? e.key).getD .zero + e.value =
      .exactly (added calls (fun k => k = e.key) + e.value.wholePart) := by
    have hwhole : e.value = .exactly e.value.wholePart := hexact.whole e (by simp) hverb
    rw [h.getD_eq_exactly, ← Binary64.exactly_add_exactly hbound, ← hwhole]
  have hcounters : (store.record e).counters =
      store.counters.insert e.key (.exactly (added calls (fun k => k = e.key) + e.value.wholePart)) := by
    rw [← hvalue, SeriesStore.record]
    simp only [hverb]
    rfl
  constructor
  case whole =>
    intro entry hentry
    rw [hcounters] at hentry
    rcases List.mem_cons.1 ((Table.entries_insert_perm ..).mem_iff.1 hentry) with rfl | hrest
    · exact Binary64.isWhole_exactly _
    · exact h.whole entry (List.mem_filter.1 hrest).1
  case held =>
    intro among
    have hbefore := h.held among
    rw [held_eq_add _ e.key, h.getD_eq_exactly, Binary64.wholePart_exactly] at hbefore
    rw [hcounters, held_insert, Binary64.wholePart_exactly, added_append, added_singleton hverb, ← hbefore]
    cases among e.key <;> simp [Nat.add_right_comm]

theorem record (h : Holds store calls) {e : Emission} (hexact : Exact (calls ++ [e])) :
    Holds (store.record e) (calls ++ [e]) := by
  by_cases hverb : e.verb = .increment
  · exact h.record_of_increment hverb hexact
  · exact h.record_of_ne hverb

end Holds

/-! ## Any calls -/

variable {calls : List Emission}

theorem holds_ofCalls (h : Exact calls) : Holds (ofCalls calls) calls := by
  induction calls using List.reverseRecOn with
  | nil => exact ⟨by simp [ofCalls, empty, Table.empty], fun _ => rfl⟩
  | append_singleton calls e ih =>
    rw [ofCalls_concat]
    exact (ih h.of_append).record h

theorem counterWith_ofCalls (h : Exact calls) (name : String) (labels : Labels) :
    (ofCalls calls).counterWith name labels = .exactly (added calls fun key => key = SeriesKey.of name labels) :=
  (holds_ofCalls h).getD_eq_exactly _

/-- The total of a name, in whatever order its series are added up. -/
theorem foldl_named_ofCalls (h : Exact calls) (name : String) {values : List Binary64}
    (hvalues : values.Perm (named (ofCalls calls).counters name)) :
    values.foldl (· + ·) .zero = .exactly (added calls fun key => key.name = name) := by
  have hholds := holds_ofCalls h
  have hwhole : ∀ x ∈ values, x.IsWhole := by
    intro x hx
    obtain ⟨entry, hentry, rfl⟩ := List.mem_map.1 (hvalues.mem_iff.1 hx)
    exact hholds.whole entry (List.mem_filter.1 hentry).1
  have hsum : (values.map Binary64.wholePart).sum = added calls fun key => key.name = name := by
    rw [(hvalues.map _).sum_nat, ← hholds.held, held, sumWhere, named, List.filter_map, List.map_map, List.map_map]
    rfl
  have hbound : 0 + (values.map Binary64.wholePart).sum < 2 ^ 53 := by
    rw [hsum, Nat.zero_add]
    exact h.bound name
  rw [← Binary64.exactly_zero, Binary64.foldl_add_eq_exactly hwhole hbound, hsum, Nat.zero_add]

theorem counter_ofCalls (h : Exact calls) (name : String) :
    (ofCalls calls).counter name = .exactly (added calls fun key => key.name = name) :=
  foldl_named_ofCalls h name (List.Perm.refl _)

/-- Increments leave gauges and observations as they were. -/
theorem ofCalls_of_increments (h : ∀ e ∈ calls, e.verb = .increment) :
    (ofCalls calls).gauges = Table.empty ∧ (ofCalls calls).observations = Table.empty := by
  induction calls using List.reverseRecOn with
  | nil => exact ⟨rfl, rfl⟩
  | append_singleton calls e ih =>
    obtain ⟨hcalls, hlast⟩ := List.forall_mem_append.1 h
    rw [ofCalls_concat, record, hlast e List.mem_cons_self]
    exact ih hcalls

/-! ## Names -/

theorem contains_record (store : SeriesStore) (e : Emission) (name : String) :
    (store.record e).contains name = (decide (e.name = name) || store.contains name) := by
  cases hverb : e.verb <;>
    simp [record, contains, hverb, Table.any_keys_insert, SeriesKey.of, Bool.or_assoc, Bool.or_left_comm]

/-- The names that are there are those of the calls. -/
theorem contains_ofCalls (calls : List Emission) (name : String) :
    (ofCalls calls).contains name = calls.any fun e => e.name = name := by
  induction calls using List.reverseRecOn with
  | nil => rfl
  | append_singleton calls e ih =>
    rw [ofCalls_concat, contains_record, List.any_append, Bool.or_comm]
    exact congrArg₂ _ ih (by simp)

end SeriesStore

end QueryRelay
