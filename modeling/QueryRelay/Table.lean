/-!
# Tables

A table keeps values under distinct keys, in the order in which the keys came in.  Setting a key that is there keeps
its place.  `Table.get?` is the view through which the other operations are described: see `get?_insert`,
`get?_modify` and `get?_erase`.
-/

namespace QueryRelay

/-- A finite map that remembers the order in which its keys came in. -/
structure Table (κ α : Type) where
  entries : List (κ × α)
  distinct : (entries.map Prod.fst).Nodup

namespace Table

variable {κ α : Type}

def empty : Table κ α := ⟨[], List.nodup_nil⟩

instance : Inhabited (Table κ α) := ⟨empty⟩

instance [Repr κ] [Repr α] : Repr (Table κ α) := ⟨fun t n => reprPrec t.entries n⟩

def keys (t : Table κ α) : List κ := t.entries.map Prod.fst

def values (t : Table κ α) : List α := t.entries.map Prod.snd

def size (t : Table κ α) : Nat := t.entries.length

variable [DecidableEq κ]

/-- The value of a key. -/
def get? (t : Table κ α) (key : κ) : Option α := (t.entries.find? fun e => e.1 = key).map Prod.snd

def contains (t : Table κ α) (key : κ) : Bool := (t.get? key).isSome

/-- Changes the value of a key; nothing happens if the key is not there. -/
def modify (t : Table κ α) (key : κ) (change : α → α) : Table κ α where
  entries := t.entries.map fun e => if e.1 = key then (e.1, change e.2) else e
  distinct := by
    have same : (Prod.fst ∘ fun e : κ × α => if e.1 = key then (e.1, change e.2) else e) = Prod.fst := by
      funext e
      by_cases h : e.1 = key <;> simp [h]
    rw [List.map_map, same]
    exact t.distinct

/-- Sets the value of a key; a new key goes to the end. -/
def insert (t : Table κ α) (key : κ) (value : α) : Table κ α :=
  if h : key ∈ t.entries.map Prod.fst then t.modify key fun _ => value
  else
    { entries := t.entries ++ [(key, value)]
      distinct := by
        rw [List.map_append, List.nodup_append]
        refine ⟨t.distinct, by simp, ?_⟩
        intro a ha b hb hab
        simp only [List.map_cons, List.map_nil, List.mem_singleton] at hb
        exact h (hb ▸ hab ▸ ha) }

/-- Drops a key. -/
def erase (t : Table κ α) (key : κ) : Table κ α where
  entries := t.entries.filter fun e => e.1 ≠ key
  distinct := t.distinct.sublist (List.filter_sublist.map Prod.fst)

theorem get?_empty (key : κ) : (empty : Table κ α).get? key = none := rfl

theorem mem_keys_iff {t : Table κ α} {key : κ} : key ∈ t.entries.map Prod.fst ↔ (t.get? key).isSome := by
  simp [get?, List.find?_isSome]

theorem get?_modify (t : Table κ α) (key other : κ) (change : α → α) :
    (t.modify key change).get? other = if other = key then (t.get? key).map change else t.get? other := by
  obtain ⟨entries, distinct⟩ := t
  simp only [get?, modify]
  clear distinct
  induction entries with
  | nil => simp
  | cons e rest ih =>
    by_cases h : e.1 = key
    · by_cases ho : other = key
      · simp [h, ho]
      · have : ¬ key = other := fun h => ho h.symm
        simp only [List.map_cons, List.find?_cons, h, if_true, this, decide_false, ho, if_false] at ih ⊢
        exact ih
    · by_cases ho : other = key
      · simp only [List.map_cons, List.find?_cons, h, if_false, ho, decide_false, if_true] at ih ⊢
        exact ih
      · by_cases he : e.1 = other
        · simp [he, ho]
        · simp only [List.map_cons, List.find?_cons, h, if_false, he, decide_false, ho] at ih ⊢
          exact ih

theorem get?_insert (t : Table κ α) (key other : κ) (value : α) :
    (t.insert key value).get? other = if other = key then some value else t.get? other := by
  unfold insert
  split
  · rename_i h
    rw [get?_modify]
    obtain ⟨old, hold⟩ := Option.isSome_iff_exists.1 (mem_keys_iff.1 h)
    simp [hold]
  · rename_i h
    have hnone : t.entries.find? (fun e => decide (e.1 = key)) = none := by
      rw [List.find?_eq_none]
      intro e he
      simp only [decide_eq_true_eq]
      intro hk
      exact h (List.mem_map.2 ⟨e, he, hk⟩)
    simp only [get?, List.find?_append]
    by_cases ho : other = key
    · simp [ho, hnone]
    · have : ¬ key = other := fun h => ho h.symm
      simp [ho, this]

theorem get?_erase (t : Table κ α) (key other : κ) :
    (t.erase key).get? other = if other = key then none else t.get? other := by
  simp only [get?, erase, List.find?_filter]
  by_cases ho : other = key
  · subst ho
    simp
  · simp only [ho, if_false]
    congr 2
    funext e
    by_cases he : e.1 = other
    · simp [he, ho]
    · simp [he]

/-! ## Keys -/

theorem contains_iff {t : Table κ α} {key : κ} : t.contains key = true ↔ key ∈ t.keys := mem_keys_iff.symm

omit [DecidableEq κ] in
@[simp] theorem length_keys (t : Table κ α) : t.keys.length = t.size := List.length_map ..

theorem keys_modify (t : Table κ α) (key : κ) (change : α → α) : (t.modify key change).keys = t.keys := by
  simp only [keys, modify, List.map_map]
  refine List.map_congr_left fun e _ => ?_
  by_cases h : e.1 = key <;> simp [h]

theorem keys_insert_of_not_mem {t : Table κ α} {key : κ} (h : key ∉ t.keys) (value : α) :
    (t.insert key value).keys = t.keys ++ [key] := by
  have hnew : key ∉ t.entries.map Prod.fst := h
  rw [insert, dif_neg hnew, keys, List.map_append]
  rfl

theorem keys_erase (t : Table κ α) (key : κ) : (t.erase key).keys = t.keys.filter fun k => k ≠ key := by
  rw [keys, erase, keys, List.filter_map]
  rfl

/-! ## The entries of one key -/

theorem mem_entries_iff {t : Table κ α} {key : κ} {value : α} :
    (key, value) ∈ t.entries ↔ t.get? key = some value := by
  constructor
  · intro h
    obtain ⟨entries, distinct⟩ := t
    simp only [get?] at h ⊢
    induction entries with
    | nil => simp at h
    | cons e rest ih =>
      simp only [List.map_cons, List.nodup_cons] at distinct
      rcases List.mem_cons.1 h with rfl | hrest
      · simp
      · have hne : ¬ e.1 = key := fun he => distinct.1 (he ▸ List.mem_map_of_mem hrest)
        simpa [List.find?_cons, hne] using ih distinct.2 hrest
  · intro h
    simp only [get?, Option.map_eq_some_iff] at h
    obtain ⟨⟨k, v⟩, hfind, rfl⟩ := h
    have hk : k = key := by simpa using List.find?_some hfind
    exact hk ▸ List.mem_of_find?_eq_some hfind

/-- Setting a key to the value that it has changes nothing. -/
theorem insert_eq_self {t : Table κ α} {key : κ} {value : α} (h : t.get? key = some value) :
    t.insert key value = t := by
  have hkey : key ∈ t.entries.map Prod.fst := mem_keys_iff.2 (by simp [h])
  have hsame : ∀ e ∈ t.entries, (if e.1 = key then (e.1, value) else e) = e := by
    intro e he
    by_cases heq : e.1 = key
    · have hget : t.get? e.1 = some e.2 := mem_entries_iff.1 he
      rw [heq, h, Option.some.injEq] at hget
      rw [if_pos heq, hget]
    · rw [if_neg heq]
  rw [insert, dif_pos hkey]
  obtain ⟨entries, distinct⟩ := t
  rw [modify, mk.injEq, List.map_congr_left hsame, List.map_id']

/-- A new key goes to the end. -/
theorem size_insert_of_get?_none {t : Table κ α} {key : κ} (h : t.get? key = none) (value : α) :
    (t.insert key value).size = t.size + 1 := by
  have hkey : key ∉ t.entries.map Prod.fst := by
    rw [mem_keys_iff, h]
    simp
  rw [insert, dif_neg hkey, size, List.length_append]
  rfl

/-- A key that is there has one entry; the others are those that remain without it. -/
theorem entries_perm_of_get? {t : Table κ α} {key : κ} {value : α} (h : t.get? key = some value) :
    t.entries.Perm ((key, value) :: (t.erase key).entries) := by
  have hmem := mem_entries_iff.2 h
  obtain ⟨entries, distinct⟩ := t
  simp only [erase] at hmem ⊢
  clear h
  induction entries with
  | nil => simp at hmem
  | cons e rest ih =>
    simp only [List.map_cons, List.nodup_cons] at distinct
    rcases List.mem_cons.1 hmem with rfl | hrest
    · have hkeep : rest.filter (fun e => decide (e.1 ≠ key)) = rest := by
        rw [List.filter_eq_self]
        intro e he
        have hne : e.1 ≠ key := fun hk => distinct.1 (hk ▸ List.mem_map.2 ⟨e, he, rfl⟩)
        exact decide_eq_true hne
      rw [List.filter_cons_of_neg (by simp), hkeep]
    · have hne : e.1 ≠ key := fun he => distinct.1 (he ▸ List.mem_map_of_mem hrest)
      rw [List.filter_cons_of_pos (by simpa using hne)]
      exact ((ih distinct.2 hrest).cons e).trans (List.Perm.swap _ _ _)

theorem erase_modify (t : Table κ α) (key : κ) (change : α → α) :
    ((t.modify key change).erase key).entries = (t.erase key).entries := by
  simp only [erase, modify, List.filter_map]
  have hsame : ∀ e ∈ t.entries.filter (fun e => decide (e.1 ≠ key)),
      (if e.1 = key then (e.1, change e.2) else e) = e := by
    intro e he
    have hne : e.1 ≠ key := by simpa using (List.mem_filter.1 he).2
    rw [if_neg hne]
  have hpred : ((fun e : κ × α => decide (e.1 ≠ key)) ∘ fun e => if e.1 = key then (e.1, change e.2) else e) =
      fun e => decide (e.1 ≠ key) := by
    funext e
    by_cases h : e.1 = key <;> simp [h]
  rw [hpred, List.map_congr_left hsame, List.map_id']

theorem erase_insert (t : Table κ α) (key : κ) (value : α) :
    ((t.insert key value).erase key).entries = (t.erase key).entries := by
  unfold insert
  split
  · exact erase_modify t key _
  · simp [erase, List.filter_append]

theorem entries_modify_perm {t : Table κ α} {key : κ} {value : α} (h : t.get? key = some value)
    (change : α → α) :
    (t.modify key change).entries.Perm ((key, change value) :: (t.erase key).entries) := by
  have hget : (t.modify key change).get? key = some (change value) := by rw [get?_modify, if_pos rfl, h]; rfl
  rw [← erase_modify t key change]
  exact entries_perm_of_get? hget

theorem entries_insert_perm (t : Table κ α) (key : κ) (value : α) :
    (t.insert key value).entries.Perm ((key, value) :: (t.erase key).entries) := by
  have hget : (t.insert key value).get? key = some value := by rw [get?_insert, if_pos rfl]
  rw [← erase_insert t key value]
  exact entries_perm_of_get? hget

end Table

end QueryRelay
