/-!
# Texts in ascending order

A `TextSet` holds texts in ascending order, each once, and a `TextMap` holds texts under names, the names in ascending
order.  The order is part of the type: a set or a map has one value, whatever the order in which it was built
(`TextSet.ofList_members`, `TextMap.ofList_entries`).
-/

namespace QueryRelay

/-- Of two texts, one comes before the other unless they are equal. -/
theorem text_lt_of_not_lt {a b : String} (h : ¬ a < b) (hne : a ≠ b) : b < a := by
  have hle : b ≤ a := String.not_lt.1 h
  exact Decidable.byContradiction fun hba => hne (String.le_antisymm (String.not_lt.1 hba) hle)

/-! ## Sets -/

/-- Texts in ascending order, each once. -/
structure TextSet where
  members : List String
  ascending : members.Pairwise (· < ·)
deriving DecidableEq, Repr

namespace TextSet

/-- Adds a text to an ascending list without repetition. -/
def insertText (text : String) : List String → List String
  | [] => [text]
  | other :: rest =>
    if text < other then text :: other :: rest
    else if text = other then other :: rest
    else other :: insertText text rest

theorem mem_insertText {text other : String} {texts : List String} :
    other ∈ insertText text texts ↔ other = text ∨ other ∈ texts := by
  induction texts with
  | nil => simp [insertText]
  | cons first rest ih =>
    simp only [insertText]
    split
    · simp
    · split
      · rename_i heq
        subst heq
        simp
      · simp only [List.mem_cons, ih]
        constructor
        · rintro (h | h | h)
          · exact Or.inr (Or.inl h)
          · exact Or.inl h
          · exact Or.inr (Or.inr h)
        · rintro (h | h | h)
          · exact Or.inr (Or.inl h)
          · exact Or.inl h
          · exact Or.inr (Or.inr h)

theorem pairwise_insertText {text : String} {texts : List String} (h : texts.Pairwise (· < ·)) :
    (insertText text texts).Pairwise (· < ·) := by
  induction texts with
  | nil => simp [insertText]
  | cons first rest ih =>
    obtain ⟨hfirst, hrest⟩ := List.pairwise_cons.1 h
    simp only [insertText]
    split
    · rename_i hlt
      refine List.pairwise_cons.2 ⟨fun other hmem => ?_, h⟩
      rcases List.mem_cons.1 hmem with rfl | hmem
      · exact hlt
      · exact String.lt_trans hlt (hfirst other hmem)
    · rename_i hlt
      split
      · exact h
      · rename_i hne
        refine List.pairwise_cons.2 ⟨fun other hmem => ?_, ih hrest⟩
        rcases mem_insertText.1 hmem with rfl | hmem
        · exact text_lt_of_not_lt hlt hne
        · exact hfirst other hmem

def empty : TextSet := ⟨[], List.Pairwise.nil⟩

/-- Adds a text. -/
def insert (s : TextSet) (text : String) : TextSet := ⟨insertText text s.members, pairwise_insertText s.ascending⟩

/-- The set of some texts. -/
def ofList : List String → TextSet
  | [] => empty
  | text :: rest => (ofList rest).insert text

def contains (s : TextSet) (text : String) : Bool := s.members.contains text

theorem insertText_of_lt {text : String} {texts : List String} (h : ∀ other ∈ texts, text < other) :
    insertText text texts = text :: texts := by
  cases texts with
  | nil => rfl
  | cons first rest => simp [insertText, h first List.mem_cons_self]

/-- A set is the set of its members. -/
theorem ofList_members (s : TextSet) : ofList s.members = s := by
  obtain ⟨members, ascending⟩ := s
  induction members with
  | nil => rfl
  | cons text rest ih =>
    obtain ⟨hfirst, hrest⟩ := List.pairwise_cons.1 ascending
    have hrec := ih hrest
    simp only [ofList] at hrec ⊢
    rw [hrec]
    simp only [insert, insertText_of_lt hfirst]

theorem mem_ofList {text : String} {texts : List String} : text ∈ (ofList texts).members ↔ text ∈ texts := by
  induction texts with
  | nil => simp [ofList, empty]
  | cons first rest ih => simp [ofList, insert, mem_insertText, ih]

end TextSet

/-! ## Maps -/

/-- Texts under names, the names in ascending order. -/
structure TextMap where
  entries : List (String × String)
  ascending : entries.Pairwise fun a b => a.1 < b.1
deriving DecidableEq, Repr

namespace TextMap

/-- Sets the text of a name in a list that ascends by name. -/
def setEntry (name text : String) : List (String × String) → List (String × String)
  | [] => [(name, text)]
  | (other, old) :: rest =>
    if name < other then (name, text) :: (other, old) :: rest
    else if name = other then (name, text) :: rest
    else (other, old) :: setEntry name text rest

theorem name_of_mem_setEntry {name text : String} {entry : String × String} {entries : List (String × String)}
    (h : entry ∈ setEntry name text entries) : entry.1 = name ∨ entry ∈ entries := by
  induction entries with
  | nil =>
    simp only [setEntry, List.mem_singleton] at h
    exact Or.inl (by rw [h])
  | cons first rest ih =>
    simp only [setEntry] at h
    split at h
    · rcases List.mem_cons.1 h with rfl | h
      · exact Or.inl rfl
      · exact Or.inr h
    · split at h
      · rcases List.mem_cons.1 h with rfl | h
        · exact Or.inl rfl
        · exact Or.inr (List.mem_cons_of_mem _ h)
      · rcases List.mem_cons.1 h with rfl | h
        · exact Or.inr List.mem_cons_self
        · exact (ih h).imp id (List.mem_cons_of_mem _)

theorem pairwise_setEntry {name text : String} {entries : List (String × String)}
    (h : entries.Pairwise fun a b => a.1 < b.1) : (setEntry name text entries).Pairwise fun a b => a.1 < b.1 := by
  induction entries with
  | nil => simp [setEntry]
  | cons first rest ih =>
    obtain ⟨hfirst, hrest⟩ := List.pairwise_cons.1 h
    simp only [setEntry]
    split
    · rename_i hlt
      refine List.pairwise_cons.2 ⟨fun other hmem => ?_, h⟩
      rcases List.mem_cons.1 hmem with rfl | hmem
      · exact hlt
      · exact String.lt_trans hlt (hfirst other hmem)
    · rename_i hlt
      split
      · rename_i heq
        exact List.pairwise_cons.2 ⟨fun other hmem => heq ▸ hfirst other hmem, hrest⟩
      · rename_i hne
        refine List.pairwise_cons.2 ⟨fun other hmem => ?_, ih hrest⟩
        rcases name_of_mem_setEntry hmem with heq | hmem
        · exact heq ▸ text_lt_of_not_lt hlt hne
        · exact hfirst other hmem

def empty : TextMap := ⟨[], List.Pairwise.nil⟩

/-- Sets the text of a name. -/
def set (m : TextMap) (name text : String) : TextMap :=
  ⟨setEntry name text m.entries, pairwise_setEntry m.ascending⟩

/-- The map of some entries; the last of several entries for a name wins. -/
def ofList (entries : List (String × String)) : TextMap := entries.foldl (fun m e => m.set e.1 e.2) empty

theorem setEntry_of_lt {name text : String} {entries : List (String × String)}
    (h : ∀ entry ∈ entries, entry.1 < name) : setEntry name text entries = entries ++ [(name, text)] := by
  induction entries with
  | nil => rfl
  | cons first rest ih =>
    have hlt := h first List.mem_cons_self
    have hrest := ih fun entry hmem => h entry (List.mem_cons_of_mem _ hmem)
    have hne : name ≠ first.1 := fun heq => String.lt_irrefl _ (heq ▸ hlt)
    simp [setEntry, String.lt_asymm hlt, hne, hrest]

theorem foldl_set_entries {entries : List (String × String)} {m : TextMap}
    (h : (m.entries ++ entries).Pairwise fun a b => a.1 < b.1) :
    (entries.foldl (fun m e => m.set e.1 e.2) m).entries = m.entries ++ entries := by
  induction entries generalizing m with
  | nil => simp
  | cons first rest ih =>
    have hset : (m.set first.1 first.2).entries = m.entries ++ [first] :=
      setEntry_of_lt fun entry hmem => (List.pairwise_append.1 h).2.2 entry hmem first List.mem_cons_self
    have happ : m.entries ++ first :: rest = (m.set first.1 first.2).entries ++ rest := by simp [hset]
    rw [List.foldl_cons, ih (happ ▸ h), happ]

/-- A map is the map of its entries. -/
theorem ofList_entries (m : TextMap) : ofList m.entries = m := by
  have h := @foldl_set_entries m.entries empty (by simpa [empty] using m.ascending)
  obtain ⟨entries, ascending⟩ := m
  simp only [ofList]
  generalize hfold : entries.foldl (fun m e => m.set e.1 e.2) empty = folded at h ⊢
  obtain ⟨foldedEntries, foldedAscending⟩ := folded
  simp only [empty, List.nil_append] at h
  subst h
  rfl

end TextMap

end QueryRelay
