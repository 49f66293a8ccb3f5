import Mathlib.Data.List.Forall2
import QueryRelay.Codec.Record

/-!
# Reading back what was written

A codec *restores* a value if what it writes for the value is read as that value again, from a text and from a value,
as it was written and brought to canonical form.  Codecs are built from one another, and so is this.

* `Json.decideEq` — equality of values can be decided.
* `Json.Form` — the two forms in which something written can be met, and what they do to lists and objects.
* `Codec.Reads`, `Codec.Restores` — with one lemma per codec of plain values, lists, sets, maps and enumerations.
* `RecordReader.Reads` — the same for a reader of records, put together as the reader is: `RecordReader.Reads.ofEntries`
  reads **a record that stands among other fields**, and `RecordReader.Reads.codec` one that stands alone.
-/

namespace QueryRelay

namespace Json

/-! ## Equality -/

mutual

/-- Decides whether two values are equal, part by part. -/
def decideEq : (a b : Json) → Decidable (a = b)
  | .null, b => match b with
    | .null => isTrue rfl
    | .bool _ | .int _ | .float _ | .str _ | .array _ | .object _ => isFalse nofun
  | .bool x, b => match b with
    | .bool y => decidable_of_iff (x = y) (by rw [Json.bool.injEq])
    | .null | .int _ | .float _ | .str _ | .array _ | .object _ => isFalse nofun
  | .int x, b => match b with
    | .int y => decidable_of_iff (x = y) (by rw [Json.int.injEq])
    | .null | .bool _ | .float _ | .str _ | .array _ | .object _ => isFalse nofun
  | .float x, b => match b with
    | .float y => decidable_of_iff (x = y) (by rw [Json.float.injEq])
    | .null | .bool _ | .int _ | .str _ | .array _ | .object _ => isFalse nofun
  | .str x, b => match b with
    | .str y => decidable_of_iff (x = y) (by rw [Json.str.injEq])
    | .null | .bool _ | .int _ | .float _ | .array _ | .object _ => isFalse nofun
  | .array x, b => match b with
    | .array y => @decidable_of_iff _ (x = y) (by rw [Json.array.injEq]) (decideEqItems x y)
    | .null | .bool _ | .int _ | .float _ | .str _ | .object _ => isFalse nofun
  | .object x, b => match b with
    | .object y => @decidable_of_iff _ (x = y) (by rw [Json.object.injEq]) (decideEqFields x y)
    | .null | .bool _ | .int _ | .float _ | .str _ | .array _ => isFalse nofun

def decideEqItems : (as bs : List Json) → Decidable (as = bs)
  | [], [] => isTrue rfl
  | [], _ :: _ | _ :: _, [] => isFalse nofun
  | a :: as, b :: bs =>
    @decidable_of_iff _ (a = b ∧ as = bs) (by rw [List.cons.injEq])
      (@instDecidableAnd _ _ (decideEq a b) (decideEqItems as bs))

def decideEqFields : (as bs : List (String × Json)) → Decidable (as = bs)
  | [], [] => isTrue rfl
  | [], _ :: _ | _ :: _, [] => isFalse nofun
  | (m, a) :: as, (n, b) :: bs =>
    @decidable_of_iff _ (m = n ∧ a = b ∧ as = bs) (by rw [List.cons.injEq, Prod.mk.injEq, and_assoc])
      (@instDecidableAnd _ _ _ (@instDecidableAnd _ _ (decideEq a b) (decideEqFields as bs)))

end

instance : DecidableEq Json := decideEq

/-! ## Forms -/

/-- How something written is met again: as it was written, or in canonical form. -/
inductive Form where
  | written
  | canonical
deriving DecidableEq

theorem canonicalItems_eq_map (items : List Json) : canonicalItems items = items.map canonical := by
  induction items with
  | nil => rfl
  | cons item rest ih => rw [canonicalItems, ih, List.map_cons]

namespace Form

/-- A value in a form. -/
def apply : Form → Json → Json
  | written, json => json
  | canonical, json => json.canonical

/-- The fields of an object in a form. -/
def fields : Form → List (String × Json) → List (String × Json)
  | written, entries => entries
  | canonical, entries => canonicalFields entries

variable (form : Form)

@[simp] theorem apply_null : form.apply .null = .null := by cases form <;> rfl

@[simp] theorem apply_bool (b : Bool) : form.apply (.bool b) = .bool b := by cases form <;> rfl

@[simp] theorem apply_int (i : Int) : form.apply (.int i) = .int i := by cases form <;> rfl

@[simp] theorem apply_float (x : Binary64) : form.apply (.float x) = .float x := by cases form <;> rfl

@[simp] theorem apply_str (s : String) : form.apply (.str s) = .str s := by cases form <;> rfl

@[simp] theorem apply_object (entries : List (String × Json)) :
    form.apply (.object entries) = .object (form.fields entries) := by
  cases form <;> rfl

@[simp] theorem apply_array (items : List Json) : form.apply (.array items) = .array (items.map form.apply) := by
  cases form with
  | written => exact congrArg Json.array (List.map_id items).symm
  | canonical => exact congrArg Json.array (canonicalItems_eq_map items)

theorem apply_eq_null {json : Json} (h : form.apply json = .null) : json = .null := by
  cases json with
  | null => rfl
  | _ => exact absurd h (by simp)

end Form

end Json

/-! ### Fields in canonical form -/

namespace Fields

theorem mem_insertNew {name : String} {value : Json} {entry : String × Json} {entries : Fields}
    (hnew : name ∉ entries.map Prod.fst) :
    entry ∈ insertNew name value entries ↔ entry = (name, value) ∨ entry ∈ entries := by
  induction entries with
  | nil => simp [insertNew]
  | cons first rest ih =>
    rw [List.map_cons, List.mem_cons, not_or] at hnew
    simp only [insertNew, if_neg hnew.1]
    split
    · exact List.mem_cons
    · rw [List.mem_cons, List.mem_cons, ih hnew.2]
      exact or_left_comm

theorem perm_map_fst_insertNew {name : String} {value : Json} {entries : Fields} (hnew : name ∉ entries.map Prod.fst) :
    ((insertNew name value entries).map Prod.fst).Perm (name :: entries.map Prod.fst) := by
  induction entries with
  | nil => exact .refl _
  | cons first rest ih =>
    rw [List.map_cons, List.mem_cons, not_or] at hnew
    simp only [insertNew, if_neg hnew.1]
    split
    · exact .refl _
    · exact ((ih hnew.2).cons first.1).trans (.swap _ _ _)

theorem insertNew_of_lt {name : String} {value : Json} {entries : Fields} (h : ∀ entry ∈ entries, name < entry.1) :
    insertNew name value entries = (name, value) :: entries := by
  cases entries with
  | nil => rfl
  | cons first rest => simp [insertNew, h first List.mem_cons_self]

/-- Named values as they travel: in canonical form. -/
def IsCanonical (fields : Fields) : Prop := Json.canonicalFields fields = fields

end Fields

namespace Json

/-- The canonical form of fields with distinct names has the same names. -/
theorem perm_map_fst_canonicalFields {entries : List (String × Json)} (h : (entries.map Prod.fst).Nodup) :
    ((canonicalFields entries).map Prod.fst).Perm (entries.map Prod.fst) := by
  induction entries with
  | nil => exact .refl _
  | cons first rest ih =>
    obtain ⟨hfirst, hrest⟩ := List.nodup_cons.1 h
    have hsame := ih hrest
    have hnew : first.1 ∉ (canonicalFields rest).map Prod.fst := fun hmem => hfirst (hsame.mem_iff.1 hmem)
    exact (Fields.perm_map_fst_insertNew hnew).trans (hsame.cons first.1)

/-- The canonical form of fields with distinct names has the same fields, each with its value in canonical form. -/
theorem mem_canonicalFields {entries : List (String × Json)} (h : (entries.map Prod.fst).Nodup)
    {entry : String × Json} :
    entry ∈ canonicalFields entries ↔ ∃ json, (entry.1, json) ∈ entries ∧ entry.2 = json.canonical := by
  induction entries with
  | nil => simp [canonicalFields]
  | cons first rest ih =>
    obtain ⟨hfirst, hrest⟩ := List.nodup_cons.1 h
    have hnew : first.1 ∉ (canonicalFields rest).map Prod.fst :=
      fun hmem => hfirst ((perm_map_fst_canonicalFields hrest).mem_iff.1 hmem)
    obtain ⟨name, value⟩ := first
    obtain ⟨name', value'⟩ := entry
    rw [canonicalFields, Fields.mem_insertNew hnew, ih hrest]
    simp only [List.mem_cons, Prod.mk.injEq, or_and_right, exists_or]
    refine or_congr ?_ Iff.rfl
    constructor
    · rintro ⟨rfl, rfl⟩
      exact ⟨value, ⟨rfl, rfl⟩, rfl⟩
    · rintro ⟨_, ⟨rfl, rfl⟩, rfl⟩
      exact ⟨rfl, rfl⟩

/-- Fields that ascend by name, with values in canonical form, are in canonical form. -/
theorem isCanonical_of_ascending {entries : Fields} (hnames : entries.Pairwise fun a b => a.1 < b.1)
    (hvalues : ∀ entry ∈ entries, entry.2.canonical = entry.2) : entries.IsCanonical := by
  induction entries with
  | nil => rfl
  | cons first rest ih =>
    obtain ⟨hfirst, hrest⟩ := List.pairwise_cons.1 hnames
    have hsame : canonicalFields rest = rest :=
      ih hrest fun entry hentry => hvalues entry (List.mem_cons_of_mem _ hentry)
    obtain ⟨name, value⟩ := first
    rw [Fields.IsCanonical, canonicalFields, hsame, hvalues (name, value) List.mem_cons_self]
    exact Fields.insertNew_of_lt hfirst

namespace Form

variable (form : Form) {entries : List (String × Json)}

theorem nodup_fields (h : (entries.map Prod.fst).Nodup) : ((form.fields entries).map Prod.fst).Nodup := by
  cases form with
  | written => exact h
  | canonical => exact (perm_map_fst_canonicalFields h).nodup_iff.2 h

theorem mem_fields (h : (entries.map Prod.fst).Nodup) {entry : String × Json} :
    entry ∈ form.fields entries ↔ ∃ json, (entry.1, json) ∈ entries ∧ entry.2 = form.apply json := by
  cases form with
  | written =>
    constructor
    · exact fun hmem => ⟨entry.2, hmem, rfl⟩
    · rintro ⟨json, hmem, hjson⟩
      have hsame : entry = (entry.1, json) := Prod.ext rfl hjson
      exact hsame ▸ hmem
  | canonical => exact mem_canonicalFields h

theorem fields_of_isCanonical {entries : Fields} (h : entries.IsCanonical) : form.fields entries = entries := by
  cases form with
  | written => rfl
  | canonical => exact h

end Form

end Json

/-! ## Codecs of values -/

namespace Codec

/-- Something written is read as a value, from a text and from a value, in both forms. -/
def Reads {α : Type} (c : Codec α) (json : Json) (a : α) : Prop :=
  ∀ (source : Source) (form : Json.Form), c.decode source (form.apply json) = .ok a

/-- What a codec writes for a value is read as that value. -/
def Restores {α : Type} (c : Codec α) (a : α) : Prop := c.Reads (c.encode a) a

theorem restores_natBelow {bound n : Nat} (h : n < bound) (expected : String) :
    (natBelow bound expected).Restores n := by
  intro source form
  have hint : (0 : Int) ≤ n ∧ (n : Int) < bound := ⟨Int.natCast_nonneg n, Int.ofNat_lt.2 h⟩
  rw [show form.apply ((natBelow bound expected).encode n) = .int n from form.apply_int n]
  exact if_pos hint

theorem restores_bool (b : Bool) : bool.Restores b := by
  intro source form
  simp [bool]

theorem restores_string (s : String) : string.Restores s := by
  intro source form
  simp [string]

theorem decode_duration (source : Source) {x : Binary64} {d : Duration} (h : Duration.ofSeconds? x = .ok d) :
    duration.decode source (.float x) = .ok d := by
  simp only [duration, h]

/-- A span is restored that the conversion to seconds and back leaves as it is. -/
theorem restores_duration {d : Duration} (h : Duration.ofSeconds? d.toSeconds = .ok d) : duration.Restores d := by
  intro source form
  have hform : form.apply (duration.encode d) = .float d.toSeconds := form.apply_float d.toSeconds
  rw [hform]
  exact decode_duration source h

/-- An optional value is restored if the value is, and is not written as null. -/
theorem restores_option {α : Type} {inner : Codec α} {a? : Option α}
    (h : ∀ a ∈ a?, inner.Restores a ∧ inner.encode a ≠ .null) : (option inner).Restores a? := by
  intro source form
  cases a? with
  | none => simp [option]
  | some a =>
    obtain ⟨hrestores, hwritten⟩ := h a rfl
    have hread := hrestores source form
    have hform : form.apply (inner.encode a) ≠ .null := fun hnull => hwritten (form.apply_eq_null hnull)
    simp only [option, hread]
    rfl

theorem decodeParts_map {α β γ : Type} {decode : α → Except DecodeFault β} {write : γ → α} {value : γ → β}
    {parts : List γ} (h : ∀ part ∈ parts, decode (write part) = .ok (value part)) (index : Nat) :
    decodeParts decode index (parts.map write) = .ok (parts.map value) := by
  induction parts generalizing index with
  | nil => rfl
  | cons part rest ih =>
    rw [List.map_cons, decodeParts, h part List.mem_cons_self]
    rw [ih (fun other hother => h other (List.mem_cons_of_mem _ hother))]
    rfl

theorem restores_list {α : Type} {inner : Codec α} {items : List α} (h : ∀ a ∈ items, inner.Restores a) :
    (list inner).Restores items := by
  intro source form
  simp only [list, Json.Form.apply_array, List.map_map]
  refine (decodeParts_map (fun a ha => ?_) 0).trans (congrArg Except.ok (List.map_id items))
  exact h a ha source form

theorem restores_textSet (set : TextSet) : textSet.Restores set := by
  intro source form
  have hlist : (list string).Restores set.members := restores_list fun a _ => restores_string a
  have hread : (list string).decode source (form.apply (.array (set.members.map .str))) = .ok set.members :=
    hlist source form
  simp only [textSet, hread, Except.map, TextSet.ofList_members]

theorem restores_fields {entries : Fields} (h : entries.IsCanonical) : fields.Restores entries := by
  intro source form
  simp only [fields, Json.Form.apply_object, form.fields_of_isCanonical h]
  rw [h]

theorem restores_textMap (map : TextMap) : textMap.Restores map := by
  intro source form
  have hcanonical : Fields.IsCanonical (map.entries.map fun e => (e.1, .str e.2)) :=
    Json.isCanonical_of_ascending (List.pairwise_map.2 map.ascending) (List.forall_mem_map.2 fun e _ => rfl)
  have hparts : decodeParts (fun e : String × Json => (string.decode source e.2).map fun text => (e.1, text)) 0
      (map.entries.map fun e => (e.1, .str e.2)) = .ok (map.entries.map id) := by
    refine decodeParts_map (fun e _ => ?_) 0
    rfl
  rw [List.map_id] at hparts
  simp only [textMap, Json.Form.apply_object, form.fields_of_isCanonical hcanonical]
  rw [hparts]
  exact congrArg Except.ok map.ofList_entries

/-- A member of an enumeration is restored if it is the first of its name. -/
theorem restores_choice {α : Type} {members : List α} {name : α → String} {a : α}
    (h : members.find? (fun b => name b = name a) = some a) : (choice members name).Restores a := by
  intro source form
  simp [choice, h]

end Codec

/-! ## Codecs of records -/

/-- The first value of a name that stands there once is its value. -/
theorem lookup_of_mem {entries : List (String × Json)} (hnames : (entries.map Prod.fst).Nodup) {name : String}
    {json : Json} (h : (name, json) ∈ entries) : entries.lookup name = some json := by
  induction entries with
  | nil => exact absurd h List.not_mem_nil
  | cons first rest ih =>
    obtain ⟨hfirst, hrest⟩ := List.nodup_cons.1 hnames
    rcases List.mem_cons.1 h with rfl | hmem
    · exact List.lookup_cons_self
    · have hne : name ≠ first.1 := fun hname => hfirst (List.mem_map.2 ⟨_, hmem, hname⟩)
      rw [List.lookup_cons, beq_eq_false_iff_ne.2 hne]
      exact ih hrest hmem

namespace RecordReader

variable {α β : Type}

/-- Nothing is wrong with fields that have names of their own, and whose values have no fault. -/
theorem entriesFault?_eq_none {slots : List (String × RecordSlot)} {source : Source} {seen : List String}
    {index : Nat} {entries : List (String × Json)} (hnames : (entries.map Prod.fst).Nodup)
    (hseen : ∀ entry ∈ entries, entry.1 ∉ seen)
    (hfault : ∀ entry ∈ entries, ∀ slot, slots.lookup entry.1 = some slot → slot.fault? source entry.2 = none) :
    entriesFault? slots source seen index entries = none := by
  induction entries generalizing seen index with
  | nil => rfl
  | cons first rest ih =>
    obtain ⟨hfirst, hrest⟩ := List.nodup_cons.1 hnames
    have hothers := fun entry hentry => hfault entry (List.mem_cons_of_mem first hentry)
    have hunseen := fun entry hentry => hseen entry (List.mem_cons_of_mem first hentry)
    obtain ⟨name, value⟩ := first
    rw [entriesFault?]
    cases hslot : slots.lookup name with
    | none => exact ih hrest hunseen hothers
    | some slot =>
      have hnew : seen.contains name = false := by simpa using hseen _ List.mem_cons_self
      have hvalue : slot.fault? source value = none := hfault _ List.mem_cons_self slot hslot
      simp only [hnew, hvalue, Bool.false_eq_true, if_false]
      refine ih hrest (fun entry hentry => ?_) hothers
      rw [List.mem_cons, not_or]
      exact ⟨fun hname => hfirst (List.mem_map.2 ⟨entry, hentry, hname⟩), hunseen entry hentry⟩

/-- A reader reads a record from some fields, as they were written or in canonical form: every field has a slot of its
own, in the same order, where nothing is wrong with its value, and the record is what is made of the values. -/
structure Reads (reader : RecordReader α) (written : List (String × Json)) (a : α) : Prop where
  slots : List.Forall₂ (fun slot entry => slot.1 = entry.1 ∧
    ∀ (source : Source) (form : Json.Form), slot.2.fault? source (form.apply entry.2) = none) reader.slots written
  build : ∀ (source : Source) (form : Json.Form) (given : String → Option Json),
    (∀ entry ∈ written, given entry.1 = some (form.apply entry.2)) → reader.build source .object given = .ok a

namespace Reads

variable {written more : List (String × Json)} {a : α}

/-- One field. -/
theorem field {codec : Codec α} {json : Json} (h : codec.Reads json a) (name : String) (missing : Missing α) :
    (RecordReader.field name codec missing).Reads [(name, json)] a where
  slots := by
    refine .cons ⟨rfl, fun source form => ?_⟩ .nil
    simp only [Decoder.fault?, h source form]
  build := by
    intro source form given hgiven
    have hvalue := hgiven _ List.mem_cons_self
    simp only [RecordReader.field, hvalue]
    exact h source form

/-- The first fields and those behind them. -/
theorem seq {f : RecordReader (α → β)} {x : RecordReader α} {g : α → β} (hf : f.Reads written g)
    (hx : x.Reads more a) : (f <*> x).Reads (written ++ more) (g a) where
  slots := List.rel_append hf.slots hx.slots
  build := by
    intro source form given hgiven
    have hfirst := hf.build source form given fun entry hentry => hgiven entry (List.mem_append_left _ hentry)
    have hrest := hx.build source form given fun entry hentry => hgiven entry (List.mem_append_right _ hentry)
    simp only [Seq.seq, hfirst, hrest]
    rfl

theorem map {x : RecordReader α} (hx : x.Reads written a) (g : α → β) : (g <$> x).Reads written (g a) where
  slots := hx.slots
  build := by
    intro source form given hgiven
    have hrest := hx.build source form given hgiven
    simp only [Functor.map, hrest]
    rfl

theorem map_fst_slots {reader : RecordReader α} (h : reader.Reads written a) :
    reader.slots.map Prod.fst = written.map Prod.fst := by
  obtain ⟨hslots, -⟩ := h
  generalize reader.slots = slots at hslots
  induction hslots with
  | nil => rfl
  | cons hfirst _ ih => rw [List.map_cons, List.map_cons, hfirst.1, ih]

/-- Nothing is wrong with the value that stands where a slot looks for it. -/
theorem exists_of_lookup_slots {reader : RecordReader α} (h : reader.Reads written a) {name : String}
    {slot : RecordSlot} (hslot : reader.slots.lookup name = some slot) :
    ∃ json, (name, json) ∈ written ∧ ∀ source (form : Json.Form), slot.fault? source (form.apply json) = none := by
  obtain ⟨hslots, -⟩ := h
  generalize reader.slots = slots at hslots hslot
  induction hslots with
  | nil => exact absurd hslot (by simp)
  | @cons first entry slots entries hfirst _ ih =>
    obtain ⟨own, ownSlot⟩ := first
    rw [List.lookup_cons] at hslot
    by_cases hname : name = own
    · rw [beq_iff_eq.2 hname] at hslot
      cases Option.some.inj hslot
      have hentry : entry = (name, entry.2) := Prod.ext (hfirst.1.symm.trans hname.symm) rfl
      exact ⟨entry.2, hentry ▸ List.mem_cons_self, hfirst.2⟩
    · rw [beq_eq_false_iff_ne.2 hname] at hslot
      obtain ⟨json, hmem, hfault⟩ := ih hslot
      exact ⟨json, List.mem_cons_of_mem _ hmem, hfault⟩

/-- Reads the record from an object in which its fields stand among others. -/
theorem ofEntries {reader : RecordReader α} (h : reader.Reads written a) {entries : List (String × Json)}
    (hnames : (entries.map Prod.fst).Nodup) (hwritten : written ⊆ entries) (source : Source) (form : Json.Form) :
    reader.ofEntries source (form.fields entries) = .ok a := by
  have hfields : ∀ entry ∈ written, (entry.1, form.apply entry.2) ∈ form.fields entries :=
    fun entry hentry => (form.mem_fields hnames).2 ⟨entry.2, hwritten hentry, rfl⟩
  have hnone : entriesFault? reader.slots source [] 0 (form.fields entries) = none := by
    refine entriesFault?_eq_none (form.nodup_fields hnames) (by simp) fun entry hentry slot hslot => ?_
    obtain ⟨json, hmem, hjson⟩ := (form.mem_fields hnames).1 hentry
    obtain ⟨own, hown, hfault⟩ := h.exists_of_lookup_slots hslot
    -- The names are distinct, so that the value in this place is the one that was written for the slot.
    have hsame := (lookup_of_mem hnames (hwritten hown)).symm.trans (lookup_of_mem hnames hmem)
    rw [hjson, ← Option.some.inj hsame]
    exact hfault source form
  rw [RecordReader.ofEntries, hnone]
  refine h.build source form _ fun entry hentry => ?_
  exact lookup_of_mem (form.nodup_fields hnames) (hfields entry hentry)

/-- The codec of a record. -/
theorem codec {reader : RecordReader α} (h : reader.Reads written a) (title : String) (encode : α → Json)
    (hnames : (reader.slots.map Prod.fst).Nodup) : (reader.codec title encode).Reads (.object written) a := by
  intro source form
  rw [form.apply_object]
  refine h.ofEntries ?_ (List.Subset.refl written) source form
  rw [← h.map_fst_slots]
  exact hnames

end Reads

end RecordReader

end QueryRelay
