import QueryRelay.Proofs.Codec.Canonical
import QueryRelay.Proofs.Codec.Data

/-!
# What a reader of records accepts

A record is read if every field that it needs is there and fits; what else stands beside these fields does not matter.
Readers are built from one another, and so is this.

* `IsCount` — a count that stands under a name, and with it what the codecs of plain values accept.
* `RecordReader.Attentive` — a reader that looks at its own fields, and builds nothing from a field in which there is a
  fault; with one lemma per operation that readers are built with.
* `RecordReader.Attentive.ofEntries_eq_ok_iff`, `RecordReader.Attentive.ofItems_eq_ok_iff` — **a record is read exactly
  if it can be built**, from an object and from a list.
* `RecordReader.Attentive.ofEntries_congr` — **other fields do not matter**, not even to the wording of a fault.
-/

namespace QueryRelay

/-! ## Plain values -/

/-- A value is there, and it is the count `n`. -/
def IsCount (n : Nat) (json? : Option Json) : Prop := json? = some (.ofNat n) ∧ Fits64 n

namespace Codec

variable {source : Source} {json : Json}

theorem decode_unsigned64_eq_ok_iff {n : Nat} :
    unsigned64.decode source json = .ok n ↔ json = .ofNat n ∧ Fits64 n := by
  constructor
  · intro h
    cases json with
    | int i =>
      simp only [unsigned64, natBelow] at h
      split at h
      · rename_i hbounds
        obtain rfl := Except.ok.inj h
        refine ⟨congrArg Json.int (Int.toNat_of_nonneg hbounds.1).symm, ?_⟩
        rw [Fits64]
        omega
      · cases h
    | _ => cases h
  · rintro ⟨rfl, hfits⟩
    exact restores_unsigned64 hfits source .written

theorem decode_bool_eq_ok_iff {b : Bool} : bool.decode source json = .ok b ↔ json = .bool b := by
  cases json <;> simp [bool]

theorem decode_fields_eq_ok_iff {found : Fields} :
    fields.decode source json = .ok found ↔
      ∃ entries, json = .object entries ∧ Json.canonicalFields entries = found := by
  cases json <;> simp [fields]

theorem decode_option_eq_ok_iff {α : Type} {inner : Codec α} {a? : Option α} :
    (option inner).decode source json = .ok a? ↔
      (json = .null ∧ a? = none) ∨ (json ≠ .null ∧ ∃ a, inner.decode source json = .ok a ∧ a? = some a) := by
  have hmap : (inner.decode source json).map some = .ok a? ↔
      ∃ a, inner.decode source json = .ok a ∧ a? = some a := by
    cases inner.decode source json with
    | error fault => simp [Except.map]
    | ok a => simp [Except.map, eq_comm]
  cases json with
  | null => simp [option, eq_comm]
  | _ => simp [option, hmap]

end Codec

namespace RecordReader

variable {α β : Type}

/-! ## What a record is built from -/

section Yields

variable {source : Source} {shape : RecordShape} {given : String → Option Json}

/-- A record is built from what is given, and it is as wanted. -/
def Yields (reader : RecordReader α) (source : Source) (shape : RecordShape) (given : String → Option Json)
    (wanted : α → Prop) : Prop :=
  ∃ a, reader.build source shape given = .ok a ∧ wanted a

theorem build_eq_ok_iff {reader : RecordReader α} {a : α} :
    reader.build source shape given = .ok a ↔ reader.Yields source shape given (· = a) := by
  simp [Yields]

/-- A field that has to be given is decoded from the value. -/
theorem yields_field {name : String} {codec : Codec α} {wanted : α → Prop} :
    (field name codec .refused).Yields source shape given wanted ↔
      ∃ a, (∃ json, given name = some json ∧ codec.decode source json = .ok a) ∧ wanted a := by
  simp only [Yields, field]
  cases given name with
  | none => cases shape <;> simp [Missing.refused]
  | some json => simp

/-- A field that has a default is decoded from the value, and is the default if there is none. -/
theorem yields_field_default {name : String} {codec : Codec α} {default : α} {wanted : α → Prop} :
    (field name codec (.default default)).Yields source shape given wanted ↔
      ∃ a, ((given name = none ∧ a = default) ∨
        ∃ json, given name = some json ∧ codec.decode source json = .ok a) ∧ wanted a := by
  simp only [Yields, field]
  cases given name with
  | none => cases shape <;> simp [Missing.default]
  | some json => simp

theorem yields_count {name : String} {wanted : Nat → Prop} :
    (field name Codec.unsigned64 .refused).Yields source shape given wanted ↔
      ∃ n, IsCount n (given name) ∧ wanted n := by
  rw [yields_field]
  refine exists_congr fun n => and_congr_left fun _ => ?_
  simp only [Codec.decode_unsigned64_eq_ok_iff, IsCount]
  constructor
  · rintro ⟨_, hgiven, rfl, hfits⟩
    exact ⟨hgiven, hfits⟩
  · rintro ⟨hgiven, hfits⟩
    exact ⟨_, hgiven, rfl, hfits⟩

theorem yields_bool {name : String} {wanted : Bool → Prop} :
    (field name Codec.bool .refused).Yields source shape given wanted ↔
      ∃ b, given name = some (.bool b) ∧ wanted b := by
  simp only [yields_field, Codec.decode_bool_eq_ok_iff, exists_eq_right]

/-- An object in canonical form is taken as it is. -/
theorem yields_fields {name : String} (hcanonical : ∀ json ∈ given name, json.canonical = json)
    {wanted : Fields → Prop} :
    (field name Codec.fields .refused).Yields source shape given wanted ↔
      ∃ found, given name = some (.object found) ∧ wanted found := by
  rw [yields_field]
  refine exists_congr fun found => and_congr_left fun _ => ?_
  simp only [Codec.decode_fields_eq_ok_iff]
  constructor
  · rintro ⟨_, hjson, entries, rfl, rfl⟩
    rw [hjson, Json.object.inj (hcanonical _ hjson)]
  · intro hjson
    exact ⟨_, hjson, found, rfl, Json.object.inj (hcanonical _ hjson)⟩

theorem yields_seq {f : RecordReader (α → β)} {x : RecordReader α} {wanted : β → Prop} :
    (f <*> x).Yields source shape given wanted ↔
      f.Yields source shape given fun g => x.Yields source shape given fun a => wanted (g a) := by
  simp only [Yields, Seq.seq]
  cases f.build source shape given with
  | error fault => simp
  | ok g => cases x.build source shape given <;> simp [Except.map]

theorem yields_map {g : α → β} {x : RecordReader α} {wanted : β → Prop} :
    (g <$> x).Yields source shape given wanted ↔ x.Yields source shape given fun a => wanted (g a) := by
  simp only [Yields, Functor.map]
  cases x.build source shape given <;> simp [Except.map]

end Yields

/-! ## Readers that look at their fields -/

/-- A reader that looks at nothing but its own fields, and builds nothing from a value in which there is a fault. -/
structure Attentive (reader : RecordReader α) : Prop where
  congr : ∀ (source : Source) (shape : RecordShape) {given given' : String → Option Json},
    (∀ slot ∈ reader.slots, given slot.1 = given' slot.1) →
      reader.build source shape given = reader.build source shape given'
  faultless : ∀ {source : Source} {shape : RecordShape} {given : String → Option Json} {a : α},
    reader.build source shape given = .ok a →
      ∀ slot ∈ reader.slots, ∀ json ∈ given slot.1, slot.2.fault? source json = none

/-- What is told of the outcome of reading: the record, or the wording of the fault. -/
abbrev told (read : Except DecodeFault α) : Except String α := read.mapError DecodeFault.message

namespace Attentive

theorem field (name : String) (codec : Codec α) (missing : Missing α) :
    (RecordReader.field name codec missing).Attentive where
  congr := by
    intro source shape given given' hsame
    have hname : given name = given' name := hsame _ List.mem_cons_self
    simp only [RecordReader.field, hname]
  faultless := by
    intro source shape given a hbuild slot hslot json hjson
    obtain rfl := List.mem_singleton.1 hslot
    have hgiven : given name = some json := hjson
    simp only [RecordReader.field, hgiven] at hbuild
    simp only [Decoder.fault?, hbuild]

theorem seq {f : RecordReader (α → β)} {x : RecordReader α} (hf : f.Attentive) (hx : x.Attentive) :
    (f <*> x).Attentive where
  congr := by
    intro source shape given given' hsame
    have hfirst := hf.congr source shape fun slot hslot => hsame slot (List.mem_append_left _ hslot)
    have hrest := hx.congr source shape fun slot hslot => hsame slot (List.mem_append_right _ hslot)
    simp only [Seq.seq, hfirst, hrest]
  faultless := by
    intro source shape given b hbuild slot hslot
    obtain ⟨g, hg, a, ha, -⟩ := yields_seq.1 (build_eq_ok_iff.1 hbuild)
    rcases List.mem_append.1 hslot with hfirst | hrest
    · exact hf.faultless hg slot hfirst
    · exact hx.faultless ha slot hrest

theorem map {x : RecordReader α} (hx : x.Attentive) (g : α → β) : (g <$> x).Attentive where
  congr := by
    intro source shape given given' hsame
    have hrest := hx.congr source shape hsame
    simp only [Functor.map, hrest]
  faultless := by
    intro source shape given b hbuild
    obtain ⟨a, ha, -⟩ := yields_map.1 (build_eq_ok_iff.1 hbuild)
    exact hx.faultless ha

variable {reader : RecordReader α} {source : Source} {a : α}

/-! ### Objects -/

theorem ofEntries_eq_ok_iff (h : reader.Attentive) {entries : List (String × Json)}
    (hnames : (entries.map Prod.fst).Nodup) :
    reader.ofEntries source entries = .ok a ↔
      reader.build source .object (fun name => entries.lookup name) = .ok a := by
  constructor
  · intro hread
    rw [ofEntries] at hread
    split at hread
    · cases hread
    · exact hread
  · intro hbuild
    have hnone : entriesFault? reader.slots source [] 0 entries = none := by
      refine entriesFault?_eq_none hnames (by simp) fun entry hentry slot hslot => ?_
      exact h.faultless hbuild _ (mem_of_lookup hslot) entry.2 (lookup_of_mem hnames hentry)
    rw [ofEntries, hnone]
    exact hbuild

/-- The wording of the first fault depends on the entries of the slots only. -/
theorem message_entriesFault? (slots : List (String × RecordSlot)) (seen : List String) (index index' : Nat)
    (entries : List (String × Json)) :
    (entriesFault? slots source seen index entries).map DecodeFault.message =
      (entriesFault? slots source seen index'
        (entries.filter fun entry => (slots.lookup entry.1).isSome)).map DecodeFault.message := by
  induction entries generalizing seen index index' with
  | nil => rfl
  | cons first rest ih =>
    obtain ⟨name, value⟩ := first
    cases hslot : slots.lookup name with
    | none =>
      rw [List.filter_cons_of_neg (by simp [hslot])]
      simp only [entriesFault?, hslot]
      exact ih seen (index + 1) index'
    | some slot =>
      rw [List.filter_cons_of_pos (by simp [hslot])]
      simp only [entriesFault?, hslot]
      split
      · rfl
      · cases slot.fault? source value with
        | some fault => rfl
        | none => exact ih (name :: seen) (index + 1) (index' + 1)

/-- **Other fields do not matter**: the record is read, or the fault is worded, from the fields that the reader has. -/
theorem ofEntries_congr (h : reader.Attentive) {entries others : Fields} (hentries : entries.Ascending)
    (hothers : others.Ascending) (hsame : ∀ slot ∈ reader.slots, entries.lookup slot.1 = others.lookup slot.1) :
    told (reader.ofEntries source entries) = told (reader.ofEntries source others) := by
  have hknown : ∀ name, (reader.slots.lookup name).isSome = true → entries.lookup name = others.lookup name := by
    intro name hname
    obtain ⟨slot, hslot⟩ := Option.isSome_iff_exists.1 hname
    exact hsame (name, slot) (mem_of_lookup hslot)
  have hfilter := hentries.filter_eq_of_lookup hothers hknown
  have hmessage : (entriesFault? reader.slots source [] 0 entries).map DecodeFault.message =
      (entriesFault? reader.slots source [] 0 others).map DecodeFault.message := by
    rw [message_entriesFault? reader.slots [] 0 0 entries, hfilter, ← message_entriesFault?]
  have hbuild : reader.build source .object (fun name => entries.lookup name) =
      reader.build source .object fun name => others.lookup name := h.congr source .object hsame
  rw [ofEntries, ofEntries, hbuild]
  revert hmessage
  cases entriesFault? reader.slots source [] 0 entries <;> cases entriesFault? reader.slots source [] 0 others <;>
    simp [told, Except.mapError]

/-! ### Lists -/

theorem itemsFault?_eq_none {slots : List (String × RecordSlot)} {items : List Json} (index : Nat)
    (hfault : ∀ pair ∈ slots.zip items, pair.1.2.fault? source pair.2 = none) :
    itemsFault? source index slots items = none := by
  induction slots generalizing index items with
  | nil => rfl
  | cons slot slots ih =>
    cases items with
    | nil => rfl
    | cons item items =>
      have hfirst : slot.2.fault? source item = none := hfault (slot, item) List.mem_cons_self
      simp only [itemsFault?, hfirst]
      exact ih (index + 1) fun pair hpair => hfault pair (List.mem_cons_of_mem _ hpair)

theorem nodup_map_fst_zip {names : List String} (hnames : names.Nodup) (items : List Json) :
    ((names.zip items).map Prod.fst).Nodup := by
  induction names generalizing items with
  | nil => exact List.nodup_nil
  | cons name names ih =>
    obtain ⟨hname, hrest⟩ := List.nodup_cons.1 hnames
    cases items with
    | nil => exact List.nodup_nil
    | cons item items =>
      refine List.nodup_cons.2 ⟨fun hmem => ?_, ih hrest items⟩
      obtain ⟨pair, hpair, rfl⟩ := List.mem_map.1 hmem
      exact hname (List.of_mem_zip hpair).1

theorem ofItems_eq_ok_iff (h : reader.Attentive) (hnames : (reader.slots.map Prod.fst).Nodup) {title : String}
    {items : List Json} :
    reader.ofItems title source items = .ok a ↔
      items.length ≤ (reader.slots.map Prod.fst).length ∧
        reader.build source .list (fun name => ((reader.slots.map Prod.fst).zip items).lookup name) = .ok a := by
  constructor
  · intro hread
    simp only [ofItems] at hread
    split at hread
    · cases hread
    · split at hread
      · cases hread
      · cases hread
      · rename_i record hbuild
        split at hread
        · rename_i hlength
          obtain rfl := Except.ok.inj hread
          exact ⟨hlength, hbuild⟩
        · split at hread <;> cases hread
  · rintro ⟨hlength, hbuild⟩
    have hnone : itemsFault? source 0 reader.slots items = none := by
      refine itemsFault?_eq_none 0 fun pair hpair => ?_
      have hmem : (pair.1.1, pair.2) ∈ (reader.slots.map Prod.fst).zip items := by
        rw [List.zip_map_left]
        exact List.mem_map.2 ⟨pair, hpair, rfl⟩
      have hgiven := lookup_of_mem (nodup_map_fst_zip hnames items) hmem
      exact h.faultless hbuild pair.1 (List.of_mem_zip hpair).1 pair.2 hgiven
    simp only [ofItems, hnone, hbuild, if_pos hlength]

end Attentive

end RecordReader

end QueryRelay
