import QueryRelay.Proofs.Codec.Attention

/-!
# Fields with defaults

A record whose fields all have defaults is read from any object whose values decode: what is named is replaced, and the
rest stays as it is.

* `RecordField.Takes` — a field of a record is the decoded value that is given for it, and unchanged if there is none.
* `RecordReader.Forgiving` — a reader that needs no field, with one lemma per operation that readers are built with.
* `RecordReader.Fills` — a reader together with the fields of its record: `RecordReader.Fills.ofEntries_eq_ok_iff`
  says what is read from an object, and `RecordReader.Fills.part_iff` what a part is that may be left out.
-/

namespace QueryRelay

open Json (Interest)

/-- A field of a record: its name, how its value is read, and the value. -/
structure RecordField (ρ : Type) where
  name : String
  {Value : Type}
  codec : Codec Value
  get : ρ → Value

namespace RecordField

variable {ρ σ : Type}

/-- A field of a part of a larger record. -/
def of (f : RecordField ρ) (part : σ → ρ) : RecordField σ := ⟨f.name, f.codec, f.get ∘ part⟩

/-- How a reader looks at the value of the field. -/
def slot (f : RecordField ρ) : String × RecordSlot := (f.name, ⟨f.codec.decode.fault?, f.codec.interest⟩)

/-- A record has in the field what is given for it; if nothing is, it has what it had from the start. -/
def Takes (f : RecordField ρ) (start : ρ) (given : Option Json) (a : ρ) : Prop :=
  match given with
  | some json => f.codec.decode .text json = .ok (f.get a)
  | none => f.get a = f.get start

/-- What is given for the field decodes. -/
def Decodes (f : RecordField ρ) (given : Option Json) : Prop :=
  ∀ json ∈ given, ∃ value, f.codec.decode .text json = .ok value

variable {f : RecordField ρ} {start a : ρ} {given : Option Json}

theorem takes_iff :
    f.Takes start given a ↔
      (given = none ∧ f.get a = f.get start) ∨
        ∃ json, given = some json ∧ f.codec.decode .text json = .ok (f.get a) := by
  cases given <;> simp [Takes]

theorem takes_congr {b : ρ} (h : f.get a = f.get b) : f.Takes start given a ↔ f.Takes start given b := by
  rw [takes_iff, takes_iff, h]

namespace Takes

theorem get_eq {b : ρ} (h : f.Takes start given a) (hb : f.Takes start given b) : f.get a = f.get b := by
  cases given with
  | none => exact Eq.trans h (Eq.symm hb)
  | some json => exact Except.ok.inj (Eq.trans (Eq.symm h) hb)

theorem decodes (h : f.Takes start given a) : f.Decodes given := by
  rintro json rfl
  exact ⟨f.get a, h⟩

/-- The order of fields in the value does not matter. -/
theorem canonical (h : f.Takes start given a) (hcodec : f.codec.Thorough) :
    f.Takes start (given.map Json.canonical) a := by
  cases given with
  | none => exact h
  | some json => exact hcodec.canonical h

end Takes

end RecordField

/-- What can be given for a part of a record: an object in which no name stands twice, or nothing. -/
def IsPart (given : Option Json) : Prop :=
  ∀ json ∈ given, ∃ entries, json = .object entries ∧ (entries.map Prod.fst).Nodup

theorem IsPart.seen {given : Option Json} (h : IsPart given) {i : Interest} (hkept : i.isKept = true) :
    IsPart (given.map (Json.seen i)) := by
  intro json hjson
  obtain ⟨whole, hwhole, rfl⟩ := Option.map_eq_some_iff.1 hjson
  obtain ⟨entries, rfl, hnames⟩ := h whole hwhole
  exact ⟨Json.seenFields i entries, rfl, (Json.map_fst_seenFields hkept entries).symm ▸ hnames⟩

theorem IsPart.at?_canonical {given : Option Json} (h : IsPart given) (name : String) :
    ∀ json ∈ given, json.canonical.at? [name] = (json.at? [name]).map Json.canonical := by
  intro json hjson
  obtain ⟨entries, rfl, hnames⟩ := h json hjson
  exact Json.at?_canonical_cons hnames fun _ _ => rfl

namespace RecordReader

variable {α β ρ : Type}

/-! ## Readers that need no field -/

/-- A reader of fields that all have defaults: it looks at its own fields only, and builds a record from whatever fits
in them. -/
structure Forgiving (reader : RecordReader α) : Prop where
  attentive : reader.Attentive
  builds : ∀ (given : String → Option Json),
    (∀ slot ∈ reader.slots, ∀ json ∈ given slot.1, slot.2.fault? .text json = none) →
      ∃ a, reader.build .text .object given = .ok a

namespace Forgiving

theorem field (name : String) (codec : Codec α) (default : α) :
    (RecordReader.field name codec (.default default)).Forgiving where
  attentive := .field name codec _
  builds := by
    intro given hfaultless
    cases hgiven : given name with
    | none => exact ⟨default, by simp only [RecordReader.field, hgiven, Missing.default]⟩
    | some json =>
      obtain ⟨a, ha⟩ := Decoder.fault?_eq_none_iff.1 (hfaultless _ List.mem_cons_self json hgiven)
      exact ⟨a, by simp only [RecordReader.field, hgiven, ha]⟩

theorem seq {f : RecordReader (α → β)} {x : RecordReader α} (hf : f.Forgiving) (hx : x.Forgiving) :
    (f <*> x).Forgiving where
  attentive := hf.attentive.seq hx.attentive
  builds := by
    intro given hfaultless
    obtain ⟨g, hg⟩ := hf.builds given fun slot hslot => hfaultless slot (List.mem_append_left _ hslot)
    obtain ⟨a, ha⟩ := hx.builds given fun slot hslot => hfaultless slot (List.mem_append_right _ hslot)
    exact ⟨g a, build_eq_ok_iff.2 (yields_seq.2 ⟨g, hg, a, ha, rfl⟩)⟩

theorem map {x : RecordReader α} (hx : x.Forgiving) (g : α → β) : (g <$> x).Forgiving where
  attentive := hx.attentive.map g
  builds := by
    intro given hfaultless
    obtain ⟨a, ha⟩ := hx.builds given hfaultless
    exact ⟨g a, build_eq_ok_iff.2 (yields_map.2 ⟨a, ha, rfl⟩)⟩

end Forgiving

/-! ## Readers and the fields of their records -/

theorem careful_of_slots {reader : RecordReader α} {fields : List (RecordField ρ)}
    (hslots : reader.slots = fields.map RecordField.slot) (hfields : ∀ f ∈ fields, f.codec.Careful) :
    reader.Careful := by
  rw [Careful, hslots, List.forall_mem_map]
  intro f hf json hfault
  obtain ⟨value, hread⟩ := Decoder.fault?_eq_none_iff.1 hfault
  exact hfields f hf hread

/-- A reader fills in the fields of a record, starting from a record of defaults. -/
structure Fills (reader : RecordReader ρ) (start : ρ) (fields : List (RecordField ρ)) : Prop where
  forgiving : reader.Forgiving
  slots : reader.slots = fields.map RecordField.slot
  thorough : ∀ f ∈ fields, f.codec.Thorough
  build_iff : ∀ {given : String → Option Json} {a : ρ},
    reader.build .text .object given = .ok a ↔ ∀ f ∈ fields, f.Takes start (given f.name) a

namespace Fills

variable {reader : RecordReader ρ} {start : ρ} {fields : List (RecordField ρ)} {entries : List (String × Json)} {a : ρ}

theorem ofEntries_eq_ok_iff (h : reader.Fills start fields) (hnames : (entries.map Prod.fst).Nodup) :
    reader.ofEntries .text entries = .ok a ↔ ∀ f ∈ fields, f.Takes start (entries.lookup f.name) a :=
  (h.forgiving.attentive.ofEntries_eq_ok_iff hnames).trans h.build_iff

/-- The fields are all there is to the record. -/
theorem eq_start_iff (h : reader.Fills start fields) : (∀ f ∈ fields, f.get a = f.get start) ↔ a = start := by
  have hnothing {b : ρ} : reader.build .text .object (fun _ => none) = .ok b ↔ ∀ f ∈ fields, f.get b = f.get start :=
    h.build_iff
  constructor
  · intro ha
    exact Except.ok.inj ((hnothing.2 ha).symm.trans (hnothing.2 fun _ _ => rfl))
  · rintro rfl f _
    rfl

theorem careful (h : reader.Fills start fields) : reader.Careful :=
  careful_of_slots h.slots fun f hf => (h.thorough f hf).careful

theorem exists_ofEntries (h : reader.Fills start fields) (hnames : (entries.map Prod.fst).Nodup)
    (hdecodes : ∀ f ∈ fields, f.Decodes (entries.lookup f.name)) : ∃ a, reader.ofEntries .text entries = .ok a := by
  have hfaultless : ∀ slot ∈ reader.slots, ∀ json ∈ entries.lookup slot.1, slot.2.fault? .text json = none := by
    rw [h.slots, List.forall_mem_map]
    exact fun f hf json hjson => Decoder.fault?_eq_none_iff.2 (hdecodes f hf json hjson)
  obtain ⟨a, ha⟩ := h.forgiving.builds (fun name => entries.lookup name) hfaultless
  exact ⟨a, (h.forgiving.attentive.ofEntries_eq_ok_iff hnames).2 ha⟩

/-! ### Parts of larger records -/

/-- A part that has a default is made of its fields, whether it is given or not. -/
theorem part_iff (h : reader.Fills start fields) {given : Option Json} (hpart : IsPart given) {title : String}
    {encode : ρ → Json} :
    ((given = none ∧ a = start) ∨
        ∃ json, given = some json ∧ (reader.codec title encode).decode .text json = .ok a) ↔
      ∀ f ∈ fields, f.Takes start (given.bind (Json.at? [f.name])) a := by
  cases given with
  | none => simp [RecordField.Takes, h.eq_start_iff]
  | some json =>
    obtain ⟨entries, rfl, hnames⟩ := hpart json rfl
    have hread : (reader.codec title encode).decode .text (.object entries) = .ok a ↔ _ :=
      h.ofEntries_eq_ok_iff hnames
    simpa [Json.at?] using hread

/-- What is given for a part is read if its fields decode. -/
theorem exists_part (h : reader.Fills start fields) {given : Option Json} (hpart : IsPart given)
    (hdecodes : ∀ f ∈ fields, f.Decodes (given.bind (Json.at? [f.name]))) (title : String) (encode : ρ → Json) :
    ∀ json ∈ given, ∃ a, (reader.codec title encode).decode .text json = .ok a := by
  intro json hjson
  obtain ⟨entries, rfl, hnames⟩ := hpart json hjson
  refine h.exists_ofEntries hnames fun f hf => ?_
  have hfield := hdecodes f hf
  rw [hjson] at hfield
  simpa [Json.at?] using hfield

end Fills

end RecordReader

end QueryRelay
