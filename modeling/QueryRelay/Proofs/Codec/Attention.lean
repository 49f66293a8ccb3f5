import Mathlib.Data.List.Induction
import QueryRelay.Proofs.Codec.Accept
import QueryRelay.Proofs.Json.Scan

/-!
# What a codec looks at

A codec says what of a text is looked at when a value is decoded from it, and that is enough.

* `Codec.Careful`, `RecordReader.Careful` — the codec can look at whatever it decodes.
* `Codec.Thorough` — a codec that looks at everything, but not at the order in which the fields of an object stand.
-/

namespace QueryRelay

open Json (Interest Legible LegibleItems)

/-! ## Texts under names -/

namespace TextMap

theorem lookup_setEntry (name text other : String) (entries : List (String × String)) :
    (setEntry name text entries).lookup other = if other = name then some text else entries.lookup other := by
  induction entries with
  | nil => rw [setEntry, lookup_cons_ite]
  | cons first rest ih =>
    rw [setEntry]
    split
    · rw [lookup_cons_ite]
    · split
      · rename_i hname
        rw [lookup_cons_ite, lookup_cons_ite, hname]
        split <;> rfl
      · rename_i hname
        rw [lookup_cons_ite, lookup_cons_ite, ih]
        split
        · rename_i hother
          rw [if_neg fun h => hname (h.symm.trans hother)]
        · rfl

/-- The text of a name is the last one that was given for it. -/
theorem lookup_ofList (entries : List (String × String)) (name : String) :
    (ofList entries).entries.lookup name = entries.reverse.lookup name := by
  induction entries using List.reverseRecOn with
  | nil => rfl
  | append_singleton entries last ih =>
    rw [ofList, List.foldl_append, List.foldl_cons, List.foldl_nil, set, lookup_setEntry, List.reverse_concat,
      lookup_cons_ite, ← ih, ofList]

end TextMap

/-- Texts under names in canonical form are the map of these texts. -/
theorem Json.canonicalFields_texts (texts : List (String × String)) :
    canonicalFields (texts.map fun entry => (entry.1, .str entry.2)) =
      (TextMap.ofList texts).entries.map fun entry => (entry.1, .str entry.2) := by
  have hmap : Fields.Ascending ((TextMap.ofList texts).entries.map fun entry => (entry.1, .str entry.2)) :=
    List.pairwise_map.2 (TextMap.ofList texts).ascending
  refine (ascending_canonicalFields _).eq_of_mem_iff hmap fun ⟨name, json⟩ => ?_
  rw [Fields.mem_iff_lookup (ascending_canonicalFields _).nodup, Fields.mem_iff_lookup hmap.nodup,
    lookup_canonicalFields, ← List.map_reverse, lookup_map_snd, lookup_map_snd, TextMap.lookup_ofList, Option.map_map]
  rfl

theorem Decoder.fault?_eq_none_iff {α : Type} {decode : Decoder α} {source : Source} {json : Json} :
    decode.fault? source json = none ↔ ∃ a, decode source json = .ok a := by
  rw [fault?]
  cases decode source json <;> simp

namespace Codec

variable {α : Type}

/-- What is decoded can be looked at. -/
def Careful (c : Codec α) : Prop :=
  ∀ {json : Json} {a : α}, c.decode .text json = .ok a → Legible c.interest json

/-- Everything is looked at, and the order of fields does not matter. -/
structure Thorough (c : Codec α) : Prop where
  full : c.interest.IsFull
  careful : c.Careful
  canonical : ∀ {json : Json} {a : α}, c.decode .text json = .ok a → c.decode .text json.canonical = .ok a

/-! ## Plain values -/

theorem thorough_of_whole {c : Codec α} (hwhole : c.interest = .whole)
    (hcanonical : ∀ {json : Json} {a : α}, c.decode .text json = .ok a → c.decode .text json.canonical = .ok a) :
    c.Thorough where
  full := by
    rw [hwhole]
    exact Interest.isFull_whole
  careful := by
    intro json a _
    rw [hwhole]
    exact Json.legible_of_isSimple .whole json
  canonical := hcanonical

/-- A codec that reads no list and no object. -/
theorem thorough_of_plain {c : Codec α} (hwhole : c.interest = .whole)
    (harray : ∀ items a, c.decode .text (.array items) ≠ .ok a)
    (hobject : ∀ entries a, c.decode .text (.object entries) ≠ .ok a) : c.Thorough := by
  refine thorough_of_whole hwhole fun {json a} h => ?_
  cases json with
  | array items => exact absurd h (harray items a)
  | object entries => exact absurd h (hobject entries a)
  | _ => exact h

theorem thorough_natBelow (bound : Nat) (expected : String) : (natBelow bound expected).Thorough :=
  thorough_of_plain rfl nofun nofun

theorem thorough_size : size.Thorough := thorough_natBelow _ _

theorem thorough_unsigned32 : unsigned32.Thorough := thorough_natBelow _ _

theorem thorough_bool : bool.Thorough := thorough_of_plain rfl nofun nofun

theorem thorough_string : string.Thorough := thorough_of_plain rfl nofun nofun

theorem thorough_duration : duration.Thorough := thorough_of_plain rfl nofun nofun

/-! ## Choices, options and lists -/

theorem eq_singleton_of_decode_choice {members : List α} {name : α → String} {entries : List (String × Json)} {a : α}
    (h : (choice members name).decode .text (.object entries) = .ok a) : ∃ given, entries = [(given, .null)] := by
  cases entries with
  | nil => cases h
  | cons first rest =>
    obtain ⟨given, content⟩ := first
    simp only [choice] at h
    split at h
    · cases hcontent : content with
      | null =>
        cases rest with
        | nil => exact ⟨given, rfl⟩
        | cons second rest => simp [hcontent, Except.bind] at h
      | _ => simp [hcontent, Except.bind] at h
    · cases h

theorem thorough_choice (members : List α) (name : α → String) : (choice members name).Thorough where
  full := Interest.isFull_choice
  careful := by
    intro json a h
    cases json with
    | object entries =>
      obtain ⟨given, rfl⟩ := eq_singleton_of_decode_choice h
      exact ⟨Nat.le_refl 1, trivial, trivial⟩
    | array items => cases h
    | _ => trivial
  canonical := by
    intro json a h
    cases json with
    | object entries =>
      obtain ⟨given, rfl⟩ := eq_singleton_of_decode_choice h
      exact h
    | array items => cases h
    | _ => exact h

theorem thorough_option {inner : Codec α} (h : inner.Thorough) : (option inner).Thorough where
  full := h.full
  careful := by
    intro json a? hread
    rcases decode_option_eq_ok_iff.1 hread with ⟨rfl, -⟩ | ⟨-, a, hinner, -⟩
    · trivial
    · exact h.careful hinner
  canonical := by
    intro json a? hread
    rcases decode_option_eq_ok_iff.1 hread with ⟨rfl, -⟩ | ⟨hjson, a, hinner, rfl⟩
    · exact hread
    · refine decode_option_eq_ok_iff.2 (.inr ⟨fun hnull => hjson ?_, a, h.canonical hinner, rfl⟩)
      exact Json.Form.canonical.apply_eq_null hnull

/-- All parts are read, each as a value. -/
theorem decodeParts_eq_ok_iff {β : Type} {decode : α → Except DecodeFault β} {index : Nat} {parts : List α}
    {values : List β} :
    decodeParts decode index parts = .ok values ↔
      List.Forall₂ (fun part value => decode part = .ok value) parts values := by
  induction parts generalizing index values with
  | nil => cases values <;> simp [decodeParts]
  | cons part rest ih =>
    rw [decodeParts, List.forall₂_cons_left_iff]
    cases hpart : decode part with
    | error fault => simp
    | ok value =>
      simp only [Except.ok.injEq, ← @ih (index + 1)]
      cases decodeParts decode (index + 1) rest with
      | error fault => simp [Except.map]
      | ok others => simp [Except.map, eq_comm]

/-- What a codec of lists reads. -/
theorem decode_list_eq_ok_iff {inner : Codec α} {source : Source} {json : Json} {values : List α} :
    (list inner).decode source json = .ok values ↔
      ∃ items, json = .array items ∧
        List.Forall₂ (fun item value => inner.decode source item = .ok value) items values := by
  cases json <;> simp [list, decodeParts_eq_ok_iff]

theorem thorough_list {inner : Codec α} (h : inner.Thorough) : (list inner).Thorough where
  full := Interest.isFull_items h.full
  careful := by
    intro json values hread
    obtain ⟨items, rfl, hitems⟩ := decode_list_eq_ok_iff.1 hread
    have hlegible : List.Forall₂ (fun item value => Legible inner.interest item ∧ inner.decode .text item = .ok value)
        items values := hitems.imp fun _ _ hitem => ⟨h.careful hitem, hitem⟩
    exact Json.legibleItems_items_iff.2 ((List.forall₂_and_left ..).1 hlegible).1
  canonical := by
    intro json values hread
    obtain ⟨items, rfl, hitems⟩ := decode_list_eq_ok_iff.1 hread
    refine decode_list_eq_ok_iff.2 ⟨_, rfl, ?_⟩
    rw [Json.canonicalItems_eq_map, List.forall₂_map_left_iff]
    exact hitems.imp fun _ _ => h.canonical

/-! ## Sets and maps -/

theorem decode_string_eq_ok_iff {source : Source} {json : Json} {s : String} :
    string.decode source json = .ok s ↔ json = .str s := by
  cases json <;> simp [string]

theorem map_eq_ok_iff {β : Type} {read : Except DecodeFault α} {f : α → β} {b : β} :
    read.map f = .ok b ↔ ∃ a, read = .ok a ∧ f a = b := by
  cases read <;> simp [Except.map]

/-- What is made of a value that is read whatever the order of fields is read in any order as well. -/
theorem Thorough.canonical_of_map {β : Type} {c : Codec α} (h : c.Thorough) {d : Codec β} {f : α → β}
    (hdecode : ∀ json, d.decode .text json = (c.decode .text json).map f) {json : Json} {b : β}
    (hread : d.decode .text json = .ok b) : d.decode .text json.canonical = .ok b := by
  rw [hdecode] at hread ⊢
  obtain ⟨a, ha, hb⟩ := map_eq_ok_iff.1 hread
  exact map_eq_ok_iff.2 ⟨a, h.canonical ha, hb⟩

theorem thorough_textSet : textSet.Thorough :=
  thorough_of_whole rfl ((thorough_list thorough_string).canonical_of_map fun _ => rfl)

theorem thorough_failureKinds : FailureKinds.codec.Thorough where
  full := (thorough_list (thorough_choice _ _)).full
  careful := by
    intro json set h
    obtain ⟨kinds, hread, -⟩ := map_eq_ok_iff.1 h
    exact (thorough_list (thorough_choice _ _)).careful hread
  canonical := (thorough_list (thorough_choice FailureKind.all FailureKind.name)).canonical_of_map fun _ => rfl

theorem thorough_textMap : textMap.Thorough := by
  refine thorough_of_whole rfl fun {json map} h => ?_
  cases json with
  | object entries =>
    obtain ⟨texts, hread, rfl⟩ := map_eq_ok_iff.1 h
    have hentries : List.Forall₂ (· = ·) entries (texts.map fun entry => (entry.1, .str entry.2)) := by
      refine List.forall₂_map_right_iff.2 ((decodeParts_eq_ok_iff.1 hread).imp fun entry text hentry => ?_)
      obtain ⟨s, hs, rfl⟩ := map_eq_ok_iff.1 hentry
      exact Prod.ext rfl (decode_string_eq_ok_iff.1 hs)
    rw [List.forall₂_eq_eq_eq] at hentries
    rw [hentries, Json.canonical, Json.canonicalFields_texts]
    exact restores_textMap (TextMap.ofList texts) .text .written
  | _ => cases h

end Codec

/-! ## Records -/

namespace RecordReader

variable {α : Type}

/-- Whatever fits in a field can be looked at. -/
def Careful (reader : RecordReader α) : Prop :=
  ∀ slot ∈ reader.slots, ∀ json, slot.2.fault? .text json = none → Legible slot.2.interest json

theorem fault?_of_entriesFault? {slots : List (String × RecordSlot)} {source : Source} {seen : List String}
    {index : Nat} {entries : List (String × Json)} (h : entriesFault? slots source seen index entries = none)
    {entry : String × Json} (hentry : entry ∈ entries) {slot : RecordSlot} (hslot : slots.lookup entry.1 = some slot) :
    slot.fault? source entry.2 = none := by
  induction entries generalizing seen index with
  | nil => exact absurd hentry List.not_mem_nil
  | cons first rest ih =>
    obtain ⟨name, value⟩ := first
    rw [entriesFault?] at h
    cases hfirst : slots.lookup name with
    | none =>
      rw [hfirst] at h
      rcases List.mem_cons.1 hentry with rfl | hrest
      · rw [hfirst] at hslot
        cases hslot
      · exact ih h hrest
    | some firstSlot =>
      simp only [hfirst] at h
      split at h
      · cases h
      · split at h
        · cases h
        · rename_i hfault
          rcases List.mem_cons.1 hentry with rfl | hrest
          · rw [hfirst] at hslot
            rw [← Option.some.inj hslot]
            exact hfault
          · exact ih h hrest

/-- The interest in a field of a record, and in what stands beside its fields. -/
theorem field_interestBeside (reader : RecordReader α) (others : Interest) (name : String) :
    (reader.interestBeside others).field name = ((reader.slots.lookup name).map RecordSlot.interest).getD others := by
  rw [← lookup_map_snd]
  rfl

namespace Careful

variable {reader : RecordReader α}

/-- An object can be looked at in whose fields there is no fault. -/
theorem legible_object (h : reader.Careful) {others : Interest} (hothers : others.IsSimple)
    {entries : List (String × Json)} {a : α} (hread : reader.ofEntries .text entries = .ok a) :
    Legible (reader.interestBeside others) (.object entries) := by
  refine ⟨trivial, Json.legibleFields_iff.2 fun entry hentry => ?_⟩
  rw [ofEntries] at hread
  split at hread
  · cases hread
  · rename_i hnone
    rw [field_interestBeside]
    cases hslot : reader.slots.lookup entry.1 with
    | none => exact Json.legible_of_isSimple hothers entry.2
    | some slot => exact h _ (mem_of_lookup hslot) entry.2 (fault?_of_entriesFault? hnone hentry hslot)

theorem legibleItems {slots : List (String × RecordSlot)}
    (h : ∀ slot ∈ slots, ∀ json, slot.2.fault? .text json = none → Legible slot.2.interest json) {others : Interest}
    {items : List Json} (index : Nat) (hfault : itemsFault? .text index slots items = none)
    (hlength : items.length ≤ slots.length) :
    LegibleItems (.fields (slots.map fun slot => (slot.1, slot.2.interest)) others) items := by
  induction items generalizing slots index with
  | nil => trivial
  | cons item rest ih =>
    cases slots with
    | nil => exact absurd hlength (Nat.not_succ_le_zero _)
    | cons slot slots =>
      obtain ⟨hfirst, hothers⟩ := List.forall_mem_cons.1 h
      rw [itemsFault?] at hfault
      split at hfault
      · cases hfault
      · rename_i hnone
        exact ⟨hfirst item hnone, ih hothers (index + 1) hfault (Nat.le_of_succ_le_succ hlength)⟩

/-- A list can be looked at in whose items there is no fault. -/
theorem legible_array (h : reader.Careful) {others : Interest} {title : String} {items : List Json} {a : α}
    (hread : reader.ofItems title .text items = .ok a) : Legible (reader.interestBeside others) (.array items) := by
  have hitems : itemsFault? .text 0 reader.slots items = none ∧ items.length ≤ reader.slots.length := by
    simp only [ofItems] at hread
    split at hread
    · cases hread
    · rename_i hnone
      split at hread
      · cases hread
      · cases hread
      · split at hread
        · rename_i hlength
          exact ⟨hnone, by simpa using hlength⟩
        · cases hread
  exact legibleItems h 0 hitems.1 hitems.2

theorem codec (h : reader.Careful) (title : String) (encode : α → Json) : (reader.codec title encode).Careful := by
  intro json a hread
  cases json with
  | object entries => exact h.legible_object .none hread
  | array items => exact h.legible_array hread
  | _ => trivial

end Careful

end RecordReader

end QueryRelay
