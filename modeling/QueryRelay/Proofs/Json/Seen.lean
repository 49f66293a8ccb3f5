import QueryRelay.Proofs.Codec.Canonical

/-!
# What is seen of a value

Whoever reads a text with an interest looks at some parts of its value and passes over the others.

* `Json.seen` — what an interest leaves of a value; an interest in everything leaves it as it is
  (`Json.Interest.IsFull`).
* `Json.Legible` — a value that an interest can be taken in: where a name is looked for, no object has two fields.
* `Json.at?` — what stands at a path of names.  What is looked at is found where it stands (`Json.at?_seen`), and it is
  found there whatever the order of the fields (`Json.at?_canonical_cons`).
-/

namespace QueryRelay

/-! ## Looking up names -/

theorem lookup_cons_ite {α : Type} (name : String) (first : String × α) (rest : List (String × α)) :
    (first :: rest).lookup name = if name = first.1 then some first.2 else rest.lookup name := by
  by_cases hname : name = first.1
  · rw [List.lookup_cons, beq_iff_eq.2 hname, if_pos hname]
  · rw [List.lookup_cons, beq_eq_false_iff_ne.2 hname, if_neg hname]

theorem lookup_map_snd {α β : Type} (f : α → β) (entries : List (String × α)) (name : String) :
    (entries.map fun entry => (entry.1, f entry.2)).lookup name = (entries.lookup name).map f := by
  induction entries with
  | nil => rfl
  | cons first rest ih =>
    rw [List.map_cons, lookup_cons_ite, lookup_cons_ite, ih]
    split <;> rfl

theorem lookup_eq_none_of_lt {fields : Fields} {name : String} (h : ∀ entry ∈ fields, name < entry.1) :
    fields.lookup name = none := by
  refine List.lookup_eq_none_iff.2 fun entry hentry => bne_iff_ne.2 ?_
  rintro rfl
  exact String.lt_irrefl _ (h entry hentry)

theorem lookup_reverse {entries : List (String × Json)} (hnames : (entries.map Prod.fst).Nodup) (name : String) :
    entries.reverse.lookup name = entries.lookup name := by
  have hreverse : (entries.reverse.map Prod.fst).Nodup := by
    rw [List.map_reverse, List.nodup_reverse]
    exact hnames
  refine Option.ext fun json => ?_
  have hmem : (name, json) ∈ entries.reverse ↔ (name, json) ∈ entries := List.mem_reverse
  rw [Fields.mem_iff_lookup hreverse, Fields.mem_iff_lookup hnames] at hmem
  simpa [eq_comm] using hmem

namespace Json

/-! ## Definitions -/

mutual

/-- What an interest leaves of a value. -/
def seen (i : Interest) : Json → Json
  | .null => .null
  | .bool b => .bool b
  | .int n => if i.isKept then .int n else unread
  | .float x => if i.isKept then .float x else unread
  | .str s => .str (if i.isKept then s else "")
  | .array items => .array (seenItems i items)
  | .object fields => .object (seenFields i fields)

def seenItems (i : Interest) : List Json → List Json
  | [] => []
  | item :: rest => seen i.item item :: seenItems i.afterItem rest

def seenFields (i : Interest) : List (String × Json) → List (String × Json)
  | [] => []
  | (name, value) :: rest => (if i.isKept then name else "", seen (i.field name) value) :: seenFields i rest

end

/-- Whether an object with such fields can be looked at: a name stands as that of the one field. -/
def Interest.Bears (i : Interest) (fields : List (String × Json)) : Prop :=
  match i with
  | .choice => fields.length ≤ 1
  | _ => True

mutual

/-- An interest can be taken in a value. -/
def Legible (i : Interest) : Json → Prop
  | .array items => LegibleItems i items
  | .object fields => i.Bears fields ∧ LegibleFields i fields
  | _ => True

def LegibleItems (i : Interest) : List Json → Prop
  | [] => True
  | item :: rest => Legible i.item item ∧ LegibleItems i.afterItem rest

def LegibleFields (i : Interest) : List (String × Json) → Prop
  | [] => True
  | (name, value) :: rest => Legible (i.field name) value ∧ LegibleFields i rest

end

/-- What stands at a path of names. -/
def at? : List String → Json → Option Json
  | [], json => some json
  | name :: path, .object entries => (entries.lookup name).bind (at? path)
  | _ :: _, _ => none

/-! ## Interests that leave everything -/

mutual

theorem seen_whole : (json : Json) → seen .whole json = json
  | .null => rfl
  | .bool _ => rfl
  | .int _ => rfl
  | .float _ => rfl
  | .str _ => rfl
  | .array items => by rw [seen, seenItems_whole items]
  | .object entries => by rw [seen, seenFields_whole entries]

theorem seenItems_whole : (items : List Json) → seenItems .whole items = items
  | [] => rfl
  | item :: rest => congrArg₂ List.cons (seen_whole item) (seenItems_whole rest)

theorem seenFields_whole : (entries : List (String × Json)) → seenFields .whole entries = entries
  | [] => rfl
  | (_, value) :: rest =>
    congrArg₂ List.cons (congrArg (Prod.mk _) (seen_whole value)) (seenFields_whole rest)

end

namespace Interest

/-- Nothing is passed over. -/
def IsFull (i : Interest) : Prop := ∀ json, seen i json = json

variable {i : Interest}

theorem IsFull.isKept (h : i.IsFull) : i.isKept = true := by
  cases i with
  | none => exact absurd (h (.int 0)) Json.noConfusion
  | _ => rfl

theorem isFull_whole : whole.IsFull := seen_whole

/-- An interest that is one in everything as soon as it comes to parts. -/
theorem isFull_of_fields (hkept : i.isKept = true) (hfield : ∀ name, i.field name = whole)
    (hitems : ∀ items, seenItems i items = items) : i.IsFull := by
  have hfields (entries : List (String × Json)) : seenFields i entries = entries := by
    induction entries with
    | nil => rfl
    | cons first rest ih => rw [seenFields, if_pos hkept, hfield, seen_whole, ih]
  intro json
  cases json with
  | array items => rw [seen, hitems]
  | object entries => rw [seen, hfields]
  | _ => simp [seen, hkept]

theorem isFull_choice : choice.IsFull := by
  refine isFull_of_fields rfl (fun _ => rfl) fun items => ?_
  induction items with
  | nil => rfl
  | cons item rest ih => exact congrArg₂ List.cons (seen_whole item) ih

theorem isFull_items {each : Interest} (h : each.IsFull) : (items each).IsFull := by
  refine isFull_of_fields rfl (fun _ => rfl) fun items => ?_
  induction items with
  | nil => rfl
  | cons item rest ih => exact congrArg₂ List.cons (h item) ih

end Interest

/-! ## Interests that can be taken in every value -/

namespace Interest

/-- No name is looked for. -/
inductive IsSimple : Interest → Prop where
  | whole : IsSimple whole
  | none : IsSimple none

namespace IsSimple

variable {i : Interest}

theorem item (h : i.IsSimple) : i.item.IsSimple := by cases h <;> constructor

theorem afterItem (h : i.IsSimple) : i.afterItem.IsSimple := by cases h <;> constructor

theorem field (h : i.IsSimple) (name : String) : (i.field name).IsSimple := by cases h <;> constructor

theorem bears (h : i.IsSimple) (entries : List (String × Json)) : i.Bears entries := by cases h <;> trivial

end IsSimple

end Interest

mutual

theorem legible_of_isSimple {i : Interest} (h : i.IsSimple) : (json : Json) → Legible i json
  | .null => trivial
  | .bool _ => trivial
  | .int _ => trivial
  | .float _ => trivial
  | .str _ => trivial
  | .array items => legibleItems_of_isSimple h items
  | .object entries => ⟨h.bears entries, legibleFields_of_isSimple h entries⟩

theorem legibleItems_of_isSimple {i : Interest} (h : i.IsSimple) : (items : List Json) → LegibleItems i items
  | [] => trivial
  | item :: rest => ⟨legible_of_isSimple h.item item, legibleItems_of_isSimple h.afterItem rest⟩

theorem legibleFields_of_isSimple {i : Interest} (h : i.IsSimple) :
    (entries : List (String × Json)) → LegibleFields i entries
  | [] => trivial
  | (name, value) :: rest => ⟨legible_of_isSimple (h.field name) value, legibleFields_of_isSimple h rest⟩

end

theorem legibleItems_items_iff {each : Interest} {items : List Json} :
    LegibleItems (.items each) items ↔ ∀ item ∈ items, Legible each item := by
  induction items with
  | nil => simp [LegibleItems]
  | cons item rest ih =>
    rw [List.forall_mem_cons, ← ih]
    rfl

theorem legibleFields_iff {i : Interest} {entries : List (String × Json)} :
    LegibleFields i entries ↔ ∀ entry ∈ entries, Legible (i.field entry.1) entry.2 := by
  induction entries with
  | nil => simp [LegibleFields]
  | cons first rest ih =>
    rw [List.forall_mem_cons, ← ih]
    rfl

/-! ## Fields that are seen -/

/-- A name that is passed over makes no difference to the interest in what stands under it. -/
theorem Interest.field_of_isKept (i : Interest) (name : String) :
    i.field (if i.isKept then name else "") = i.field name := by
  cases i <;> rfl


theorem map_fst_seenFields {i : Interest} (hkept : i.isKept = true) (entries : List (String × Json)) :
    (seenFields i entries).map Prod.fst = entries.map Prod.fst := by
  induction entries with
  | nil => rfl
  | cons first rest ih => rw [seenFields, List.map_cons, List.map_cons, ih, if_pos hkept]

theorem lookup_seenFields {i : Interest} (hkept : i.isKept = true) (entries : List (String × Json)) (name : String) :
    (seenFields i entries).lookup name = (entries.lookup name).map (seen (i.field name)) := by
  induction entries with
  | nil => rfl
  | cons first rest ih =>
    rw [seenFields, if_pos hkept, lookup_cons_ite, lookup_cons_ite, ih]
    split
    · rename_i hname
      rw [hname, Option.map_some]
    · rfl

/-! ## Paths -/

/-- The interest in what stands at a path. -/
def Interest.along (i : Interest) : List String → Interest
  | [] => i
  | name :: path => (i.field name).along path

theorem Interest.isKept_of_along {i : Interest} {path : List String} (h : (i.along path).isKept = true) :
    i.isKept = true := by
  cases i with
  | none =>
    induction path with
    | nil => exact h
    | cons name path ih => exact ih h
  | _ => rfl

/-- What is looked at is found where it stands. -/
theorem at?_seen {i : Interest} {path : List String} (h : (i.along path).isKept = true) (json : Json) :
    (seen i json).at? path = (json.at? path).map (seen (i.along path)) := by
  induction path generalizing i json with
  | nil => rfl
  | cons name path ih =>
    have hkept := Interest.isKept_of_along h
    cases json with
    | object entries =>
      rw [seen, at?, at?, lookup_seenFields hkept]
      cases entries.lookup name with
      | none => rfl
      | some value => exact ih h value
    | _ => simp [seen, hkept, at?]

/-- A field is added behind what stands there under its name. -/
theorem lookup_insertNew {fields : Fields} (h : fields.Ascending) (name other : String) (value : Json) :
    (Fields.insertNew name value fields).lookup other =
      (fields.lookup other).or (if other = name then some value else none) := by
  induction fields with
  | nil => rw [Fields.insertNew, lookup_cons_ite, List.lookup_nil, Option.none_or]
  | cons first rest ih =>
    obtain ⟨hfirst, hrest⟩ := List.pairwise_cons.1 h
    simp only [Fields.insertNew]
    split
    · rename_i hlt
      have hnone : (first :: rest).lookup name = none := by
        refine lookup_eq_none_of_lt (List.forall_mem_cons.2 ⟨hlt, fun entry hentry => ?_⟩)
        exact String.lt_trans hlt (hfirst entry hentry)
      rw [lookup_cons_ite]
      split
      · rename_i hother
        rw [hother, hnone, Option.none_or]
      · rw [Option.or_none]
    · split
      · rename_i hname
        rw [lookup_cons_ite, hname]
        split
        · rfl
        · rw [Option.or_none]
      · rw [lookup_cons_ite, lookup_cons_ite, ih hrest]
        split <;> rfl

/-- What stands under a name in canonical form: the last of several equal names wins. -/
theorem lookup_canonicalFields (entries : List (String × Json)) (name : String) :
    (canonicalFields entries).lookup name = (entries.reverse.lookup name).map canonical := by
  induction entries with
  | nil => rfl
  | cons first rest ih =>
    rw [canonicalFields, lookup_insertNew (ascending_canonicalFields rest), ih, List.reverse_cons, List.lookup_append,
      lookup_cons_ite, List.lookup_nil]
    cases rest.reverse.lookup name with
    | some json => rfl
    | none => split <;> rfl

/-- A path leads to the same place in canonical form, if its first step does not depend on an order of fields. -/
theorem at?_canonical_cons {entries : List (String × Json)} (hnames : (entries.map Prod.fst).Nodup) {name : String}
    {path : List String}
    (hrest : ∀ json ∈ entries.lookup name, json.canonical.at? path = (json.at? path).map canonical) :
    (Json.object entries).canonical.at? (name :: path) = ((Json.object entries).at? (name :: path)).map canonical := by
  rw [canonical, at?, at?, lookup_canonicalFields, lookup_reverse hnames]
  cases hlookup : entries.lookup name with
  | none => rfl
  | some json => exact hrest json hlookup

end Json

end QueryRelay
