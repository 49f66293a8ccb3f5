import Mathlib.Data.List.Nodup
import QueryRelay.Proofs.Codec.Restore

/-!
# Fields in canonical form

Named values travel in canonical form: each name once, in ascending order, and every value in canonical form as well.

* `Fields.Ascending` — the order of the names; fields in that order are determined by what is found under each name
  (`Fields.Ascending.filter_eq_of_lookup`).
* `Fields.IsCanonical.ascending`, `Fields.IsCanonical.canonical_of_lookup` — what the canonical form says of the names
  and of the values.
-/

namespace QueryRelay

/-- What is found under a name stands there. -/
theorem mem_of_lookup {α : Type} {entries : List (String × α)} {name : String} {a : α}
    (h : entries.lookup name = some a) : (name, a) ∈ entries := by
  obtain ⟨before, after, rfl, -⟩ := List.lookup_eq_some_iff.1 h
  exact List.mem_append_right _ List.mem_cons_self

namespace Fields

/-- The names ascend; so each of them stands there once. -/
def Ascending (fields : Fields) : Prop := fields.Pairwise fun a b => a.1 < b.1

theorem mem_iff_lookup {fields : Fields} (h : (fields.map Prod.fst).Nodup) {name : String} {json : Json} :
    (name, json) ∈ fields ↔ fields.lookup name = some json :=
  ⟨lookup_of_mem h, mem_of_lookup⟩

namespace Ascending

variable {fields others : Fields}

theorem nodup (h : fields.Ascending) : (fields.map Prod.fst).Nodup := by
  refine List.pairwise_map.2 (h.imp fun {a b} hlt heq => ?_)
  exact String.lt_irrefl b.1 (heq ▸ hlt)

theorem eq_of_mem_iff (h : fields.Ascending) (hothers : others.Ascending)
    (hmem : ∀ entry, entry ∈ fields ↔ entry ∈ others) : fields = others := by
  have hperm : fields.Perm others :=
    (List.perm_ext_iff_of_nodup (h.nodup.of_map _) (hothers.nodup.of_map _)).2 hmem
  refine hperm.eq_of_pairwise (fun a b _ _ hab hba => ?_) h hothers
  exact absurd hba (String.lt_asymm hab)

/-- The fields of certain names are determined by what is found under these names. -/
theorem filter_eq_of_lookup (h : fields.Ascending) (hothers : others.Ascending) {known : String → Bool}
    (hlookup : ∀ name, known name = true → fields.lookup name = others.lookup name) :
    fields.filter (fun entry => known entry.1) = others.filter fun entry => known entry.1 := by
  refine eq_of_mem_iff (h.filter _) (hothers.filter _) ?_
  rintro ⟨name, json⟩
  rw [List.mem_filter, List.mem_filter, and_congr_left_iff]
  intro hknown
  rw [mem_iff_lookup h.nodup, mem_iff_lookup hothers.nodup, hlookup name hknown]

end Ascending

/-! ## Adding a field -/

theorem name_of_mem_insertNew {name : String} {value : Json} {entry : String × Json} {fields : Fields}
    (h : entry ∈ insertNew name value fields) : entry.1 = name ∨ entry ∈ fields := by
  induction fields with
  | nil => exact Or.inl (congrArg Prod.fst (List.mem_singleton.1 h))
  | cons first rest ih =>
    simp only [insertNew] at h
    split at h
    · exact (List.mem_cons.1 h).imp (congrArg Prod.fst) id
    · split at h
      · exact Or.inr h
      · rcases List.mem_cons.1 h with rfl | hrest
        · exact Or.inr List.mem_cons_self
        · exact (ih hrest).imp id (List.mem_cons_of_mem _)

theorem ascending_insertNew (name : String) (value : Json) {fields : Fields} (h : fields.Ascending) :
    (insertNew name value fields).Ascending := by
  induction fields with
  | nil => exact List.pairwise_singleton _ _
  | cons first rest ih =>
    obtain ⟨hfirst, hrest⟩ := List.pairwise_cons.1 h
    simp only [insertNew]
    split
    · rename_i hlt
      refine List.pairwise_cons.2 ⟨fun other hother => ?_, h⟩
      rcases List.mem_cons.1 hother with rfl | hother
      · exact hlt
      · exact String.lt_trans hlt (hfirst other hother)
    · split
      · exact h
      · rename_i hlt hne
        refine List.pairwise_cons.2 ⟨fun other hother => ?_, ih hrest⟩
        rcases name_of_mem_insertNew hother with hname | hother
        · exact hname ▸ text_lt_of_not_lt hlt hne
        · exact hfirst other hother

end Fields

theorem Json.ascending_canonicalFields (entries : List (String × Json)) : (canonicalFields entries).Ascending := by
  induction entries with
  | nil => exact List.Pairwise.nil
  | cons first rest ih => exact Fields.ascending_insertNew first.1 _ ih

namespace Fields

/-! ## What the canonical form says -/

namespace IsCanonical

variable {fields : Fields}

theorem ascending (h : fields.IsCanonical) : fields.Ascending := by
  have hcanonical := Json.ascending_canonicalFields fields
  rwa [h] at hcanonical

theorem nodup (h : fields.IsCanonical) : (fields.map Prod.fst).Nodup := h.ascending.nodup

theorem canonical_of_mem (h : fields.IsCanonical) {name : String} {json : Json} (hmem : (name, json) ∈ fields) :
    json.canonical = json := by
  have hcanonical : (name, json) ∈ Json.canonicalFields fields := h.symm ▸ hmem
  obtain ⟨same, hsame, hjson⟩ := (Json.mem_canonicalFields h.nodup).1 hcanonical
  have heq : some same = some json := (lookup_of_mem h.nodup hsame).symm.trans (lookup_of_mem h.nodup hmem)
  rw [Option.some.inj heq] at hjson
  exact hjson.symm

/-- What is found under a name is in canonical form. -/
theorem canonical_of_lookup (h : fields.IsCanonical) (name : String) :
    ∀ json ∈ fields.get? name, json.canonical = json :=
  fun _ hjson => h.canonical_of_mem (mem_of_lookup hjson)

theorem of_lookup_object (h : fields.IsCanonical) {name : String} {inner : Fields}
    (hlookup : fields.get? name = some (.object inner)) : inner.IsCanonical :=
  Json.object.inj (h.canonical_of_lookup name _ hlookup)

end IsCanonical

end Fields

end QueryRelay
