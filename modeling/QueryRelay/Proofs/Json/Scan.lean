import QueryRelay.Proofs.Json.Seen

/-!
# Reading with an interest

A text that can be read as a whole is also read by whoever looks at parts of it only, and up to the same place: passing
over something is less strict than reading it.

* `Json.Reader.skipString_of_stringBody`, `Json.Reader.covers_literal` — a string and a number that can be read can be
  passed over.
* `Json.Reader.ReadsSeen` — the same for all values, by induction on the fuel, together with the items of lists and the
  fields of objects.
* `Json.scan_of_read?` — **the value that is found is what the interest leaves of the whole one**.
-/

namespace QueryRelay

namespace Json

namespace Reader

variable {i : Interest}

/-! ## Strings -/

theorem skipString_of_stringBody {high : Option Nat} {done text rest : List Char} {s : String}
    (h : stringBody high done text = .ok (s, rest)) : skipString text = .ok rest := by
  -- Both go through the same escapes and characters; only reading minds a surrogate that waits for the other half.
  fun_induction stringBody high done text with
  | case3 _ _ _ _ _ _ _ hunit _ _ ih => simpa only [skipString, hunit] using ih h
  | case5 _ _ _ _ _ _ _ hunit _ ih => simpa only [skipString, hunit] using ih h
  | case7 _ _ _ _ _ _ _ hunit _ _ ih => simpa only [skipString, hunit] using ih h
  | case11 _ _ c rest hnot hne _ _ hescaped ih =>
    rw [skipString]
    · simpa only [hescaped] using ih h
    all_goals assumption
  | case14 =>
    cases h
    rw [skipString, if_pos rfl]
    all_goals assumption
  | case16 _ _ c rest h1 h2 h3 h4 _ hquote hcontrol ih =>
    rw [skipString, if_neg hquote, if_neg hcontrol]
    · exact ih h
    all_goals assumption
  | _ => cases h

theorem text_of_whole {rest rest' : List Char} {s : String} (kept : Bool) (h : Reader.text true rest = .ok (s, rest')) :
    Reader.text kept rest = .ok (if kept then s else "", rest') := by
  cases kept with
  | true => exact h
  | false => exact congrArg (Except.map _) (skipString_of_stringBody h)

/-! ## Numbers -/

/-- What the one reading comes to, the other comes to as well. -/
def Covers {α : Type} (r r' : Except Halt α) : Prop := ∀ x, r = .ok x → r' = .ok x

namespace Covers

variable {α β : Type} {r r' : Except Halt α}

theorem refl (r : Except Halt α) : Covers r r := fun _ h => h

theorem of_error (halt : Halt) : Covers (.error halt) r := fun _ h => nomatch h

theorem bind (h : Covers r r') {k k' : α → Except Halt β} (hk : ∀ x, Covers (k x) (k' x)) :
    Covers (r >>= k) (r' >>= k') := by
  intro y hy
  cases hr : r with
  | error halt => rw [hr] at hy; cases hy
  | ok x =>
    rw [hr] at hy
    rw [h x hr]
    exact hk x y hy

theorem map (h : Covers r r') (f : α → β) : Covers (r.map f) (r'.map f) := by
  intro y hy
  cases hr : r with
  | error halt => rw [hr] at hy; cases hy
  | ok x =>
    rw [hr] at hy
    rw [h x hr]
    exact hy

end Covers

theorem covers_digits {ended ended' : Flaw} {text : List Char} : Covers (digits ended text) (digits ended' text) := by
  cases text with
  | nil => exact .of_error _
  | cons c rest => exact .refl _

theorem covers_literal (kept : Bool) (text : List Char) : Covers (literal true text) (literal kept text) := by
  unfold literal
  dsimp only
  generalize (if true then Flaw.endInValue else Flaw.badNumber) = ended
  generalize (if kept then Flaw.endInValue else Flaw.badNumber) = ended'
  -- The digits before the point: a zero alone, or as many as there are.
  split
  case' h_1 => split
  all_goals first
    | refine .bind covers_digits fun whole => ?_
    | refine .bind (.refl _) fun whole => ?_
  -- The digits behind the point, if there is one.
  all_goals split
  all_goals first
    | refine .bind (.map covers_digits _) fun fraction => ?_
    | refine .bind (.refl _) fun fraction => ?_
  -- The exponent, if there is one, with either sign or none.
  all_goals repeat' split
  all_goals first
    | exact .bind (.map covers_digits _) fun _ => .refl _
    | exact .bind (.refl _) fun _ => .refl _

/-- A literal stands for a number. -/
theorem Literal.value_isNumber {l : Literal} {v : Json} (h : l.value = .ok v) :
    (∃ n, v = .int n) ∨ ∃ x, v = .float x := by
  unfold Literal.value at h
  dsimp only at h
  -- There are two ways to a whole number, and those to a rounded one; on the others the number is too large.
  repeat' split at h
  all_goals cases h
  all_goals first
    | exact .inl ⟨_, rfl⟩
    | exact .inr ⟨_, rfl⟩

theorem number_eq_ok_iff {kept : Bool} {text rest : List Char} {v : Json} :
    number kept text = .ok (v, rest) ↔
      ∃ l, literal kept text = .ok (l, rest) ∧ if kept then l.value = .ok v else v = unread := by
  rw [number]
  cases literal kept text with
  | error halt => simp [bind, Except.bind]
  | ok read =>
    obtain ⟨l, rest'⟩ := read
    have hread (P : Literal → Prop) :
        (∃ l', (.ok (l, rest') : Except Halt (Literal × List Char)) = .ok (l', rest) ∧ P l') ↔ rest' = rest ∧ P l := by
      simp [and_assoc]
    rw [hread]
    cases kept with
    | false => simp [bind, Except.bind, eq_comm, and_comm]
    | true => cases hvalue : l.value <;> simp [bind, Except.bind, hvalue, and_comm]

theorem number_of_whole {text rest : List Char} {v : Json} (h : number true text = .ok (v, rest)) :
    number i.isKept text = .ok (seen i v, rest) := by
  obtain ⟨l, hliteral, hvalue⟩ := number_eq_ok_iff.1 h
  refine number_eq_ok_iff.2 ⟨l, covers_literal _ _ _ hliteral, ?_⟩
  obtain ⟨n, rfl⟩ | ⟨x, rfl⟩ := Literal.value_isNumber hvalue
  all_goals
    rw [seen]
    split
    · exact hvalue
    · rfl

/-! ## Names, and what follows a part -/

theorem name_of_whole {rest rest' : List Char} {s : String} (kept : Bool) (h : name true rest = .ok (s, rest')) :
    name kept rest = .ok (if kept then s else "", rest') := by
  unfold name at h ⊢
  split at h
  · exact text_of_whole kept h
  · cases h
  · cases h

theorem afterItem_of_whole {rest : List Char} {next : Next} (kept : Bool) (h : afterItem true rest = .ok next) :
    afterItem kept rest = .ok next := by
  unfold afterItem at h ⊢
  split at h
  · exact h
  · split at h
    · cases h
    · cases kept <;> simp_all
  · cases h
  · cases h

theorem afterField_of_whole {rest : List Char} {next : Next} (h : afterField .whole rest = .ok next)
    (hchoice : i = .choice → ∃ rest', next = .ended rest') : afterField i rest = .ok next := by
  unfold afterField at h ⊢
  generalize skipBlank rest = text at h ⊢
  split at h
  · exact h
  · cases h
  · cases h
  · rename_i rest' _ _
    cases i with
    | choice =>
      obtain ⟨_, rfl⟩ := hchoice rfl
      dsimp only [Interest.isKept] at h
      split at h <;> cases h
    | none =>
      dsimp only [Interest.isKept] at h ⊢
      split at h
      · cases h
      · cases h
      · exact h
    | _ => exact h
  · cases h

/-! ## Values -/

theorem plain_eq_ok_iff {r : Except Halt (Json × List Char)} {v : Json} {rest : List Char} :
    plain r = (v, .ok rest) ↔ r = .ok (v, rest) := by
  cases r <;> simp [plain, Prod.ext_iff]

theorem plain_map_eq_ok_iff {α : Type} {r : Except Halt α} {f : α → Json × List Char} {v : Json} {rest : List Char} :
    plain (r.map f) = (v, .ok rest) ↔ ∃ x, r = .ok x ∧ f x = (v, rest) := by
  rw [plain_eq_ok_iff]
  cases r <;> simp [Except.map]

section Iff

variable {fuel depth : Nat} {text rest : List Char} {v : Json}

theorem items_succ_eq_ok_iff {done : List Json} :
    items (fuel + 1) depth i done text = (v, .ok rest) ↔
      ∃ item behind, value fuel depth i.item text = (item, .ok behind) ∧
        ((∃ next, afterItem i.isKept behind = .ok (.another next) ∧
            items fuel depth i.afterItem (item :: done) next = (v, .ok rest)) ∨
          (afterItem i.isKept behind = .ok (.ended rest) ∧ .array (item :: done).reverse = v)) := by
  simp only [items]
  obtain ⟨item, behind⟩ := value fuel depth i.item text
  cases behind with
  | error halt => simp [Except.bind]
  | ok behind =>
    cases hafter : afterItem i.isKept behind with
    | error halt => simp [Except.bind, and_assoc, hafter]
    | ok next => cases next <;> simp [Except.bind, and_assoc, hafter, and_comm]

theorem fields_succ_eq_ok_iff {done : List (String × Json)} :
    fields (fuel + 1) depth i done text = (v, .ok rest) ↔
      ∃ given named start found behind, name i.isKept text = .ok (given, named) ∧ colon named = .ok start ∧
        value fuel depth (i.field given) start = (found, .ok behind) ∧
        ((∃ next, afterField i behind = .ok (.another next) ∧
            fields fuel depth i ((given, found) :: done) next = (v, .ok rest)) ∨
          (afterField i behind = .ok (.ended rest) ∧ .object ((given, found) :: done).reverse = v)) := by
  simp only [fields]
  cases name i.isKept text with
  | error halt => simp
  | ok named =>
    obtain ⟨given, named⟩ := named
    cases hcolon : colon named with
    | error halt => simp [hcolon, and_assoc]
    | ok start =>
      cases hvalue : value fuel depth (i.field given) start with
      | mk found behind =>
        cases behind with
        | error halt => simp [Except.bind, and_assoc, hcolon, hvalue]
        | ok behind =>
          cases hafter : afterField i behind with
          | error halt => simp [Except.bind, and_assoc, hcolon, hvalue, hafter]
          | ok next => cases next <;> simp [Except.bind, and_assoc, hcolon, hvalue, hafter, and_comm]

end Iff

/-- A value that is read as a whole with the given fuel is read likewise by whoever looks at parts of it only. -/
def ReadsSeen (fuel : Nat) : Prop :=
  ∀ {depth : Nat} {text rest : List Char} {v : Json}, value fuel depth .whole text = (v, .ok rest) →
    ∀ {i : Interest}, Legible i v → value fuel depth i text = (seen i v, .ok rest)

/-- The same for the items of a list, whatever lies before them. -/
def ReadsSeenItems (fuel : Nat) : Prop :=
  ∀ {depth : Nat} {done : List Json} {text rest : List Char} {v : Json},
    items fuel depth .whole done text = (v, .ok rest) → ∃ more, v = .array (done.reverse ++ more) ∧
      ∀ {i : Interest} (before : List Json), LegibleItems i more →
        items fuel depth i before text = (.array (before.reverse ++ seenItems i more), .ok rest)

/-- The same for the fields of an object, whatever lies before them. -/
def ReadsSeenFields (fuel : Nat) : Prop :=
  ∀ {depth : Nat} {done : List (String × Json)} {text rest : List Char} {v : Json},
    fields fuel depth .whole done text = (v, .ok rest) → ∃ more, v = .object (done.reverse ++ more) ∧ more ≠ [] ∧
      ∀ {i : Interest} (before : List (String × Json)), i.Bears more → LegibleFields i more →
        fields fuel depth i before text = (.object (before.reverse ++ seenFields i more), .ok rest)

theorem readsSeenItems_succ {fuel : Nat} (hvalue : ReadsSeen fuel) (hitems : ReadsSeenItems fuel) :
    ReadsSeenItems (fuel + 1) := by
  intro depth done text rest v h
  obtain ⟨item, behind, hitem, ⟨next, hafter, hrest⟩ | ⟨hafter, rfl⟩⟩ := items_succ_eq_ok_iff.1 h
  · obtain ⟨more, rfl, hmore⟩ := hitems hrest
    refine ⟨item :: more, by simp, fun {i} before hlegible => ?_⟩
    obtain ⟨hfirst, hothers⟩ := hlegible
    refine items_succ_eq_ok_iff.2 ⟨_, behind, hvalue hitem hfirst, .inl ⟨next, afterItem_of_whole _ hafter, ?_⟩⟩
    rw [hmore _ hothers]
    simp [seenItems]
  · refine ⟨[item], by simp, fun {i} before hlegible => ?_⟩
    refine items_succ_eq_ok_iff.2 ⟨_, behind, hvalue hitem hlegible.1, .inr ⟨afterItem_of_whole _ hafter, ?_⟩⟩
    simp [seenItems]

theorem readsSeenFields_succ {fuel : Nat} (hvalue : ReadsSeen fuel) (hfields : ReadsSeenFields fuel) :
    ReadsSeenFields (fuel + 1) := by
  intro depth done text rest v h
  obtain ⟨given, named, start, found, behind, hname, hcolon, hfound, hbehind⟩ := fields_succ_eq_ok_iff.1 h
  have hread {i : Interest} (hlegible : Legible (i.field given) found) :
      value fuel depth (i.field (if i.isKept then given else "")) start = (seen (i.field given) found, .ok behind) := by
    rw [i.field_of_isKept]
    exact hvalue hfound hlegible
  obtain ⟨next, hafter, hrest⟩ | ⟨hafter, rfl⟩ := hbehind
  · obtain ⟨more, rfl, hmany, hmore⟩ := hfields hrest
    refine ⟨(given, found) :: more, by simp, List.cons_ne_nil _ _, fun {i} before hbears hlegible => ?_⟩
    obtain ⟨hfirst, hothers⟩ := hlegible
    -- A name stands alone: whoever looks for one does not go on to another field.
    have hchoice : i ≠ .choice := by
      rintro rfl
      exact absurd (Nat.le_of_succ_le_succ hbears) (by simpa using hmany)
    refine fields_succ_eq_ok_iff.2 ⟨_, named, start, _, behind, name_of_whole _ hname, hcolon, hread hfirst,
      .inl ⟨next, afterField_of_whole hafter fun hi => absurd hi hchoice, ?_⟩⟩
    rw [hmore _ ?_ hothers]
    · simp [seenFields]
    · cases i with
      | choice => exact absurd rfl hchoice
      | _ => trivial
  · refine ⟨[(given, found)], by simp, List.cons_ne_nil _ _, fun {i} before hbears hlegible => ?_⟩
    refine fields_succ_eq_ok_iff.2 ⟨_, named, start, _, behind, name_of_whole _ hname, hcolon, hread hlegible.1,
      .inr ⟨afterField_of_whole hafter fun _ => ⟨rest, rfl⟩, ?_⟩⟩
    simp [seenFields]

theorem readsSeen_succ {fuel : Nat} (hitems : ReadsSeenItems fuel) (hfields : ReadsSeenFields fuel) :
    ReadsSeen (fuel + 1) := by
  intro depth text rest v h i hlegible
  have hdepth (hkept : ¬(Interest.whole.isKept && decide (depth = 0)) = true) :
      ¬(i.isKept && decide (depth = 0)) = true := by
    simp_all [Interest.isKept]
  simp only [value] at h ⊢
  generalize skipBlank text = text at h ⊢
  split at h
  case h_1 => cases h
  case h_2 rest' =>
    obtain ⟨⟨s, behind⟩, hread, heq⟩ := plain_map_eq_ok_iff.1 h
    cases heq
    exact plain_map_eq_ok_iff.2 ⟨_, text_of_whole _ hread, by rw [seen]⟩
  case h_3 rest' =>
    split at h
    · cases h
    rename_i hshallow
    rw [if_neg (hdepth hshallow)]
    generalize skipBlank rest' = text at h ⊢
    split at h
    · cases h
    · cases h
      rw [seen, seenItems]
    · obtain ⟨more, rfl, hmore⟩ := hitems h
      exact hmore [] hlegible
  case h_4 rest' =>
    split at h
    · cases h
    rename_i hshallow
    rw [if_neg (hdepth hshallow)]
    generalize skipBlank rest' = text at h ⊢
    split at h
    · cases h
      rw [seen, seenFields]
    · obtain ⟨more, rfl, -, hmore⟩ := hfields h
      exact hmore [] hlegible.1 hlegible.2
  case h_8 c rest' _ _ _ _ _ _ =>
    split at h
    · rename_i hnumber
      rw [if_pos hnumber]
      exact plain_eq_ok_iff.2 (number_of_whole (plain_eq_ok_iff.1 h))
    · cases h
  all_goals
    obtain ⟨behind, hword, heq⟩ := plain_map_eq_ok_iff.1 h
    cases heq
    exact plain_map_eq_ok_iff.2 ⟨_, hword, by rw [seen]⟩

theorem readsSeen (fuel : Nat) : ReadsSeen fuel ∧ ReadsSeenItems fuel ∧ ReadsSeenFields fuel := by
  induction fuel with
  | zero =>
    refine ⟨fun h => ?_, fun h => ?_, fun h => ?_⟩
    · rw [value] at h
      cases h
    · rw [items] at h
      cases h
    · rw [fields] at h
      cases h
  | succ fuel ih =>
    obtain ⟨hvalue, hitems, hfields⟩ := ih
    exact ⟨readsSeen_succ hitems hfields, readsSeenItems_succ hvalue hitems, readsSeenFields_succ hvalue hfields⟩

end Reader

/-- **What is not looked at need not be read**: a text that can be read as a whole is read by whoever looks at parts of
it only, and these parts are found as they are. -/
theorem scan_of_read? {i : Interest} {text : String} {json : Json} (h : read? text = some json)
    (hlegible : Legible i json) : scan i text = (seen i json, none) := by
  have hscan : scan .whole text = (json, none) := by
    rw [read?] at h
    split at h
    · rename_i heq
      rw [heq, Option.some.inj h]
    · cases h
  simp only [scan] at hscan ⊢
  split at hscan
  · cases hscan
  · rename_i v rest hvalue
    split at hscan
    · rename_i hrest
      obtain rfl := congrArg Prod.fst hscan
      rw [(Reader.readsSeen _).1 hvalue hlegible]
      dsimp only
      rw [hrest]
    · cases hscan

end Json

end QueryRelay
