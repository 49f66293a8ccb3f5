import QueryRelay.Proofs.Binary64.Value

/-!
# Whole numbers among the floating-point numbers

Below `2 ^ 53` every whole number is a number of the format, so nothing is lost when such numbers are added up.

* `Binary64.exactly`, `Binary64.wholePart` — a natural number as a floating-point number, and back.
* `Binary64.ofNat_eq_exactly`, `Binary64.exactly_add_exactly` — the nearest number is the number itself, and so is the
  sum of two.
* `Binary64.foldl_add_eq_exactly` — **the sum of whole numbers**, added up one after the other in any order.
-/

namespace QueryRelay

namespace Binary64

/-- The floating-point number that a natural number is. -/
def exactly (n : Nat) : Binary64 := finite false (n * oneUnits)

/-- The natural number that a number is, if it is one. -/
def wholePart : Binary64 → Nat
  | finite false units => units / oneUnits
  | _ => 0

/-- The number is a natural number. -/
def IsWhole (x : Binary64) : Prop := x = exactly x.wholePart

@[simp] theorem exactly_zero : exactly 0 = zero := by
  rw [exactly, Nat.zero_mul, zero]

theorem exactly_one : exactly 1 = one := by
  rw [exactly, Nat.one_mul, one]

@[simp] theorem wholePart_exactly (n : Nat) : (exactly n).wholePart = n :=
  Nat.mul_div_cancel n oneUnits_pos

theorem isWhole_exactly (n : Nat) : (exactly n).IsWhole := by
  rw [IsWhole, wholePart_exactly]

@[simp] theorem toRat_exactly (n : Nat) : toRat (exactly n) = n := by
  have hne : (oneUnits : ℚ) ≠ 0 := Nat.cast_ne_zero.2 oneUnits_pos.ne'
  simp [toRat, exactly, signedUnits, hne]

/-! ## Nothing is rounded -/

theorem roundUnits_of_dvd {units : Nat} (h : spacing units ∣ units) : roundUnits units 1 = units := by
  rw [roundUnits, Nat.div_one, Nat.one_mul, roundQuotient, Nat.mod_eq_zero_of_dvd h]
  have hstep : spacing units ≠ 0 := (Nat.two_pow_pos _).ne'
  have hkeep : ¬ (spacing units < 2 * 0 ∨ 2 * 0 = spacing units ∧ units / spacing units % 2 = 1) := by omega
  simp only [if_neg hkeep]
  exact Nat.div_mul_cancel h

/-- A number of the format is its own nearest one. -/
theorem round_of_representable {units : Nat} (h : Representable units) (negative : Bool) :
    round negative units 1 = finite negative units := by
  rw [round, roundUnits_of_dvd h.2]
  exact if_pos h.1

/-- The distance between the neighbours of a whole number below `2 ^ 53` is at most one. -/
theorem spacing_dvd_oneUnits {n : Nat} (h : n < 2 ^ 53) : spacing (n * oneUnits) ∣ oneUnits := by
  unfold oneUnits
  generalize unitPlaces = places
  refine Nat.pow_dvd_pow 2 (Nat.sub_le_of_le_add ?_)
  show (n * 2 ^ places).log2 ≤ places + 52
  by_cases hzero : n * 2 ^ places = 0
  · rw [hzero, Nat.log2_zero]
    exact Nat.zero_le _
  · refine Nat.le_of_lt_succ ((Nat.log2_lt hzero).2 ?_)
    calc n * 2 ^ places < 2 ^ 53 * 2 ^ places := Nat.mul_lt_mul_of_pos_right h (Nat.two_pow_pos places)
      _ = 2 ^ (places + 52).succ := by rw [← Nat.pow_add, Nat.add_comm]

theorem representable_of_lt {n : Nat} (h : n < 2 ^ 53) : Representable (n * oneUnits) := by
  refine ⟨?_, (spacing_dvd_oneUnits h).trans (Nat.dvd_mul_left oneUnits n)⟩
  unfold overflowUnits oneUnits
  generalize unitPlaces = places
  calc n * 2 ^ places < 2 ^ 53 * 2 ^ places := Nat.mul_lt_mul_of_pos_right h (Nat.two_pow_pos places)
    _ = 2 ^ (53 + places) := (Nat.pow_add ..).symm
    _ ≤ 2 ^ (1024 + places) := Nat.pow_le_pow_right (by decide) (by omega)

theorem ofNat_eq_exactly {n : Nat} (h : n < 2 ^ 53) : ofNat n = exactly n :=
  round_of_representable (representable_of_lt h) false

/-! ## Sums -/

theorem exactly_add_exactly {m n : Nat} (h : m + n < 2 ^ 53) : exactly m + exactly n = exactly (m + n) := by
  show add (exactly m) (exactly n) = _
  have hsum : signedUnits false (m * oneUnits) + signedUnits false (n * oneUnits) = ((m + n) * oneUnits : Nat) := by
    simp [signedUnits, Nat.add_mul]
  simp only [exactly, add, hsum, Int.natAbs_natCast]
  split
  case isTrue hzero =>
    have hunits : (m + n) * oneUnits = 0 := Int.ofNat_eq_zero.1 hzero
    rw [hunits]
    rfl
  case isFalse hzero =>
    have hnegative : decide ((((m + n) * oneUnits : Nat) : Int) < 0) = false := by
      exact decide_eq_false (by omega)
    rw [hnegative]
    exact round_of_representable (representable_of_lt h) false

/-- Whole numbers whose sum is below `2 ^ 53` are added up without rounding, whatever their order. -/
theorem foldl_add_eq_exactly {values : List Binary64} (hwhole : ∀ x ∈ values, x.IsWhole) {start : Nat}
    (hsum : start + (values.map wholePart).sum < 2 ^ 53) :
    values.foldl (· + ·) (exactly start) = exactly (start + (values.map wholePart).sum) := by
  induction values generalizing start with
  | nil => rfl
  | cons x rest ih =>
    obtain ⟨hx, hrest⟩ := List.forall_mem_cons.1 hwhole
    rw [List.map_cons, List.sum_cons, ← Nat.add_assoc] at hsum ⊢
    have hfirst : exactly start + x = exactly (start + x.wholePart) := by
      conv_lhs => rw [hx]
      exact exactly_add_exactly (Nat.lt_of_le_of_lt (Nat.le_add_right _ _) hsum)
    rw [List.foldl_cons, hfirst]
    exact ih hrest hsum

end Binary64

end QueryRelay
