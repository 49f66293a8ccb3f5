import Mathlib.Tactic.Ring
import QueryRelay.Proofs.Binary64.Exact

/-!
# Products of whole numbers

A product of whole numbers is a number of the format as long as one of 53 binary digits stands for it; powers of two
cost no digits.  What is too large becomes infinite, and zero times an infinite number is not a number.

* `Binary64.round_mul_of_dvd` — a quotient that needs no rounding is itself, or infinite if it is too large.
* `Binary64.exactly_mul_exactly`, `Binary64.exactly_mul_twoPow` — **products without rounding**.
* `Binary64.min_exactly` and its siblings — the smaller of two numbers, of which one may be infinite or no number.
-/

namespace QueryRelay

namespace Binary64

theorem roundQuotient_mul (whole : Nat) {denominator : Nat} (h : 0 < denominator) :
    roundQuotient (whole * denominator) denominator = whole := by
  have hkeep : ¬(denominator < 2 * 0 ∨ 2 * 0 = denominator ∧ whole % 2 = 1) := by omega
  simp only [roundQuotient, Nat.mul_div_cancel whole h, Nat.mul_mod_left, if_neg hkeep]

theorem roundUnits_mul_of_dvd {units denominator : Nat} (hpos : 0 < denominator) (h : spacing units ∣ units) :
    roundUnits (units * denominator) denominator = units := by
  have hstep : 0 < spacing units := Nat.two_pow_pos _
  obtain ⟨whole, hwhole⟩ := h
  have hproduct : units * denominator = whole * (denominator * spacing units) := by
    calc units * denominator = spacing units * whole * denominator := congrArg (· * denominator) hwhole
      _ = whole * (denominator * spacing units) := by ring
  have hquotient : roundQuotient (units * denominator) (denominator * spacing units) = whole := by
    rw [hproduct, roundQuotient_mul whole (Nat.mul_pos hpos hstep)]
  show roundQuotient (units * denominator) (denominator * spacing (units * denominator / denominator)) *
    spacing (units * denominator / denominator) = units
  rw [Nat.mul_div_cancel units hpos, hquotient, Nat.mul_comm]
  exact hwhole.symm

/-- A quotient with at most 53 binary digits is not rounded; it is infinite if it is too large. -/
theorem round_mul_of_dvd {units denominator : Nat} (hpos : 0 < denominator) (h : spacing units ∣ units)
    (negative : Bool) : round negative (units * denominator) denominator =
      if units < overflowUnits then finite negative units else infinite negative := by
  rw [round, roundUnits_mul_of_dvd hpos h]

/-! ## Numbers of at most 53 digits -/

/-- The distance between the neighbours of a number with a power of two in it. -/
theorem spacing_dvd_two_pow {digits places : Nat} (h : digits < 2 ^ 53) :
    spacing (digits * 2 ^ places) ∣ 2 ^ places := by
  refine Nat.pow_dvd_pow 2 (Nat.sub_le_of_le_add ?_)
  by_cases hzero : digits * 2 ^ places = 0
  · rw [hzero, Nat.log2_zero]
    exact Nat.zero_le _
  · refine Nat.le_of_lt_succ ((Nat.log2_lt hzero).2 ?_)
    calc digits * 2 ^ places < 2 ^ 53 * 2 ^ places := Nat.mul_lt_mul_of_pos_right h (Nat.two_pow_pos places)
      _ = 2 ^ (places + 52).succ := by rw [← Nat.pow_add, Nat.add_comm]

theorem spacing_dvd_of_digits {digits places : Nat} (h : digits < 2 ^ 53) :
    spacing (digits * 2 ^ places * oneUnits) ∣ digits * 2 ^ places * oneUnits := by
  unfold oneUnits
  generalize unitPlaces = unit
  have hunits : digits * 2 ^ places * Nat.pow 2 unit = digits * 2 ^ (places + unit) := by
    rw [Nat.pow_add, ← Nat.mul_assoc]
    rfl
  rw [hunits]
  exact (spacing_dvd_two_pow h).trans (Nat.dvd_mul_left _ _)

theorem mul_oneUnits_lt_overflowUnits {n : Nat} : n * oneUnits < overflowUnits ↔ n < 2 ^ 1024 := by
  unfold oneUnits overflowUnits
  generalize unitPlaces = unit
  generalize 1024 = top
  show n * 2 ^ unit < 2 ^ (top + unit) ↔ n < 2 ^ top
  rw [Nat.pow_add]
  exact Nat.mul_lt_mul_right (Nat.two_pow_pos unit)

/-! ## Products -/

theorem mul_eq_round (m n : Nat) : exactly m * exactly n = round false (m * n * oneUnits * oneUnits) oneUnits := by
  show round (false != false) (m * oneUnits * (n * oneUnits)) oneUnits = _
  rw [Nat.mul_mul_mul_comm, ← Nat.mul_assoc]
  rfl

theorem exactly_mul_exactly {m n : Nat} (h : m * n < 2 ^ 53) : exactly m * exactly n = exactly (m * n) := by
  obtain ⟨hlt, hdvd⟩ := representable_of_lt h
  rw [mul_eq_round, round_mul_of_dvd oneUnits_pos hdvd, if_pos hlt, exactly]

theorem twoPow_of_lt {n : Nat} (h : n < 1024) : twoPow n = exactly (2 ^ n) := by
  rw [twoPow, if_pos h, exactly]
  unfold oneUnits
  generalize unitPlaces = unit
  exact congrArg (finite false) (Nat.pow_add ..)

/-- A power of two costs no digits: the product is exact, or too large for the format. -/
theorem exactly_mul_twoPow {m n : Nat} (hm : m < 2 ^ 53) (hn : n < 1024) :
    exactly m * twoPow n = if m * 2 ^ n < 2 ^ 1024 then exactly (m * 2 ^ n) else infinite false := by
  rw [twoPow_of_lt hn, mul_eq_round, round_mul_of_dvd oneUnits_pos (spacing_dvd_of_digits hm)]
  simp only [mul_oneUnits_lt_overflowUnits, exactly]

/-- Zero times an infinite number is not a number. -/
theorem exactly_mul_infinite (m : Nat) :
    exactly m * infinite false = if m = 0 then nan else infinite false := by
  have hzero : m * oneUnits = 0 ↔ m = 0 := by
    rw [Nat.mul_eq_zero, or_iff_left oneUnits_pos.ne']
  show (if m * oneUnits = 0 then nan else infinite (false != false)) = _
  simp only [hzero]
  rfl

/-! ## The smaller of two -/

theorem min_exactly (m n : Nat) : min (exactly m) (exactly n) = exactly (Nat.min m n) := by
  have hless : less (exactly n) (exactly m) = decide (n < m) := by
    show decide (signedUnits false (n * oneUnits) < signedUnits false (m * oneUnits)) = _
    refine decide_eq_decide.2 (Int.ofNat_lt.trans ?_)
    exact Nat.mul_lt_mul_right oneUnits_pos
  show (if less (exactly n) (exactly m) then exactly n else exactly m) = _
  rw [hless]
  by_cases h : n < m
  · rw [if_pos (decide_eq_true h), show Nat.min m n = n from Nat.min_eq_right h.le]
  · rw [if_neg (by simpa using h), show Nat.min m n = m from Nat.min_eq_left (Nat.le_of_not_lt h)]

theorem min_infinite (n : Nat) : min (infinite false) (exactly n) = exactly n := rfl

theorem min_nan (x : Binary64) : min nan x = x := rfl

end Binary64

end QueryRelay
