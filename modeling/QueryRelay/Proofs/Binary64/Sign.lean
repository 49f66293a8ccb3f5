import QueryRelay.Binary64.Basic

/-!
# Numbers that are not negative

Sums, products and quotients of numbers that are not negative are not negative either, whether they are finite or not,
or no numbers at all.  A cap on such a number is not negative itself, and bounds what is left.

* `Binary64.isNegative_add`, `Binary64.isNegative_mul`, `Binary64.isNegative_div` — one law for each operation.
* `Binary64.roundQuotient_mono` — a larger number is not rounded to a smaller one.
* `Binary64.min_cases` — **what a finite cap leaves** of a number that is not negative: the cap, or a number that is not
  negative and has no more units.
-/

namespace QueryRelay

namespace Binary64

@[simp] theorem isNegative_round (negative : Bool) (numerator denominator : Nat) :
    (round negative numerator denominator).isNegative = negative := by
  simp only [round]
  split <;> rfl

@[simp] theorem isNegative_ofNat (n : Nat) : (ofNat n).isNegative = false := isNegative_round ..

theorem isNegative_twoPow (n : Nat) : (twoPow n).isNegative = false := by
  unfold twoPow
  split <;> rfl

variable {x y : Binary64}

theorem isNegative_add (hx : x.isNegative = false) (hy : y.isNegative = false) : (x + y).isNegative = false := by
  cases x with
  | nan => rfl
  | infinite a =>
    cases hx
    cases y with
    | infinite b =>
      cases hy
      rfl
    | _ => rfl
  | finite a m =>
    cases hx
    cases y with
    | nan => rfl
    | infinite b => exact hy
    | finite b n =>
      cases hy
      have hsum : ¬(m : Int) + n < 0 := Int.not_lt.2 (Int.natCast_nonneg (m + n))
      show (if (m : Int) + n = 0 then finite false 0 else round ((m : Int) + n < 0) _ 1).isNegative = false
      split
      · rfl
      · exact (isNegative_round ..).trans (decide_eq_false hsum)

theorem isNegative_mul (hx : x.isNegative = false) (hy : y.isNegative = false) : (x * y).isNegative = false := by
  cases x with
  | nan => rfl
  | infinite a =>
    cases hx
    cases y with
    | nan => rfl
    | infinite b => exact (Bool.false_xor b).trans hy
    | finite b n =>
      cases hy
      show (if n = 0 then nan else infinite false).isNegative = false
      split <;> rfl
  | finite a m =>
    cases hx
    cases y with
    | nan => rfl
    | infinite b =>
      cases hy
      show (if m = 0 then nan else infinite false).isNegative = false
      split <;> rfl
    | finite b n =>
      cases hy
      exact isNegative_round ..

theorem isNegative_div (hx : x.isNegative = false) (hy : y.isNegative = false) : (x / y).isNegative = false := by
  cases x with
  | nan => rfl
  | infinite a =>
    cases hx
    cases y with
    | finite b n => exact (Bool.false_xor b).trans hy
    | _ => rfl
  | finite a m =>
    cases hx
    cases y with
    | nan => rfl
    | infinite b => exact (Bool.false_xor b).trans hy
    | finite b n =>
      cases hy
      show (if n = 0 then (if m = 0 then nan else infinite false) else round false (m * oneUnits) n).isNegative = false
      split
      · split <;> rfl
      · exact isNegative_round ..

/-! ## Rounding and caps -/

/-- The nearest whole number to a quotient is one of the two around it. -/
theorem roundQuotient_bounds (numerator denominator : Nat) :
    numerator / denominator ≤ roundQuotient numerator denominator ∧
      roundQuotient numerator denominator ≤ numerator / denominator + 1 := by
  simp only [roundQuotient]
  split <;> omega

theorem roundQuotient_mono {m n : Nat} (h : m ≤ n) (denominator : Nat) :
    roundQuotient m denominator ≤ roundQuotient n denominator := by
  rcases Nat.lt_or_eq_of_le (Nat.div_le_div_right (c := denominator) h) with hless | hsame
  · calc roundQuotient m denominator ≤ m / denominator + 1 := (roundQuotient_bounds m denominator).2
      _ ≤ n / denominator := hless
      _ ≤ roundQuotient n denominator := (roundQuotient_bounds n denominator).1
  · -- Both lie between the same two whole numbers, and the larger one has the larger rest.
    have hm := Nat.div_add_mod m denominator
    have hn := Nat.div_add_mod n denominator
    have hrest : m % denominator ≤ n % denominator := by
      rw [hsame] at hm
      omega
    simp only [roundQuotient, hsame]
    split <;> split <;> omega

/-- What a finite cap leaves. -/
theorem min_cases (hx : x.isNegative = false) (negative : Bool) (units : Nat) :
    min x (finite negative units) = finite negative units ∨
      ∃ fewer ≤ units, min x (finite negative units) = finite false fewer := by
  cases x with
  | nan => exact .inl rfl
  | infinite a =>
    cases hx
    exact .inl rfl
  | finite a m =>
    cases hx
    have hmin : min (finite false m) (finite negative units) =
        if decide (signedUnits negative units < m) then finite negative units else finite false m := rfl
    rw [hmin]
    split
    case isTrue => exact .inl rfl
    case isFalse hnot =>
      have hle : (m : Int) ≤ signedUnits negative units := Int.not_lt.1 fun hless => hnot (decide_eq_true hless)
      refine .inr ⟨m, ?_, rfl⟩
      unfold signedUnits at hle
      split at hle <;> omega

end Binary64

end QueryRelay
