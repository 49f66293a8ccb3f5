import QueryRelay.Proofs.Binary64.Product
import QueryRelay.Proofs.Binary64.Sign
import QueryRelay.Retry

/-!
# Delays between retries

Delays are computed in floating-point seconds.  For whole seconds the computation is exact as far as it is finite, and
what overflows is capped like any other long delay.  The exception is a delay of zero that grows exponentially: from
retry number 1024 on it is multiplied by an infinite power, the product is not a number, and the cap is what is left.

* `RetryStrategy.backoff` — the delay that a strategy asks for, in seconds.
* `Duration.toSeconds_ofWholeSeconds`, `Duration.ofSeconds?_exactly` — whole seconds as floating-point numbers, and
  back.
* `RetryPolicy.delay?_eq_ok` — **there is a delay before every retry**, as long as the longest delay is a span in
  floating-point seconds; `RetryPolicy.delay?_unbounded` is a policy of which that cannot be said.
* `RetryPolicy.delay_eq` — what the delay is, exception included.
* `delay_eq_backoff_iff` — **the delay is the capped backoff except for that case**; it never shrinks from one retry to
  a later one, and never exceeds the cap.
* `zero_delay_becomes_longest` — the exception.
-/

namespace QueryRelay

/-- The delay before a retry that a strategy asks for, in seconds; retries are counted from zero. -/
def RetryStrategy.backoff (strategy : RetryStrategy) (initial retry : Nat) : Nat :=
  match strategy with
  | .exponential => initial * 2 ^ retry
  | .linear => initial * (retry + 1)
  | .constant => initial

theorem RetryStrategy.backoff_mono (strategy : RetryStrategy) (initial : Nat) {retry later : Nat}
    (h : retry ≤ later) : strategy.backoff initial retry ≤ strategy.backoff initial later := by
  cases strategy with
  | exponential => exact Nat.mul_le_mul_left initial (Nat.pow_le_pow_right (by decide) h)
  | linear => exact Nat.mul_le_mul_left initial (Nat.succ_le_succ h)
  | constant => exact Nat.le_refl initial

/-! ## Whole seconds -/

namespace Duration

open Binary64 (exactly)

theorem nanosPerSecond_pos : 0 < nanosPerSecond := by decide

theorem ofWholeSeconds_le_iff {m n : Nat} : ofWholeSeconds m ≤ ofWholeSeconds n ↔ m ≤ n :=
  Nat.mul_le_mul_right_iff nanosPerSecond_pos

theorem le_antisymm {d e : Duration} (h : d ≤ e) (h' : e ≤ d) : d = e := by
  obtain ⟨m⟩ := d
  obtain ⟨n⟩ := e
  exact congrArg mk (Nat.le_antisymm h h')

theorem ofWholeSeconds_inj {m n : Nat} : ofWholeSeconds m = ofWholeSeconds n ↔ m = n := by
  rw [ofWholeSeconds, ofWholeSeconds, mk.injEq, Nat.mul_left_inj nanosPerSecond_pos.ne']

theorem toSeconds_ofWholeSeconds {n : Nat} (h : n < 2 ^ 53) : (ofWholeSeconds n).toSeconds = exactly n := by
  have hseconds : (ofWholeSeconds n).seconds = n := Nat.mul_div_cancel n nanosPerSecond_pos
  have hsubsecond : (ofWholeSeconds n).subsecond = 0 := Nat.mul_mod_left n nanosPerSecond
  have hrest : Binary64.ofNat 0 / Binary64.ofNat nanosPerSecond = exactly 0 := by
    decide +kernel
  rw [toSeconds, hseconds, hsubsecond, hrest, Binary64.ofNat_eq_exactly h, Binary64.exactly_add_exactly h,
    Nat.add_zero]

theorem ofSeconds?_exactly {n : Nat} (h : n < 2 ^ 64) : ofSeconds? (exactly n) = .ok (ofWholeSeconds n) := by
  have hnanos : Binary64.roundQuotient (n * Binary64.oneUnits * nanosPerSecond) Binary64.oneUnits =
      n * nanosPerSecond := by
    rw [Nat.mul_right_comm, Binary64.roundQuotient_mul _ Binary64.oneUnits_pos]
  have hrange : n * nanosPerSecond < Nat.pow 2 64 * nanosPerSecond := Nat.mul_lt_mul_of_pos_right h nanosPerSecond_pos
  simp only [ofSeconds?, exactly, hnanos, if_pos hrange]
  rfl

end Duration

/-! ## Delays that there are -/

namespace Duration

/-- What numbers of seconds are spans. -/
theorem exists_ofSeconds?_iff {x : Binary64} :
    (∃ d, ofSeconds? x = .ok d) ↔ ∃ negative units, x = .finite negative units ∧ (negative = true → units = 0) ∧
      Binary64.roundQuotient (units * nanosPerSecond) Binary64.oneUnits < Nat.pow 2 64 * nanosPerSecond := by
  cases x with
  | nan => exact iff_of_false (by simp [ofSeconds?]) (by simp)
  | infinite negative => exact iff_of_false (by simp [ofSeconds?]) (by simp)
  | finite negative units =>
    simp only [ofSeconds?]
    split
    case isTrue hsign =>
      refine iff_of_false (by simp) ?_
      rintro ⟨negative', units', hsame, hzero, -⟩
      cases hsame
      simp only [Bool.and_eq_true, decide_eq_true_eq] at hsign
      exact hsign.2 (hzero hsign.1)
    case isFalse hsign =>
      split
      case isTrue hrange =>
        refine iff_of_true ⟨_, rfl⟩ ⟨negative, units, rfl, fun hnegative => ?_, hrange⟩
        by_contra hpositive
        exact hsign (by simp [hnegative, hpositive])
      case isFalse hrange =>
        refine iff_of_false (by simp) ?_
        rintro ⟨negative', units', hsame, -, hsmall⟩
        cases hsame
        exact hrange hsmall

/-- A number that is not negative is a span once it is capped by one. -/
theorem ofSeconds?_min {x cap : Binary64} (hx : x.isNegative = false) (hcap : ∃ d, ofSeconds? cap = .ok d) :
    ∃ d, ofSeconds? (Binary64.min x cap) = .ok d := by
  have hspan := hcap
  obtain ⟨negative, units, rfl, hzero, hrange⟩ := exists_ofSeconds?_iff.1 hcap
  rcases Binary64.min_cases hx negative units with hmin | ⟨fewer, hle, hmin⟩
  · rwa [hmin]
  · refine exists_ofSeconds?_iff.2 ⟨false, fewer, hmin, fun hnegative => absurd hnegative (by simp), ?_⟩
    exact Nat.lt_of_le_of_lt (Binary64.roundQuotient_mono (Nat.mul_le_mul_right nanosPerSecond hle) _) hrange

theorem isNegative_toSeconds (d : Duration) : d.toSeconds.isNegative = false :=
  Binary64.isNegative_add (Binary64.isNegative_ofNat _)
    (Binary64.isNegative_div (Binary64.isNegative_ofNat _) (Binary64.isNegative_ofNat _))

end Duration

namespace RetryPolicy

theorem isNegative_uncappedDelay (p : RetryPolicy) (retry : Nat) : (p.uncappedDelay retry).isNegative = false := by
  have hinitial := p.initialDelay.isNegative_toSeconds
  unfold uncappedDelay
  cases p.strategy with
  | exponential => exact Binary64.isNegative_mul hinitial (Binary64.isNegative_twoPow retry)
  | linear => exact Binary64.isNegative_mul hinitial (Binary64.isNegative_add (Binary64.isNegative_ofNat retry) rfl)
  | constant => exact hinitial

/-- The longest delay of a policy is a span when it is taken in floating-point seconds: it is less than `2 ^ 64` seconds
also after rounding. -/
def HasLongest (p : RetryPolicy) : Prop := ∃ longest, Duration.ofSeconds? p.maxDelay.toSeconds = .ok longest

/-- **There is a delay before every retry**, if the longest delay is a span in floating-point seconds. -/
theorem delay?_eq_ok {p : RetryPolicy} (h : p.HasLongest) (retry : Nat) : p.delay? retry = .ok (p.delay retry) := by
  obtain ⟨d, hd⟩ := Duration.ofSeconds?_min (p.isNegative_uncappedDelay retry) h
  have hdelay : p.delay? retry = .ok d := hd
  rw [delay, hdelay]

/-- A policy with the longest delays that there are. -/
def unboundedPolicy : RetryPolicy where
  initialDelay := ⟨Nat.pow 2 64 * Duration.nanosPerSecond - 1⟩
  maxDelay := ⟨Nat.pow 2 64 * Duration.nanosPerSecond - 1⟩

/-- Nothing is to be said against this policy, and there is no delay before its first retry. -/
theorem delay?_unbounded : unboundedPolicy.complaint? = none ∧ unboundedPolicy.delay? 0 = .error .outOfRange := by
  decide +kernel

end RetryPolicy

/-! ## Policies in whole seconds -/

namespace RetryPolicy

open Binary64 (exactly)

/-- The delays of a policy are whole seconds, and less than `2 ^ 20`. -/
structure InSeconds (p : RetryPolicy) (initial longest : Nat) : Prop where
  initialDelay : p.initialDelay = .ofWholeSeconds initial
  maxDelay : p.maxDelay = .ofWholeSeconds longest
  initial_lt : initial < 2 ^ 20
  longest_lt : longest < 2 ^ 20

/-- A delay of zero is to be multiplied by a power of two that is too large for the format. -/
def VanishesAt (p : RetryPolicy) (initial retry : Nat) : Prop :=
  p.strategy = .exponential ∧ initial = 0 ∧ 1024 ≤ retry

instance (p : RetryPolicy) (initial retry : Nat) : Decidable (p.VanishesAt initial retry) :=
  inferInstanceAs (Decidable (_ ∧ _ ∧ _))

variable {p : RetryPolicy} {initial longest retry : Nat}

namespace InSeconds

theorem toSeconds_initialDelay (h : p.InSeconds initial longest) : p.initialDelay.toSeconds = exactly initial := by
  rw [h.initialDelay, Duration.toSeconds_ofWholeSeconds (h.initial_lt.trans (by decide))]

theorem toSeconds_maxDelay (h : p.InSeconds initial longest) : p.maxDelay.toSeconds = exactly longest := by
  rw [h.maxDelay, Duration.toSeconds_ofWholeSeconds (h.longest_lt.trans (by decide))]

theorem hasLongest (h : p.InSeconds initial longest) : p.HasLongest := by
  rw [HasLongest, h.toSeconds_maxDelay]
  exact ⟨_, Duration.ofSeconds?_exactly (h.longest_lt.trans (by decide))⟩

/-- The delay is what is left of the uncapped one by the cap. -/
theorem delay_of_min (h : p.InSeconds initial longest) {seconds : Nat} (hle : seconds ≤ longest)
    (hmin : Binary64.min (p.uncappedDelay retry) (exactly longest) = exactly seconds) :
    p.delay retry = .ofWholeSeconds seconds := by
  have hrange : seconds < 2 ^ 64 := (Nat.lt_of_le_of_lt hle h.longest_lt).trans (by decide)
  simp only [delay, delay?, h.toSeconds_maxDelay, hmin, Duration.ofSeconds?_exactly hrange]

/-- A finite delay is capped. -/
theorem delay_of_exactly (h : p.InSeconds initial longest) {seconds : Nat}
    (huncapped : p.uncappedDelay retry = exactly seconds) :
    p.delay retry = .ofWholeSeconds (Nat.min longest seconds) := by
  refine h.delay_of_min (Nat.min_le_left _ _) ?_
  rw [huncapped, Binary64.min_exactly]
  exact congrArg exactly (Nat.min_comm _ _)

/-- A delay that is infinite, or not a number, is the longest one. -/
theorem delay_of_overflow (h : p.InSeconds initial longest)
    (huncapped : p.uncappedDelay retry = .infinite false ∨ p.uncappedDelay retry = .nan) :
    p.delay retry = .ofWholeSeconds longest := by
  refine h.delay_of_min (Nat.le_refl _) ?_
  rcases huncapped with hinfinite | hnan
  · rw [hinfinite, Binary64.min_infinite]
  · rw [hnan, Binary64.min_nan]

theorem min_eq_longest (h : p.InSeconds initial longest) {seconds : Nat} (hlarge : 2 ^ 20 ≤ seconds) :
    Nat.min longest seconds = longest :=
  Nat.min_eq_left (h.longest_lt.le.trans hlarge)

theorem delay_of_constant (h : p.InSeconds initial longest) (hstrategy : p.strategy = .constant) :
    p.delay retry = .ofWholeSeconds (Nat.min longest initial) :=
  h.delay_of_exactly (by simp only [uncappedDelay, hstrategy, h.toSeconds_initialDelay])

theorem delay_of_linear (h : p.InSeconds initial longest) (hstrategy : p.strategy = .linear)
    (hretry : retry < 2 ^ 32) : p.delay retry = .ofWholeSeconds (Nat.min longest (initial * (retry + 1))) := by
  refine h.delay_of_exactly ?_
  have hproduct : initial * (retry + 1) < 2 ^ 53 := by
    calc initial * (retry + 1) ≤ 2 ^ 20 * 2 ^ 32 := Nat.mul_le_mul h.initial_lt.le hretry
      _ < 2 ^ 53 := by decide
  have hfactor : Binary64.ofNat retry + Binary64.one = exactly (retry + 1) := by
    rw [Binary64.ofNat_eq_exactly (hretry.trans (by decide)), ← Binary64.exactly_one,
      Binary64.exactly_add_exactly (by omega)]
  simp only [uncappedDelay, hstrategy, h.toSeconds_initialDelay, hfactor]
  exact Binary64.exactly_mul_exactly hproduct

/-- As long as the power is finite, the product is exact or too large, and then so is the backoff. -/
theorem delay_of_finite_power (h : p.InSeconds initial longest) (hstrategy : p.strategy = .exponential)
    (hretry : retry < 1024) : p.delay retry = .ofWholeSeconds (Nat.min longest (initial * 2 ^ retry)) := by
  have huncapped : p.uncappedDelay retry = exactly initial * Binary64.twoPow retry := by
    simp only [uncappedDelay, hstrategy, h.toSeconds_initialDelay]
  rw [Binary64.exactly_mul_twoPow (h.initial_lt.trans (by decide)) hretry] at huncapped
  split at huncapped
  case isTrue => exact h.delay_of_exactly huncapped
  case isFalse hlarge =>
    have hbackoff : 2 ^ 20 ≤ initial * 2 ^ retry :=
      (Nat.pow_le_pow_right (by decide) (by decide)).trans (Nat.le_of_not_lt hlarge)
    rw [h.min_eq_longest hbackoff]
    exact h.delay_of_overflow (Or.inl huncapped)

/-- If the power is infinite, the longest delay is what is left. -/
theorem delay_of_infinite_power (h : p.InSeconds initial longest) (hstrategy : p.strategy = .exponential)
    (hretry : 1024 ≤ retry) : p.delay retry = .ofWholeSeconds longest := by
  refine h.delay_of_overflow ?_
  have htwoPow : Binary64.twoPow retry = .infinite false := if_neg (Nat.not_lt.2 hretry)
  simp only [uncappedDelay, hstrategy, h.toSeconds_initialDelay, htwoPow, Binary64.exactly_mul_infinite]
  split
  · exact Or.inr rfl
  · exact Or.inl rfl

end InSeconds

/-- What the delay is: the capped backoff, and the longest delay where the product is not a number. -/
theorem delay_eq (h : p.InSeconds initial longest) (hretry : retry < 2 ^ 32) :
    p.delay retry = .ofWholeSeconds
      (if p.VanishesAt initial retry then longest else Nat.min longest (p.strategy.backoff initial retry)) := by
  cases hstrategy : p.strategy with
  | constant =>
    rw [if_neg fun hvanishes => absurd (hstrategy.symm.trans hvanishes.1) (by decide)]
    exact h.delay_of_constant hstrategy
  | linear =>
    rw [if_neg fun hvanishes => absurd (hstrategy.symm.trans hvanishes.1) (by decide)]
    exact h.delay_of_linear hstrategy hretry
  | exponential =>
    by_cases hfinite : retry < 1024
    case pos =>
      rw [if_neg fun hvanishes => absurd hvanishes.2.2 (Nat.not_le.2 hfinite)]
      exact h.delay_of_finite_power hstrategy hfinite
    case neg =>
      have hinfinite : 1024 ≤ retry := Nat.le_of_not_lt hfinite
      rw [h.delay_of_infinite_power hstrategy hinfinite]
      split
      · rfl
      case isFalse hvanishes =>
        have hpositive : 0 < initial := Nat.pos_of_ne_zero fun hzero => hvanishes ⟨hstrategy, hzero, hinfinite⟩
        have hbackoff : 2 ^ 20 ≤ initial * 2 ^ retry :=
          calc 2 ^ 20 ≤ 2 ^ retry := Nat.pow_le_pow_right (by decide) (Nat.le_trans (by decide) hinfinite)
            _ ≤ initial * 2 ^ retry := Nat.le_mul_of_pos_left _ hpositive
        rw [RetryStrategy.backoff, h.min_eq_longest hbackoff]

end RetryPolicy

open RetryPolicy in
/-- **The delay is the capped backoff**, for delays of whole seconds, except for an initial delay of zero that grows
exponentially up to retry 1024 and beyond: then it is the longest delay.  The delay never exceeds the longest one and
does not shrink from one retry to a later one. -/
theorem delay_eq_backoff_iff {p : RetryPolicy} {initial longest : Nat} (h : p.InSeconds initial longest) {retry : Nat}
    (hretry : retry < 2 ^ 32) :
    (p.delay retry = .ofWholeSeconds (Nat.min longest (p.strategy.backoff initial retry)) ↔
        ¬(p.strategy = .exponential ∧ initial = 0 ∧ 1024 ≤ retry ∧ 0 < longest)) ∧
      (p.strategy = .exponential ∧ initial = 0 ∧ 1024 ≤ retry → p.delay retry = p.maxDelay) ∧
      p.delay retry ≤ p.maxDelay ∧
      ∀ later, retry ≤ later → later < 2 ^ 32 → p.delay retry ≤ p.delay later := by
  have hdelay := delay_eq h hretry
  have hlongest : p.delay retry ≤ .ofWholeSeconds longest := by
    rw [hdelay, Duration.ofWholeSeconds_le_iff]
    split
    · exact Nat.le_refl longest
    · exact Nat.min_le_left _ _
  refine ⟨?formula, ?vanishing, h.maxDelay ▸ hlongest, fun later hlater hlimit => ?mono⟩
  case formula =>
    rw [hdelay, Duration.ofWholeSeconds_inj]
    by_cases hvanishes : p.VanishesAt initial retry
    case neg =>
      rw [if_neg hvanishes]
      exact iff_of_true rfl fun hexception => hvanishes ⟨hexception.1, hexception.2.1, hexception.2.2.1⟩
    case pos =>
      obtain ⟨hstrategy, rfl, hoverflow⟩ := hvanishes
      have hzero : Nat.min longest (p.strategy.backoff 0 retry) = 0 := by
        rw [hstrategy, RetryStrategy.backoff, Nat.zero_mul]
        exact Nat.min_zero longest
      rw [if_pos ⟨hstrategy, rfl, hoverflow⟩, hzero]
      exact ⟨fun heq hexception => hexception.2.2.2.ne' heq,
        fun hexception => Nat.eq_zero_of_not_pos fun hpos => hexception ⟨hstrategy, rfl, hoverflow, hpos⟩⟩
  case vanishing =>
    intro hvanishes
    rw [hdelay, h.maxDelay]
    exact congrArg Duration.ofWholeSeconds (if_pos hvanishes)
  case mono =>
    by_cases hvanishes : p.VanishesAt initial later
    case pos =>
      rw [delay_eq h hlimit, if_pos hvanishes]
      exact hlongest
    case neg =>
      have hbefore : ¬p.VanishesAt initial retry :=
        fun hfirst => hvanishes ⟨hfirst.1, hfirst.2.1, hfirst.2.2.trans hlater⟩
      rw [hdelay, delay_eq h hlimit, if_neg hvanishes, if_neg hbefore, Duration.ofWholeSeconds_le_iff]
      exact min_le_min (Nat.le_refl longest) (p.strategy.backoff_mono initial hlater)

/-- A policy that retries at once, as often as it may be. -/
def atOncePolicy : RetryPolicy := { initialDelay := .ofWholeSeconds 0, maxRetries := 2000 }

/-- A delay of zero that grows exponentially becomes the longest one: zero times the overflowing power is not a number,
and the cap takes its place. -/
theorem zero_delay_becomes_longest :
    atOncePolicy.InSeconds 0 30 ∧ atOncePolicy.complaint? = none ∧
      RetryStrategy.backoff atOncePolicy.strategy 0 1024 = 0 ∧
      atOncePolicy.delay 1024 = .ofWholeSeconds 30 ∧
      atOncePolicy.delay 1024 ≠ .ofWholeSeconds (Nat.min 30 (atOncePolicy.strategy.backoff 0 1024)) := by
  refine ⟨⟨rfl, rfl, by decide, by decide⟩, by decide +kernel, by decide +kernel, by decide +kernel, by decide +kernel⟩

/-- A policy whose first delay is three seconds. -/
def patientPolicy : RetryPolicy := { initialDelay := .ofWholeSeconds 3 }

/-- Three seconds are doubled up to the cap, and stay there until the last retry number that there is. -/
theorem delay_eq_backoff_iff_of_three_seconds :
    patientPolicy.InSeconds 3 30 ∧ patientPolicy.delay 2 = .ofWholeSeconds 12 ∧
      patientPolicy.delay 4294967295 = .ofWholeSeconds 30 ∧
      atOncePolicy.InSeconds 0 30 ∧ atOncePolicy.delay 1024 = atOncePolicy.maxDelay := by
  have hpatient : patientPolicy.InSeconds 3 30 := ⟨rfl, rfl, by decide, by decide⟩
  have hatOnce : atOncePolicy.InSeconds 0 30 := ⟨rfl, rfl, by decide, by decide⟩
  obtain ⟨hformula, -, -, -⟩ := @delay_eq_backoff_iff _ _ _ hpatient 2 (by decide)
  obtain ⟨hcapped, -, -, hmono⟩ := @delay_eq_backoff_iff _ _ _ hpatient 4 (by decide)
  obtain ⟨-, -, hlongest, -⟩ := @delay_eq_backoff_iff _ _ _ hpatient 4294967295 (by decide)
  obtain ⟨-, hvanishing, -, -⟩ := @delay_eq_backoff_iff _ _ _ hatOnce 1024 (by decide)
  have hfour : patientPolicy.delay 4 = .ofWholeSeconds 30 := hcapped.2 (by decide)
  have hlast : Duration.ofWholeSeconds 30 ≤ patientPolicy.delay 4294967295 :=
    hfour ▸ hmono 4294967295 (by decide) (by decide)
  exact ⟨hpatient, hformula.2 (by decide), Duration.le_antisymm hlongest hlast, hatOnce,
    hvanishing ⟨rfl, rfl, by decide⟩⟩

end QueryRelay
