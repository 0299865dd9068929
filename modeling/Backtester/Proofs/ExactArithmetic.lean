import Backtester.Metrics.Rounding
import Backtester.Strategy
import Backtester.Run
import Mathlib

/-!
# Exact arithmetic

The engine reads as exact arithmetic over the real numbers together with the two infinities and the
value that is not a number.  The special values are those of doubles, except that zero has no sign:
what is divided by zero becomes an infinity of its own sign.

* `Exact` — the values, and `Scalar Exact` — their arithmetic.
* `roundTo_number` — rounding a number to decimal places.
* `nearestDecimal_nearestDecimal` — rounding to the same places again changes nothing.
* `foldl_add_number`, `sum_number`, `meanOver_number` — adding up numbers, and their mean.
* `mean_between` — a mean lies between any bounds of the values.
* `IsNumber` — a value is a real number.
* `Candle.map`, `Trade.map`, `RunConfig.map`, `StrategySpec.map` — data with its scalars replaced;
  with `Exact.number` it is data of real numbers, read exactly.
-/

namespace Backtester

/-- The values of exact arithmetic. -/
inductive Exact where
  /-- Not a number. -/
  | nan
  /-- Positive or negative infinity. -/
  | infinite (negative : Bool)
  /-- A real number. -/
  | number (x : ℝ)

namespace Exact

/-- Sums; infinities of different signs have none. -/
noncomputable def add : Exact → Exact → Exact
  | number x, number y => number (x + y)
  | number _, infinite negative => infinite negative
  | infinite negative, number _ => infinite negative
  | infinite negative, infinite negative' => if negative = negative' then infinite negative else nan
  | _, _ => nan

/-- The other sign. -/
noncomputable def neg : Exact → Exact
  | number x => number (-x)
  | infinite negative => infinite (!negative)
  | nan => nan

/-- Products; zero times an infinity has none. -/
noncomputable def mul : Exact → Exact → Exact
  | number x, number y => number (x * y)
  | number x, infinite negative => if x = 0 then nan else infinite (negative ^^ decide (x < 0))
  | infinite negative, number y => if y = 0 then nan else infinite (negative ^^ decide (y < 0))
  | infinite negative, infinite negative' => infinite (negative ^^ negative')
  | _, _ => nan

/-- Quotients; zero over zero and infinity over infinity have none. -/
noncomputable def div : Exact → Exact → Exact
  | number x, number y =>
      if y = 0 then if x = 0 then nan else infinite (decide (x < 0)) else number (x / y)
  | number _, infinite _ => number 0
  | infinite negative, number y => infinite (negative ^^ decide (y < 0))
  | _, _ => nan

/-- Strict order; not-a-number is not in it. -/
def lt : Exact → Exact → Prop
  | number x, number y => x < y
  | number _, infinite negative => negative = false
  | infinite negative, number _ => negative = true
  | infinite negative, infinite negative' => negative = true ∧ negative' = false
  | _, _ => False

/-- Order; not-a-number is not in it. -/
def le : Exact → Exact → Prop
  | number x, number y => x ≤ y
  | number _, infinite negative => negative = false
  | infinite negative, number _ => negative = true
  | infinite negative, infinite negative' => negative = true ∨ negative' = false
  | _, _ => False

/-- Equality; not-a-number equals nothing. -/
noncomputable def beq : Exact → Exact → Bool
  | number x, number y => decide (x = y)
  | infinite negative, infinite negative' => negative == negative'
  | _, _ => false

/-- The square root of what is not negative. -/
noncomputable def sqrt : Exact → Exact
  | number x => if x < 0 then nan else number √x
  | infinite false => infinite false
  | _ => nan

/-- The magnitude. -/
noncomputable def magnitude : Exact → Exact
  | number x => number |x|
  | infinite _ => infinite false
  | nan => nan

/-- The nearest whole number, a half going away from zero. -/
noncomputable def nearestWhole (x : ℝ) : ℤ := if 0 ≤ x then round x else -round (-x)

/-- Rounding to a whole number leaves the special values. -/
noncomputable def roundWhole : Exact → Exact
  | number x => number (nearestWhole x)
  | x => x

/-- The real number `± digits · 10 ^ exponent`. -/
noncomputable def decimal (negative : Bool) (digits : ℕ) (exponent : ℤ) : ℝ :=
  (if negative then -1 else 1) * (digits * 10 ^ exponent)

noncomputable instance : Scalar Exact where
  add := add
  sub x y := add x (neg y)
  mul := mul
  div := div
  neg := neg
  lt := lt
  le := le
  beq := beq
  decLt := fun _ _ => Classical.propDecidable _
  decLe := fun _ _ => Classical.propDecidable _
  sqrt := sqrt
  magnitude := magnitude
  roundWhole := roundWhole
  isNaN
    | nan => true
    | _ => false
  isFinite
    | number _ => true
    | _ => false
  nan := nan
  infinite := infinite
  ofDecimal negative digits exponent := number (decimal negative digits exponent)

/-! ## Numbers -/

section

variable (x y : ℝ)

@[simp] theorem number_add : number x + number y = number (x + y) := rfl

@[simp] theorem number_sub : number x - number y = number (x - y) :=
  congrArg number (sub_eq_add_neg x y).symm

@[simp] theorem number_mul : number x * number y = number (x * y) := rfl

theorem number_neg : -number x = number (-x) := rfl

@[simp] theorem number_lt : number x < number y ↔ x < y := Iff.rfl

theorem number_le : number x ≤ number y ↔ x ≤ y := Iff.rfl

@[simp] theorem roundWhole_number : Scalar.roundWhole (number x) = number (nearestWhole x) := rfl

theorem number_div {y : ℝ} (hy : y ≠ 0) : number x / number y = number (x / y) := if_neg hy

theorem number_beq : (number x == number y) = true ↔ x = y := decide_eq_true_iff

theorem sqrt_number {x : ℝ} (hx : 0 ≤ x) : Scalar.sqrt (number x) = number √x := if_neg hx.not_gt

end

@[simp] theorem ofNat_eq_number (n : ℕ) : (Scalar.ofNat n : Exact) = number n := by
  show number (decimal false n 0) = number n
  simp [decimal]

theorem numeral_eq_number (n : ℕ) : (OfNat.ofNat n : Exact) = number n := ofNat_eq_number n

theorem zero_eq_number : (0 : Exact) = number 0 := by
  show Scalar.ofNat 0 = _
  rw [ofNat_eq_number, Nat.cast_zero]

/-- Nothing lies above not-a-number. -/
theorem not_nan_lt (x : Exact) : ¬nan < x := id

/-- Nothing lies below not-a-number. -/
theorem not_le_nan (x : Exact) : ¬x ≤ nan := by
  cases x <;> exact id

theorem number_pos_iff (x : ℝ) : 0 < number x ↔ 0 < x := by
  rw [zero_eq_number, number_lt]

theorem number_neg_iff (x : ℝ) : number x < 0 ↔ x < 0 := by
  rw [zero_eq_number, number_lt]

/-! ## Rounding to decimal places -/

theorem powerBySquaring_number (a b : ℝ) (n : ℕ) :
    Scalar.powerBySquaring (number a) (number b) n = number (a * b ^ n) := by
  induction n using Nat.strongRecOn generalizing a b with
  | ind n ih =>
    rw [Scalar.powerBySquaring]
    split
    · next hzero => rw [hzero, pow_zero, mul_one]
    · next hne =>
        have hacc : (if n % 2 = 1 then number a * number b else number a) =
            number (a * b ^ (n % 2)) := by
          rcases Nat.mod_two_eq_zero_or_one n with heven | hodd
          · rw [heven, if_neg (by decide), pow_zero, mul_one]
          · rw [hodd, if_pos rfl, number_mul, pow_one]
        have hvalue : a * b ^ (n % 2) * (b * b) ^ (n / 2) = a * b ^ n := by
          rw [← pow_two, ← pow_mul, mul_assoc, ← pow_add, Nat.mod_add_div]
        dsimp only
        rw [hacc, ← hvalue]
        split
        · next hhalf => rw [hhalf, pow_zero, mul_one]
        · rw [number_mul, ih (n / 2) (by omega)]

theorem powerOfTen_eq_number (places : ℤ) :
    (Scalar.powerOfTen places : Exact) = number (10 ^ places) := by
  have hpower : Scalar.powerBySquaring (1 : Exact) 10 places.natAbs =
      number (10 ^ places.natAbs) := by
    show Scalar.powerBySquaring (Scalar.ofNat 1) (Scalar.ofNat 10) _ = _
    rw [ofNat_eq_number, ofNat_eq_number, powerBySquaring_number]
    norm_num
  unfold Scalar.powerOfTen
  dsimp only
  rw [hpower]
  split
  · next hneg =>
      show Scalar.ofNat 1 / _ = _
      rw [ofNat_eq_number, number_div _ (by positivity), Nat.cast_one, one_div, ← zpow_natCast,
        ← zpow_neg, Int.ofNat_natAbs_of_nonpos hneg.le, neg_neg]
  · next hnonneg =>
      rw [← zpow_natCast, Int.natAbs_of_nonneg (not_lt.mp hnonneg)]

/-- The multiple of a decimal place that is nearest to a number, a half going away from zero. -/
noncomputable def nearestDecimal (x : ℝ) (places : ℤ) : ℝ :=
  nearestWhole (x * 10 ^ places) / 10 ^ places

theorem roundTo_number (x : ℝ) (places : ℤ) :
    roundTo (number x) places = number (nearestDecimal x places) := by
  have hquotient : Scalar.roundWhole (number x * Scalar.powerOfTen places) /
      Scalar.powerOfTen places = number (nearestDecimal x places) := by
    rw [powerOfTen_eq_number, number_mul, roundWhole_number, number_div _ (by positivity)]
    rfl
  unfold roundTo
  dsimp only
  rw [hquotient]
  show (if (number _ == Scalar.ofNat 0) = true then Scalar.ofNat 0 else number _) = _
  rw [ofNat_eq_number]
  split
  · next hzero => rw [(number_beq _ _).mp hzero]
  · rfl

theorem nearestWhole_intCast (j : ℤ) : nearestWhole j = j := by
  unfold nearestWhole
  split
  · exact round_intCast j
  · rw [← Int.cast_neg, round_intCast, neg_neg]

/-- A whole number stays as it is at any decimal place behind the point. -/
theorem nearestDecimal_intCast (j : ℤ) {places : ℤ} (hplaces : 0 ≤ places) :
    nearestDecimal j places = j := by
  lift places to ℕ using hplaces
  have hscaled : (j : ℝ) * 10 ^ (places : ℤ) = (j * 10 ^ places : ℤ) := by
    push_cast
    rw [zpow_natCast]
  rw [nearestDecimal, hscaled, nearestWhole_intCast, ← hscaled]
  exact mul_div_cancel_right₀ _ (by positivity)

/-- A number that is rounded again stays as it is. -/
theorem nearestDecimal_nearestDecimal (x : ℝ) (places : ℤ) :
    nearestDecimal (nearestDecimal x places) places = nearestDecimal x places := by
  have hscaled : nearestDecimal x places * 10 ^ places = nearestWhole (x * 10 ^ places) :=
    div_mul_cancel₀ _ (by positivity)
  rw [nearestDecimal, hscaled, nearestWhole_intCast]
  rfl

/-! ## Sums -/

theorem foldl_add_number (start : ℝ) (xs : List ℝ) :
    (xs.map number).foldl (· + ·) (number start) = number (start + xs.sum) := by
  induction xs generalizing start with
  | nil => simp
  | cons x rest ih =>
      rw [List.map_cons, List.foldl_cons, number_add, ih, List.sum_cons, add_assoc]

theorem sum_number (xs : List ℝ) : Scalar.sum (xs.map number) = number xs.sum := by
  have hstart : (-0 : Exact) = number 0 := by
    rw [zero_eq_number]
    exact congrArg number neg_zero
  rw [Scalar.sum, hstart, foldl_add_number, zero_add]

theorem sum_pair_number (x y : ℝ) : Scalar.sum [number x, number y] = number (x + y) := by
  simpa using sum_number [x, y]

theorem meanOver_number (sum : ℝ) (count : ℕ) :
    meanOver (number sum) count = number (sum / count) := by
  unfold meanOver
  split
  · next hzero => rw [hzero, Nat.cast_zero, div_zero, zero_eq_number]
  · next hne => rw [ofNat_eq_number, number_div _ (Nat.cast_ne_zero.mpr hne)]

/-- A mean lies between any bounds of the values. -/
theorem mean_between {xs : List ℝ} (hne : xs ≠ []) {low high : ℝ}
    (h : ∀ x ∈ xs, low ≤ x ∧ x ≤ high) :
    low ≤ xs.sum / xs.length ∧ xs.sum / xs.length ≤ high := by
  have hcount : (0 : ℝ) < xs.length := Nat.cast_pos.mpr (List.length_pos_iff.mpr hne)
  have hlow := List.card_nsmul_le_sum xs low fun x hx => (h x hx).1
  have hhigh := List.sum_le_card_nsmul xs high fun x hx => (h x hx).2
  rw [nsmul_eq_mul] at hlow hhigh
  rw [le_div_iff₀ hcount, div_le_iff₀ hcount]
  constructor <;> linarith

/-! ## Numbers among the values -/

/-- The value is a real number. -/
def IsNumber (x : Exact) : Prop := ∃ r, x = number r

/-- The real number of a value; zero for those that are none. -/
def toReal : Exact → ℝ
  | number x => x
  | _ => 0

theorem IsNumber.eq_number {x : Exact} (h : IsNumber x) : x = number x.toReal := by
  obtain ⟨r, rfl⟩ := h
  rfl

theorem isNumber_number (r : ℝ) : IsNumber (number r) := ⟨r, rfl⟩

theorem isNumber_ofNat (n : ℕ) : IsNumber (Scalar.ofNat n) := ⟨n, ofNat_eq_number n⟩

section

variable {x y : Exact}

theorem IsNumber.add (hx : IsNumber x) (hy : IsNumber y) : IsNumber (x + y) := by
  obtain ⟨r, rfl⟩ := hx
  obtain ⟨s, rfl⟩ := hy
  exact ⟨r + s, rfl⟩

theorem IsNumber.sub (hx : IsNumber x) (hy : IsNumber y) : IsNumber (x - y) := by
  obtain ⟨r, rfl⟩ := hx
  obtain ⟨s, rfl⟩ := hy
  exact ⟨r - s, number_sub r s⟩

theorem IsNumber.mul (hx : IsNumber x) (hy : IsNumber y) : IsNumber (x * y) := by
  obtain ⟨r, rfl⟩ := hx
  obtain ⟨s, rfl⟩ := hy
  exact ⟨r * s, rfl⟩

theorem IsNumber.div_ofNat (hx : IsNumber x) {n : ℕ} (hn : n ≠ 0) :
    IsNumber (x / Scalar.ofNat n) := by
  obtain ⟨r, rfl⟩ := hx
  rw [ofNat_eq_number]
  exact ⟨_, number_div r (Nat.cast_ne_zero.mpr hn)⟩

end

end Exact

/-! ## Data of real numbers -/

section

variable {α β : Type} (f : α → β)

/-- A candle with its prices and volume replaced. -/
def Candle.map (c : Candle α) : Candle β :=
  ⟨c.time, f c.opening, f c.high, f c.low, f c.close, f c.volume⟩

/-- A trade with its prices and profits replaced. -/
def Trade.map (t : Trade α) : Trade β :=
  ⟨t.entryTime, t.exitTime, f t.entryPrice, f t.exitPrice, f t.profit, f t.profitPercent,
    t.direction, t.outcome, t.reason⟩

/-- Settings with capital and rate replaced. -/
def RunConfig.map (config : RunConfig α) : RunConfig β :=
  ⟨config.symbol, config.timeframe, f config.capital, config.fast, config.slow, f config.riskFree⟩

/-- An entry rule with its threshold replaced. -/
def EntryRule.map (r : EntryRule α) : EntryRule β :=
  ⟨r.condition, r.indicator, r.threshold.map f, r.direction⟩

/-- An exit rule with its threshold and percentages replaced. -/
def ExitRule.map (r : ExitRule α) : ExitRule β :=
  ⟨r.condition, r.indicator, r.threshold.map f, r.stopLossPercent.map f,
    r.takeProfitPercent.map f, r.trailing⟩

/-- A description with the numbers of its rules replaced. -/
def StrategySpec.map (spec : StrategySpec α) : StrategySpec β :=
  ⟨spec.name, spec.indicators, spec.entryRules.map (EntryRule.map f),
    spec.exitRules.map (ExitRule.map f), spec.constraints⟩

end

end Backtester
