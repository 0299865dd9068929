import Backtester.Proofs.ExactArithmetic

/-!
# Prices in another unit

Multiplying all prices by a positive number is a change of their unit.  In exact arithmetic every
computation of the engine either goes along with the change or does not see it.

* `Exact.scaled` — a value in another unit; it goes along with sums, with products and quotients by
  a plain number, with order and, taken twice, with the square root.
* `Quantity` — whether a series counts prices or is a plain number.
* `simpleAverage_scaled`, `standardDeviation_scaled`, `exponentialAverage_scaled` — averages and
  deviations of prices are prices.
* `relativeStrength_scaled` — the relative strength is a plain number.
* `Indicator.outputs_scaled` — the outputs of an indicator, by what they count.
-/

namespace Backtester
namespace Exact

/-! ## Exact values -/

/-- A value in a unit of which `c` make up the old one. -/
noncomputable def scaled (c : ℝ) (x : Exact) : Exact := number c * x

section

variable {c : ℝ}

@[simp] theorem scaled_number (x : ℝ) : scaled c (number x) = number (c * x) := rfl

@[simp] theorem scaled_nan : scaled c nan = nan := rfl

@[simp] theorem scaled_zero : scaled c 0 = 0 := by
  rw [zero_eq_number, scaled_number, mul_zero]

end

variable {c : ℝ} (hc : 0 < c)
include hc

@[simp] theorem scaled_infinite (negative : Bool) :
    scaled c (infinite negative) = infinite negative := by
  show (if c = 0 then nan else infinite (negative ^^ decide (c < 0))) = infinite negative
  rw [if_neg hc.ne', decide_eq_false hc.not_gt, Bool.xor_false]

@[simp] theorem isNaN_scaled (x : Exact) : Scalar.isNaN (scaled c x) = Scalar.isNaN x := by
  cases x with
  | nan => rfl
  | infinite negative => rw [scaled_infinite hc]
  | number x => rfl

theorem scaled_add (x y : Exact) : scaled c (x + y) = scaled c x + scaled c y := by
  show scaled c (add x y) = add (scaled c x) (scaled c y)
  cases x <;> cases y <;> simp [add, hc, mul_add]
  split <;> simp [hc]

theorem scaled_neg (x : Exact) : scaled c (-x) = -scaled c x := by
  show scaled c (neg x) = neg (scaled c x)
  cases x <;> simp [neg, hc]

theorem scaled_sub (x y : Exact) : scaled c (x - y) = scaled c x - scaled c y := by
  show scaled c (x + -y) = scaled c x + -scaled c y
  rw [scaled_add hc, scaled_neg hc]

theorem scaled_mul (x y : Exact) : scaled c (x * y) = scaled c x * y := by
  show scaled c (mul x y) = mul (scaled c x) y
  cases x with
  | nan => rfl
  | infinite negative =>
      cases y <;> simp [mul, hc]
      split <;> simp [hc]
  | number x =>
      cases y <;> simp [mul, mul_assoc, hc.ne', mul_neg_iff, hc, hc.not_gt]
      split <;> simp [hc]

theorem mul_scaled (x y : Exact) : x * scaled c y = scaled c (x * y) := by
  show mul x (scaled c y) = scaled c (mul x y)
  cases x with
  | nan => rfl
  | infinite negative =>
      cases y <;> simp [mul, hc, hc.ne', mul_neg_iff, hc.not_gt]
      split <;> simp [hc]
  | number x =>
      cases y <;> simp [mul, hc, mul_left_comm]
      split <;> simp [hc]

theorem scaled_div (x y : Exact) : scaled c (x / y) = scaled c x / y := by
  show scaled c (div x y) = div (scaled c x) y
  cases x with
  | nan => rfl
  | infinite negative => cases y <;> simp [div, hc]
  | number x =>
      cases y with
      | nan => rfl
      | infinite negative => simp [div]
      | number y =>
          by_cases hy : y = 0
          · by_cases hx : x = 0 <;> simp [div, hy, hx, hc, hc.ne', mul_neg_iff, hc.not_gt]
          · simp [div, hy, mul_div_assoc]

/-- Quotients of two prices do not depend on their unit. -/
theorem scaled_div_scaled (x y : Exact) : scaled c x / scaled c y = x / y := by
  show div (scaled c x) (scaled c y) = div x y
  cases x with
  | nan => rfl
  | infinite negative => cases y <;> simp [div, hc, mul_neg_iff, hc.not_gt]
  | number x =>
      cases y <;> simp [div, hc.ne', mul_neg_iff, hc, hc.not_gt, mul_div_mul_left]

@[simp] theorem scaled_lt_scaled {x y : Exact} : scaled c x < scaled c y ↔ x < y := by
  show lt (scaled c x) (scaled c y) ↔ lt x y
  cases x <;> cases y <;> simp [lt, hc]

@[simp] theorem scaled_le_scaled {x y : Exact} : scaled c x ≤ scaled c y ↔ x ≤ y := by
  show le (scaled c x) (scaled c y) ↔ le x y
  cases x <;> cases y <;> simp [le, hc]

@[simp] theorem scaled_pos {x : Exact} : 0 < scaled c x ↔ 0 < x := by
  rw [← scaled_lt_scaled hc (x := 0) (y := x), scaled_zero]

@[simp] theorem scaled_neg_iff {x : Exact} : scaled c x < 0 ↔ x < 0 := by
  rw [← scaled_lt_scaled hc (x := x) (y := 0), scaled_zero]

@[simp] theorem scaled_beq_zero (x : Exact) : (scaled c x == 0) = (x == 0) := by
  rw [zero_eq_number]
  show beq (scaled c x) (number 0) = beq x (number 0)
  cases x <;> simp [beq, hc, hc.ne']

theorem sqrt_scaled_scaled (x : Exact) :
    Scalar.sqrt (scaled c (scaled c x)) = scaled c (Scalar.sqrt x) := by
  show sqrt (scaled c (scaled c x)) = scaled c (sqrt x)
  cases x with
  | nan => rfl
  | infinite negative => cases negative <;> simp [sqrt, hc]
  | number x =>
      by_cases hx : x < 0
      · simp [sqrt, hx, mul_neg_iff, hc, hc.not_gt]
      · have hroot : √(c * (c * x)) = c * √x := by
          rw [← mul_assoc, Real.sqrt_mul (mul_self_nonneg c), Real.sqrt_mul_self hc.le]
        simp [sqrt, hx, mul_neg_iff, hc, hc.not_gt, hroot]

theorem larger_scaled (x y : Exact) :
    Scalar.larger (scaled c x) (scaled c y) = scaled c (Scalar.larger x y) := by
  simp only [Scalar.larger, isNaN_scaled hc, scaled_lt_scaled hc, apply_ite (scaled c)]

theorem smaller_scaled (x y : Exact) :
    Scalar.smaller (scaled c x) (scaled c y) = scaled c (Scalar.smaller x y) := by
  simp only [Scalar.smaller, isNaN_scaled hc, scaled_lt_scaled hc, apply_ite (scaled c)]

theorem sum_scaled (xs : List Exact) :
    Scalar.sum (xs.map (scaled c)) = scaled c (Scalar.sum xs) := by
  have hfold (total : Exact) : (xs.map (scaled c)).foldl (· + ·) (scaled c total) =
      scaled c (xs.foldl (· + ·) total) := by
    induction xs generalizing total with
    | nil => rfl
    | cons x rest ih => rw [List.map_cons, List.foldl_cons, List.foldl_cons, ← scaled_add hc, ih]
  rw [Scalar.sum, Scalar.sum, ← hfold, scaled_neg hc, scaled_zero]

end Exact

open Exact

/-! ## Windows -/

section

variable {c : ℝ} (hc : 0 < c)

theorem window_map {α β : Type} (f : α → β) (xs : List α) (size i : ℕ) :
    window (xs.map f) size i = (window xs size i).map f := by
  rw [window, window, List.map_take, List.map_drop]

theorem undefinedSeries_map (f : Exact → Exact) (xs : List Exact) :
    undefinedSeries (xs.map f) = undefinedSeries xs := by
  rw [undefinedSeries, undefinedSeries, List.length_map]

theorem undefinedSeries_scaled (xs : List Exact) :
    (undefinedSeries xs).map (scaled c) = undefinedSeries xs :=
  List.map_replicate

/-- A figure of each full window goes along with a change of unit if the figure does. -/
theorem windowed_scaled (figure : List Exact → Exact)
    (hfigure : ∀ values, figure (values.map (scaled c)) = scaled c (figure values))
    (xs : List Exact) (period : ℕ) :
    ((List.range (xs.map (scaled c)).length).map fun i =>
        if i + 1 < period then Scalar.nan else figure (window (xs.map (scaled c)) period i)) =
      ((List.range xs.length).map fun i =>
        if i + 1 < period then Scalar.nan else figure (window xs period i)).map (scaled c) := by
  rw [List.length_map, List.map_map]
  apply List.map_congr_left
  intro i _
  rw [Function.comp_apply, apply_ite (scaled c), window_map, hfigure]
  rfl

include hc

theorem simpleAverage_scaled (xs : List Exact) (period : ℕ) :
    simpleAverage (xs.map (scaled c)) period = (simpleAverage xs period).map (scaled c) := by
  unfold simpleAverage
  split
  · rw [undefinedSeries_map, undefinedSeries_scaled]
  · refine windowed_scaled (fun values => Scalar.sum values / Scalar.ofNat period)
      (fun values => ?_) xs period
    rw [sum_scaled hc, scaled_div hc]

theorem windowDeviation_scaled (values : List Exact) (period : ℕ) :
    windowDeviation (values.map (scaled c)) period = scaled c (windowDeviation values period) := by
  have hsquares (mean : Exact) :
      (values.map (scaled c)).map (fun x => (x - scaled c mean) * (x - scaled c mean)) =
        ((values.map fun x => (x - mean) * (x - mean)).map (scaled c)).map (scaled c) := by
    rw [List.map_map, List.map_map, List.map_map]
    apply List.map_congr_left
    intro x _
    simp only [Function.comp_apply]
    rw [← scaled_sub hc, mul_scaled hc, ← scaled_mul hc]
  unfold windowDeviation
  dsimp only
  rw [sum_scaled hc, ← scaled_div hc, hsquares, sum_scaled hc, sum_scaled hc, ← scaled_div hc,
    ← scaled_div hc, sqrt_scaled_scaled hc]

theorem standardDeviation_scaled (xs : List Exact) (period : ℕ) :
    standardDeviation (xs.map (scaled c)) period = (standardDeviation xs period).map (scaled c) := by
  unfold standardDeviation
  split
  · rw [undefinedSeries_map, undefinedSeries_scaled]
  · exact windowed_scaled (fun values => windowDeviation values period)
      (fun values => windowDeviation_scaled hc values period) xs period

/-! ## Recursive series -/

theorem averageFrom_scaled (weight last : Exact) (xs : List Exact) :
    averageFrom weight (scaled c last) (xs.map (scaled c)) =
      (averageFrom weight last xs).map (scaled c) := by
  induction xs generalizing last with
  | nil => rfl
  | cons x rest ih =>
      have hnext : scaled c x * weight + scaled c last * (1 - weight) =
          scaled c (x * weight + last * (1 - weight)) := by
        rw [scaled_add hc, scaled_mul hc, scaled_mul hc]
      rw [List.map_cons, averageFrom, averageFrom, List.map_cons, hnext, ih]

theorem exponentialAverage_scaled (xs : List Exact) (period : ℕ) :
    exponentialAverage (xs.map (scaled c)) period =
      (exponentialAverage xs period).map (scaled c) := by
  unfold exponentialAverage
  split
  · rw [undefinedSeries_map, undefinedSeries_scaled]
  · cases xs with
    | nil => rfl
    | cons first rest =>
        exact congrArg (scaled c first :: ·) (averageFrom_scaled hc _ first rest)

theorem changes_scaled (xs : List Exact) :
    changes (xs.map (scaled c)) = (changes xs).map (scaled c) := by
  rw [changes, changes, ← List.map_tail, List.zipWith_map, List.map_zipWith]
  simp only [scaled_sub hc]

theorem rise_scaled (change : Exact) : rise (scaled c change) = scaled c (rise change) := by
  simp only [rise, scaled_pos hc, apply_ite (scaled c), scaled_zero]

theorem fall_scaled (change : Exact) : fall (scaled c change) = scaled c (fall change) := by
  simp only [fall, scaled_neg_iff hc, apply_ite (scaled c), scaled_zero, scaled_neg hc]

/-- The strength index depends on the quotient of its parts only. -/
theorem strengthIndex_scaled (meanRise meanFall : Exact) :
    strengthIndex (scaled c meanRise) (scaled c meanFall) = strengthIndex meanRise meanFall := by
  rw [strengthIndex, strengthIndex, scaled_beq_zero hc, scaled_div_scaled hc]

theorem relativeStrength_scaled (xs : List Exact) (period : ℕ) :
    relativeStrength (xs.map (scaled c)) period = relativeStrength xs period := by
  have hparts {part : Exact → Exact}
      (hpart : ∀ change, part (scaled c change) = scaled c (part change)) :
      0 :: (changes (xs.map (scaled c))).map part =
        (0 :: (changes xs).map part).map (scaled c) := by
    rw [changes_scaled hc, List.map_map, List.map_cons, scaled_zero, List.map_map]
    exact congrArg (0 :: ·) (List.map_congr_left fun change _ => hpart change)
  unfold relativeStrength
  dsimp only
  rw [List.length_map, undefinedSeries_map, hparts (rise_scaled hc), hparts (fall_scaled hc)]
  split
  · rfl
  · apply List.map_congr_left
    intro i _
    rw [window_map, window_map, sum_scaled hc, sum_scaled hc, ← scaled_div hc, ← scaled_div hc,
      strengthIndex_scaled hc]

end

/-! ## Indicators -/

/-- What the values of a series count. -/
inductive Quantity where
  /-- Prices. -/
  | price
  /-- Numbers without a unit. -/
  | ratio
deriving DecidableEq

/-- A value after a change of the unit of prices. -/
noncomputable def Quantity.scaled (c : ℝ) : Quantity → Exact → Exact
  | price => Exact.scaled c
  | ratio => id

namespace Indicator

/-- What the outputs of an indicator count. -/
def quantity : Indicator → Quantity
  | rsi _ => .ratio
  | _ => .price

variable {c : ℝ} (hc : 0 < c)
include hc

theorem macdOutputs_scaled (closes : List Exact) (fast slow signal : ℕ) :
    macdOutputs (closes.map (Exact.scaled c)) fast slow signal =
      (macdOutputs closes fast slow signal).map (List.map (Exact.scaled c)) := by
  have hdifference (xs ys : List Exact) :
      List.zipWith (· - ·) (xs.map (Exact.scaled c)) (ys.map (Exact.scaled c)) =
        (List.zipWith (· - ·) xs ys).map (Exact.scaled c) := by
    rw [List.zipWith_map, List.map_zipWith]
    simp only [scaled_sub hc]
  unfold macdOutputs
  dsimp only
  split
  · simp only [List.map_cons, List.map_nil, undefinedSeries_map, undefinedSeries_scaled]
  · rw [exponentialAverage_scaled hc, exponentialAverage_scaled hc, hdifference,
      exponentialAverage_scaled hc, hdifference]
    rfl

theorem bollingerOutputs_scaled (closes : List Exact) (period hundredths : ℕ) :
    bollingerOutputs (closes.map (Exact.scaled c)) period hundredths =
      (bollingerOutputs closes period hundredths).map (List.map (Exact.scaled c)) := by
  unfold bollingerOutputs
  simp only [simpleAverage_scaled hc, standardDeviation_scaled hc, List.zipWith_map,
    List.map_cons, List.map_nil, List.map_zipWith, mul_scaled hc, scaled_add hc, scaled_sub hc]

/-- The outputs of an indicator over prices in another unit. -/
theorem outputs_scaled (closes : List Exact) (kind : Indicator) :
    kind.outputs (closes.map (Exact.scaled c)) =
      (kind.outputs closes).map (List.map (kind.quantity.scaled c)) := by
  cases kind with
  | sma period => exact congrArg ([·]) (simpleAverage_scaled hc closes period)
  | ema period => exact congrArg ([·]) (exponentialAverage_scaled hc closes period)
  | rsi period =>
      show [relativeStrength _ period] = [(relativeStrength closes period).map id]
      rw [relativeStrength_scaled hc, List.map_id]
  | macd fast slow signal => exact macdOutputs_scaled hc closes fast slow signal
  | bollinger period hundredths => exact bollingerOutputs_scaled hc closes period hundredths
  | unknown name period => rfl

end Indicator

end Backtester
