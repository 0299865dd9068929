import Backtester.Proofs.Magnitudes
import Backtester.Proofs.Seconds

/-!
# Outcomes and counts

A trade is classified by its profit when it closes, again when that profit is rounded for the
report, and a third time, rounded once more, when it is counted.  The last two agree on every
double: a rounded profit is not a number, or zero, or more than half a unit of the last place away
from zero, and rounding it again leaves it on the side where it is.

* `Beyond` — an infinity, or a number at least so far from zero, on one side of it.
* `roundTo_cases` — what rounding to decimal places leaves.
* `ofProfit_roundTo_roundTo` — rounding again does not change the outcome.
* `Tally.count_ofTrades` — a tally counts the trades of each outcome.
* `summary_counts_outcomes` — the counts of a result are those of its trades.
-/

namespace Backtester
namespace Doubles

open Float.Model
open Float.Model.UnpackedFloat

/-! ## Special values -/

theorem eq_nan_of_unpack {x : Float} (h : x.toModel.unpack = .notANumber) : x = Scalar.nan := by
  rw [← pack_unpack x, h]
  rfl

theorem nan_mul (y : Float) : Scalar.nan * y = Scalar.nan := by
  have hunpacked (u : UnpackedFloat) :
      UnpackedFloat.mul Format.binary64 .notANumber u = .notANumber := by
    cases u <;> rfl
  show Float.ofModel (pack (UnpackedFloat.mul Format.binary64 .notANumber y.toModel.unpack)) = _
  rw [hunpacked]
  rfl

theorem nan_div (y : Float) : Scalar.nan / y = Scalar.nan := by
  have hunpacked (u : UnpackedFloat) :
      UnpackedFloat.div Format.binary64 .notANumber u = .notANumber := by
    cases u <;> rfl
  show Float.ofModel (pack (UnpackedFloat.div Format.binary64 .notANumber y.toModel.unpack)) = _
  rw [hunpacked]
  rfl

theorem roundTo_nan (places : ℤ) : roundTo (Scalar.nan : Float) places = Scalar.nan := by
  have hwhole : (Scalar.roundWhole Scalar.nan : Float) = Scalar.nan := rfl
  unfold roundTo
  dsimp only
  rw [nan_mul, hwhole, nan_div]
  exact if_neg (by decide)

section

variable {sign : Sign} {x y : Float}

theorem infinite_mul (hx : x.toModel.unpack = .infinity sign) (hy : y.isFinite = true)
    (hpositive : 0 < toReal y) : (x * y).toModel.unpack = .infinity sign := by
  obtain ⟨m, e, hm, hunpack⟩ := exists_unpack_of_pos hy hpositive
  have hunpacked : UnpackedFloat.mul Format.binary64 (.infinity sign) (.finite .positive m e hm) =
      .infinity sign := by
    cases sign <;> rfl
  show (pack (UnpackedFloat.mul Format.binary64 x.toModel.unpack y.toModel.unpack)).unpack = _
  rw [hx, hunpack, hunpacked]
  cases sign <;> rfl

theorem infinite_div (hx : x.toModel.unpack = .infinity sign) (hy : y.isFinite = true)
    (hpositive : 0 < toReal y) : (x / y).toModel.unpack = .infinity sign := by
  obtain ⟨m, e, hm, hunpack⟩ := exists_unpack_of_pos hy hpositive
  have hunpacked : UnpackedFloat.div Format.binary64 (.infinity sign) (.finite .positive m e hm) =
      .infinity sign := by
    cases sign <;> rfl
  show (pack (UnpackedFloat.div Format.binary64 x.toModel.unpack y.toModel.unpack)).unpack = _
  rw [hx, hunpack, hunpacked]
  cases sign <;> rfl

theorem roundWhole_infinite (hx : x.toModel.unpack = .infinity sign) :
    (Scalar.roundWhole x).toModel.unpack = .infinity sign := by
  rw [← pack_unpack x, hx]
  cases sign <;> rfl

end

/-! ## One side of zero -/

/-- An infinity of a sign, or a number of that sign of magnitude at least `b`. -/
inductive Beyond (b : ℝ) (sign : Sign) (x : Float) : Prop
  | infinite (hx : x.toModel.unpack = .infinity sign)
  | finite (hfinite : x.isFinite = true) (hle : b ≤ signum sign * toReal x)

section

variable {b : ℝ} {sign : Sign} {x y : Float}

/-- Rounding a result leaves it beyond every double that it is beyond. -/
theorem RoundsTo.beyond {r : ℝ} (h : RoundsTo r x) (hb : IsDouble b) (hpositive : 0 < b)
    (hr : b ≤ signum sign * r) : Beyond b sign x := by
  cases h with
  | finite hfinite hnearest =>
      refine .finite hfinite ?_
      cases sign with
      | positive => simpa [signum] using hnearest.ge_of_ge hb (by simpa [signum] using hr)
      | negative => simpa [signum] using hnearest.neg.ge_of_ge hb (by simpa [signum] using hr)
  | above hx hnearest hy =>
      cases sign with
      | positive => exact .infinite hx
      | negative =>
          -- What overflows above has a nearest double above zero.
          have hlow := hnearest.neg.ge_of_ge hb (by simpa [signum] using hr)
          linarith [limit_pos]
  | below hx hnearest hy =>
      cases sign with
      | negative => exact .infinite hx
      | positive =>
          have hlow := hnearest.ge_of_ge hb (by simpa [signum] using hr)
          linarith [limit_pos]

/-- A whole number other than zero is one at least. -/
theorem RoundsTo.beyond_one {j : ℤ} (h : RoundsTo j x) (hj : 0 < signum sign * j) :
    Beyond 1 sign x := by
  refine h.beyond (by simpa using isDouble_pow 0) one_pos ?_
  cases sign with
  | positive =>
      rw [signum, one_mul] at hj ⊢
      have hint : 0 < j := by exact_mod_cast hj
      exact_mod_cast hint
  | negative =>
      rw [signum, neg_one_mul] at hj ⊢
      have hint : 0 < -j := by exact_mod_cast hj
      exact_mod_cast hint

theorem Beyond.mul {places : ℤ} {k : ℕ} (hscale : IsScale places k) (h : Beyond b sign x)
    (hb : IsDouble (b * k)) (hpositive : 0 < b) :
    Beyond (b * k) sign (x * Scalar.powerOfTen places) := by
  have hk : (0 : ℝ) < k := by exact_mod_cast hscale.positive
  cases h with
  | infinite hx => exact .infinite (infinite_mul hx hscale.isFinite (by rwa [hscale.value]))
  | finite hfinite hle =>
      refine (mul_roundsTo hfinite hscale.isFinite).beyond hb (mul_pos hpositive hk) ?_
      rw [hscale.value, ← mul_assoc]
      exact mul_le_mul_of_nonneg_right hle hk.le

theorem Beyond.div {places : ℤ} {k : ℕ} (hscale : IsScale places k) (h : Beyond 1 sign x) :
    Beyond (2 ^ (-14 : ℤ)) sign (x / Scalar.powerOfTen places) := by
  have hk : (0 : ℝ) < k := by exact_mod_cast hscale.positive
  have hshort : (k : ℝ) ≤ 2 ^ 14 := by exact_mod_cast hscale.short
  cases h with
  | infinite hx => exact .infinite (infinite_div hx hscale.isFinite (by rwa [hscale.value]))
  | finite hfinite hle =>
      refine (div_roundsTo hfinite hscale.isFinite (by rw [hscale.value]; exact hk.ne')).beyond
        (isDouble_zpow (by norm_num)) (by positivity) ?_
      have hunit : (2 : ℝ) ^ (-14 : ℤ) * 2 ^ 14 = 1 := by norm_num
      rw [hscale.value, ← mul_div_assoc, le_div_iff₀ hk]
      exact (mul_le_mul_of_nonneg_left hshort (by positivity)).trans (hunit.le.trans hle)

/-- More than one half is rounded to one at least. -/
theorem Beyond.roundWhole (h : Beyond b sign x) (hhalf : 1 / 2 < b) :
    Beyond 1 sign (Scalar.roundWhole x) := by
  cases h with
  | infinite hx => exact .infinite (roundWhole_infinite hx)
  | finite hfinite hle =>
      obtain ⟨j, hj, hrounds⟩ := exists_roundWhole hfinite
      apply hrounds.beyond_one
      rw [abs_le] at hj
      cases sign with
      | positive =>
          rw [signum] at hle ⊢
          linarith
      | negative =>
          rw [signum] at hle ⊢
          linarith

theorem Beyond.beq_zero (h : Beyond b sign x) (hpositive : 0 < b) :
    (x == Scalar.ofNat 0) = false := by
  cases h with
  | infinite hx =>
      rw [← pack_unpack x, hx]
      cases sign <;> rfl
  | finite hfinite hle =>
      rw [Bool.eq_false_iff, Ne, beq_zero_iff hfinite]
      intro hzero
      rw [hzero, mul_zero] at hle
      linarith

theorem Beyond.ne_zero (h : Beyond b sign x) (hpositive : 0 < b) : x ≠ 0 := by
  rintro rfl
  exact absurd (h.beq_zero hpositive) (by decide)

theorem Beyond.isNaN_eq_false (h : Beyond b sign x) : x.isNaN = false := by
  rw [Doubles.isNaN_eq_false_iff]
  intro hnan
  cases h with
  | infinite hx =>
      rw [hx] at hnan
      cases hnan
  | finite hfinite hle =>
      have hunpack : x.toModel.unpack.isFinite = true := hfinite
      rw [hnan] at hunpack
      cases hunpack

theorem Beyond.above_zero (h : Beyond b .positive x) (hpositive : 0 < b) : 0 < x ∧ ¬x < 0 := by
  cases h with
  | infinite hx =>
      rw [← pack_unpack x, hx]
      decide
  | finite hfinite hle =>
      rw [signum, one_mul] at hle
      rw [lt_iff_toReal hfinite toReal_zero.1, lt_iff_toReal toReal_zero.1 hfinite, toReal_zero.2]
      constructor <;> linarith

theorem Beyond.below_zero (h : Beyond b .negative x) (hpositive : 0 < b) : ¬0 < x ∧ x < 0 := by
  cases h with
  | infinite hx =>
      rw [← pack_unpack x, hx]
      decide
  | finite hfinite hle =>
      rw [signum, neg_one_mul] at hle
      rw [lt_iff_toReal hfinite toReal_zero.1, lt_iff_toReal toReal_zero.1 hfinite, toReal_zero.2]
      constructor <;> linarith

end

/-! ## Rounding to decimal places -/

section

variable {places : ℤ} {k : ℕ} {sign : Sign} {x : Float}

theorem roundTo_eq_ite (x : Float) (places : ℤ) :
    roundTo x places =
      if (Scalar.roundWhole (x * Scalar.powerOfTen places) / Scalar.powerOfTen places ==
        Scalar.ofNat 0) = true then 0
      else Scalar.roundWhole (x * Scalar.powerOfTen places) / Scalar.powerOfTen places :=
  rfl

theorem roundTo_beyond (hscale : IsScale places k)
    (h : Beyond 1 sign (Scalar.roundWhole (x * Scalar.powerOfTen places))) :
    Beyond (2 ^ (-14 : ℤ)) sign (roundTo x places) := by
  have hquotient := h.div hscale
  rwa [roundTo_eq_ite, if_neg (ne_true_of_eq_false (hquotient.beq_zero (by positivity)))]

theorem roundTo_eq_zero (hscale : IsScale places k)
    (h : RoundsTo 0 (Scalar.roundWhole (x * Scalar.powerOfTen places))) :
    roundTo x places = 0 := by
  have hlimit : |(0 : ℝ)| < limit := by rw [abs_zero]; exact limit_pos
  have hk : (k : ℝ) ≠ 0 := by exact_mod_cast hscale.positive.ne'
  obtain ⟨hwhole, hvalue⟩ := h.eq_of_isDouble isDouble_zero hlimit
  have hquotient := div_roundsTo hwhole hscale.isFinite (by rwa [hscale.value])
  rw [hvalue, zero_div] at hquotient
  obtain ⟨hfinite, hzero⟩ := hquotient.eq_of_isDouble isDouble_zero hlimit
  rw [roundTo_eq_ite, if_pos ((beq_zero_iff hfinite).mpr hzero)]

/-- Rounding to decimal places leaves not-a-number, zero, or what is well away from zero. -/
theorem roundTo_cases (hscale : IsScale places k) (x : Float) :
    roundTo x places = Scalar.nan ∨ roundTo x places = 0 ∨
      ∃ sign, Beyond (2 ^ (-14 : ℤ)) sign (roundTo x places) := by
  have hinfinite {sign : Sign}
      (h : (x * Scalar.powerOfTen places).toModel.unpack = .infinity sign) :
      ∃ sign, Beyond (2 ^ (-14 : ℤ)) sign (roundTo x places) :=
    ⟨sign, roundTo_beyond hscale (.infinite (roundWhole_infinite h))⟩
  have hproduct (hx : x.isFinite = true) :
      roundTo x places = 0 ∨ ∃ sign, Beyond (2 ^ (-14 : ℤ)) sign (roundTo x places) := by
    cases mul_roundsTo hx hscale.isFinite with
    | above hoverflow => exact Or.inr (hinfinite hoverflow)
    | below hoverflow => exact Or.inr (hinfinite hoverflow)
    | finite hfinite _ =>
        obtain ⟨j, -, hrounds⟩ := exists_roundWhole hfinite
        rcases lt_trichotomy j 0 with hneg | rfl | hpos
        · have hreal : (j : ℝ) < 0 := by exact_mod_cast hneg
          refine Or.inr ⟨.negative, roundTo_beyond hscale (hrounds.beyond_one ?_)⟩
          rw [signum]
          linarith
        · rw [Int.cast_zero] at hrounds
          exact Or.inl (roundTo_eq_zero hscale hrounds)
        · have hreal : (0 : ℝ) < j := by exact_mod_cast hpos
          refine Or.inr ⟨.positive, roundTo_beyond hscale (hrounds.beyond_one ?_)⟩
          rwa [signum, one_mul]
  cases hunpack : x.toModel.unpack with
  | notANumber => exact Or.inl (by rw [eq_nan_of_unpack hunpack, roundTo_nan])
  | infinity sign =>
      have hk : (0 : ℝ) < k := by exact_mod_cast hscale.positive
      have hoverflow := infinite_mul hunpack hscale.isFinite (by rwa [hscale.value])
      exact Or.inr (Or.inr (hinfinite hoverflow))
  | zero sign => exact Or.inr (hproduct (congrArg UnpackedFloat.isFinite hunpack))
  | finite sign m e hm => exact Or.inr (hproduct (congrArg UnpackedFloat.isFinite hunpack))

/-- The bound is more than half a unit of the last place, so rounding again keeps to it. -/
theorem Beyond.roundTo_profitPlaces (h : Beyond (2 ^ (-14 : ℤ)) sign x) :
    Beyond (2 ^ (-14 : ℤ)) sign (roundTo x profitPlaces) := by
  have hdouble : IsDouble (2 ^ (-14 : ℤ) * (10000 : ℕ)) :=
    ⟨10000, -14, by norm_num, by norm_num, by push_cast; ring⟩
  have hscaled := h.mul isScale_profitPlaces hdouble (by positivity)
  exact roundTo_beyond isScale_profitPlaces (hscaled.roundWhole (by norm_num))

end

end Doubles

open Doubles

/-! ## The outcome of a rounded profit -/

theorem Outcome.ofProfit_eq_ite (profit : Float) :
    Outcome.ofProfit profit =
      if 0 < profit then .win else if profit < 0 then .loss else .breakeven :=
  rfl

/-- A profit that is rounded again keeps its outcome. -/
theorem ofProfit_roundTo_roundTo (x : Float) :
    Outcome.ofProfit (roundTo (roundTo x profitPlaces) profitPlaces) =
      Outcome.ofProfit (roundTo x profitPlaces) := by
  rcases roundTo_cases isScale_profitPlaces x with hnan | hzero | ⟨sign, hbeyond⟩
  · rw [hnan, roundTo_nan]
  · rw [hzero]
    decide +kernel
  · have hagain := hbeyond.roundTo_profitPlaces
    have hpositive : (0 : ℝ) < 2 ^ (-14 : ℤ) := by positivity
    rw [Outcome.ofProfit_eq_ite, Outcome.ofProfit_eq_ite]
    cases sign with
    | positive =>
        rw [if_pos (hagain.above_zero hpositive).1, if_pos (hbeyond.above_zero hpositive).1]
    | negative =>
        obtain ⟨hnotAbove, hbelow⟩ := hagain.below_zero hpositive
        obtain ⟨hnotAbove', hbelow'⟩ := hbeyond.below_zero hpositive
        rw [if_neg hnotAbove, if_pos hbelow, if_neg hnotAbove', if_pos hbelow']

-- When the trade closes, its outcome can still be another one.
example : Outcome.ofProfit (1e-5 : Float) = .win ∧
    Outcome.ofProfit (roundTo (1e-5 : Float) profitPlaces) = .breakeven := by
  decide +kernel

/-- The outcome of a rounded profit is its sign. -/
theorem ofProfit_roundTo_iff (x : Float) :
    (Outcome.ofProfit (roundTo x profitPlaces) = .win ↔ 0 < roundTo x profitPlaces) ∧
    (Outcome.ofProfit (roundTo x profitPlaces) = .loss ↔ roundTo x profitPlaces < 0) ∧
    (Outcome.ofProfit (roundTo x profitPlaces) = .breakeven ↔
      roundTo x profitPlaces = 0 ∨ (roundTo x profitPlaces).isNaN = true) := by
  have hcases := roundTo_cases isScale_profitPlaces x
  generalize roundTo x profitPlaces = profit at hcases
  rcases hcases with rfl | rfl | ⟨sign, hbeyond⟩
  · decide +kernel
  · decide +kernel
  · have hpositive : (0 : ℝ) < 2 ^ (-14 : ℤ) := by positivity
    have hnumber : ¬(profit = 0 ∨ profit.isNaN = true) := by
      rw [hbeyond.isNaN_eq_false]
      rintro (hzero | hnan)
      · exact hbeyond.ne_zero hpositive hzero
      · cases hnan
    rw [Outcome.ofProfit_eq_ite]
    cases sign with
    | positive =>
        obtain ⟨habove, hnotBelow⟩ := hbeyond.above_zero hpositive
        rw [if_pos habove]
        exact ⟨iff_of_true rfl habove, iff_of_false (by decide) hnotBelow,
          iff_of_false (by decide) hnumber⟩
    | negative =>
        obtain ⟨hnotAbove, hbelow⟩ := hbeyond.below_zero hpositive
        rw [if_neg hnotAbove, if_pos hbelow]
        exact ⟨iff_of_false (by decide) hnotAbove, iff_of_true rfl hbelow,
          iff_of_false (by decide) hnumber⟩

/-! ## Counting outcomes -/

section

variable {α : Type} [Scalar α]

/-- How many trades of an outcome a tally has seen. -/
def Tally.count (t : Tally α) : Outcome → ℕ
  | .win => t.winning
  | .loss => t.losing
  | .breakeven => t.breakeven

/-- A tally counts each trade under the outcome of its rounded profit, and under no other. -/
theorem Tally.count_add (t : Tally α) (trade : Trade α) (outcome : Outcome) :
    (t.add trade).count outcome = t.count outcome +
      if Outcome.ofProfit (roundTo trade.profit profitPlaces) = outcome then 1 else 0 := by
  unfold Tally.add Outcome.ofProfit
  dsimp only
  split
  · cases outcome <;> rfl
  · split <;> cases outcome <;> rfl

theorem Tally.count_foldl_add (trades : List (Trade α)) (outcome : Outcome) (t : Tally α) :
    (trades.foldl Tally.add t).count outcome = t.count outcome +
      trades.countP (fun trade =>
        Outcome.ofProfit (roundTo trade.profit profitPlaces) = outcome) := by
  induction trades generalizing t with
  | nil => rfl
  | cons trade rest ih =>
      rw [List.foldl_cons, ih, Tally.count_add, List.countP_cons]
      simp only [decide_eq_true_eq]
      omega

theorem Tally.count_ofTrades (trades : List (Trade α)) (outcome : Outcome) :
    (Tally.ofTrades trades).count outcome =
      trades.countP (fun trade =>
        Outcome.ofProfit (roundTo trade.profit profitPlaces) = outcome) := by
  have hempty : (Tally.empty : Tally α).count outcome = 0 := by cases outcome <;> rfl
  rw [Tally.ofTrades, Tally.count_foldl_add, hempty, Nat.zero_add]

end

/-- Every trade has one of the three outcomes. -/
theorem countP_outcomes {α : Type} (trades : List (Trade α)) :
    trades.countP (fun t => t.outcome = .win) + trades.countP (fun t => t.outcome = .loss) +
      trades.countP (fun t => t.outcome = .breakeven) = trades.length := by
  induction trades with
  | nil => rfl
  | cons t rest ih =>
      simp only [List.countP_cons, List.length_cons]
      cases t.outcome <;> simp <;> omega

/-- A tally of reported trades counts them by the outcomes that they report. -/
theorem Tally.count_map_rounded (trades : List (Trade Float)) (outcome : Outcome) :
    (Tally.ofTrades (trades.map Trade.rounded)).count outcome =
      (trades.map Trade.rounded).countP (fun t => t.outcome = outcome) := by
  rw [Tally.count_ofTrades]
  apply List.countP_congr
  intro t ht
  obtain ⟨trade, -, rfl⟩ := List.mem_map.mp ht
  rw [decide_eq_true_iff, decide_eq_true_iff]
  exact Eq.congr (ofProfit_roundTo_roundTo trade.profit) rfl

/-- The counts of a result are those of its trades, and the outcome of a trade is the sign of the
profit that it reports.  There is no result only if the seconds of the trades do not fit. -/
theorem summary_counts_outcomes (candles : List (Candle Float)) (config : RunConfig Float)
    (spec : Option (StrategySpec Float)) :
    match backtest candles config spec with
    | .error _ => ¬SecondsFit (runTrades candles config spec)
    | .ok result =>
      result.metrics.totalTrades = result.trades.length ∧
      result.metrics.winningTrades = result.trades.countP (fun t => t.outcome = .win) ∧
      result.metrics.losingTrades = result.trades.countP (fun t => t.outcome = .loss) ∧
      result.metrics.breakevenTrades = result.trades.countP (fun t => t.outcome = .breakeven) ∧
      result.metrics.winningTrades + result.metrics.losingTrades + result.metrics.breakevenTrades =
        result.metrics.totalTrades ∧
      ∀ t ∈ result.trades,
        (t.outcome = .win ↔ 0 < t.profit) ∧
        (t.outcome = .loss ↔ t.profit < 0) ∧
        (t.outcome = .breakeven ↔ t.profit = 0 ∨ t.profit.isNaN = true) := by
  cases hresult : backtest candles config spec with
  | error _ => exact not_secondsFit_of_backtest hresult
  | ok result =>
      have htrades := trades_of_backtest hresult
      have hcount (outcome : Outcome) :
          (Tally.ofTrades result.trades).count outcome =
            result.trades.countP (fun t => t.outcome = outcome) := by
        rw [htrades, Tally.count_map_rounded]
      have hsum := countP_outcomes result.trades
      rw [← hcount, ← hcount, ← hcount] at hsum
      obtain ⟨m, hm, hrounded⟩ := metrics_of_backtest hresult
      obtain ⟨-, rfl⟩ := compute_eq_ok_iff.mp hm
      dsimp only
      rw [hrounded]
      refine ⟨rfl, hcount .win, hcount .loss, hcount .breakeven, hsum, ?_⟩
      intro t ht
      rw [htrades] at ht
      obtain ⟨trade, -, rfl⟩ := List.mem_map.mp ht
      exact ofProfit_roundTo_iff trade.profit

end Backtester
