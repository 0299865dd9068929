import Backtester.Proofs.ExactArithmetic
import Backtester.Proofs.FigureBounds
import Backtester.Proofs.FiniteOperands
import Backtester.Proofs.Seconds

/-!
# Flat returns

Equal returns have no deviation, and their Sharpe ratio is given as zero.  In doubles this rests on
their mean, a sum from left to right over the number of terms: it is the return itself if every sum
on the way is a double, and otherwise it may be rounded to another one, which leaves a deviation.

* `le_of_isDouble_multiples` — a number with all its multiples up to a factor among the doubles.
* `toReal_mean_flat` — the mean of such a number, and `toReal_sampleDeviation_flat` — its deviation.
* `Exact.sharpeRatio_replicate` — the ratio of equal returns in exact arithmetic.
* `equity_of_no_trades`, `returns_of_flat` — a run without a trade has equal returns.
* `sharpe_ratio_of_equal_returns` — the ratio of equal returns, and of runs without a trade.
-/

namespace Backtester

namespace Doubles

/-! ## Sums of one number -/

/-- If all multiples of a number up to a factor are doubles, the factor has at most 54 bits: beyond
that, two multiples in a row would both have a place that the number itself is too small for. -/
theorem le_of_isDouble_multiples {x : ℝ} (hx : x ≠ 0) {n : ℕ}
    (h : ∀ k ≤ n, IsDouble (k * x)) : n ≤ 2 ^ 53 := by
  by_contra hlong
  rw [not_le] at hlong
  obtain ⟨t, hlow, hhigh⟩ := exists_mem_Ico_zpow (abs_pos.mpr hx) one_lt_two
  have hmultiple (k : ℕ) (hk : k ≤ n) (hlarge : 2 ^ 53 ≤ k) : ∃ j : ℤ, k * x = j * 2 ^ (t + 1) := by
    -- A multiple as large as this has no digit below the place `t + 1`.
    refine (h k hk).exists_multiple ?_
    have hpower : (2 : ℝ) ^ (t + 1 + 52) = 2 ^ 53 * 2 ^ t := by
      rw [show t + 1 + 52 = 53 + t by ring, zpow_add₀ (by norm_num)]
      norm_num
    rw [hpower, abs_mul, Nat.abs_cast]
    exact mul_le_mul (by exact_mod_cast hlarge) hlow (by positivity) (by positivity)
  obtain ⟨i, hi⟩ := hmultiple (2 ^ 53) hlong.le le_rfl
  obtain ⟨j, hj⟩ := hmultiple (2 ^ 53 + 1) hlong (Nat.le_succ _)
  have hvalue : x = (j - i : ℤ) * 2 ^ (t + 1) := by
    push_cast at hi hj ⊢
    linarith
  have hint : j - i ≠ 0 := by
    intro hzero
    rw [hzero, Int.cast_zero, zero_mul] at hvalue
    exact hx hvalue
  rw [hvalue] at hhigh
  exact absurd hhigh (not_lt.mpr (zpow_le_abs_multiple hint _))

/-- Adding one number again and again is exact, as long as its multiples are doubles. -/
theorem toReal_foldl_add_flat {values : List Float} {x : ℝ} (hvalues : ∀ v ∈ values, toReal v = x)
    {start : Float} (hmultiples : ∀ k ≤ values.length, IsDouble (toReal start + k * x))
    (hfinite : (values.foldl (· + ·) start).isFinite = true) :
    toReal (values.foldl (· + ·) start) = toReal start + values.length * x := by
  induction values generalizing start with
  | nil => simp
  | cons v rest ih =>
      obtain ⟨hv, hrest⟩ := List.forall_mem_cons.mp hvalues
      have htail : (rest.foldl (· + ·) (start + v)).isFinite = true := hfinite
      have hnext := (isFinite_of_foldl_add htail).1
      obtain ⟨hstart, hvf⟩ := isFinite_of_add hnext
      -- The first sum is a double, so it is not rounded; the others start from it.
      have hsum : toReal (start + v) = toReal start + x := by
        have hfirst := hmultiples 1 (by simp)
        rw [Nat.cast_one, one_mul] at hfirst
        have hnearest := (add_roundsTo hstart hvf).nearest hnext
        rw [hv] at hnearest
        exact hnearest.eq_of_isDouble hfirst
      have hshift (k : ℕ) : toReal (start + v) + k * x = toReal start + (k + 1 : ℕ) * x := by
        rw [hsum]
        push_cast
        ring
      have hlater : ∀ k ≤ rest.length, IsDouble (toReal (start + v) + k * x) := by
        intro k hk
        rw [hshift]
        exact hmultiples (k + 1) (Nat.succ_le_succ hk)
      have htotal := ih hrest hlater htail
      rw [hshift] at htotal
      exact htotal

theorem toReal_sum_flat {values : List Float} {x : ℝ} (hvalues : ∀ v ∈ values, toReal v = x)
    (hmultiples : ∀ k ≤ values.length, IsDouble (k * x))
    (hfinite : (Scalar.sum values).isFinite = true) :
    toReal (Scalar.sum values) = values.length * x := by
  have hstart : toReal (-(0 : Float)) = 0 := by rw [(toReal_neg 0).1, toReal_zero.2, neg_zero]
  have hsum : toReal (values.foldl (· + ·) (-(0 : Float))) =
      toReal (-(0 : Float)) + values.length * x :=
    toReal_foldl_add_flat hvalues (fun k hk => by simpa [hstart] using hmultiples k hk) hfinite
  show toReal (values.foldl (· + ·) (-(0 : Float))) = _
  simpa [hstart] using hsum

/-- The mean of one number is the number, as long as its multiples are doubles. -/
theorem toReal_mean_flat {values : List Float} {x : ℝ} (hvalues : ∀ v ∈ values, toReal v = x)
    (hmultiples : ∀ k ≤ values.length, IsDouble (k * x)) (hne : values ≠ [])
    (hfinite : (Scalar.mean values).isFinite = true) : toReal (Scalar.mean values) = x := by
  have hsum := toReal_sum_flat hvalues hmultiples (isFinite_of_div hfinite)
  by_cases hx : x = 0
  · rw [hx] at hsum ⊢
    rw [mul_zero] at hsum
    exact toReal_div_eq_zero hsum hfinite
  · have hlength : 0 < values.length := List.length_pos_iff.mpr hne
    -- The count is a double too, as nothing but zero has more multiples among the doubles.
    have hshort := le_of_isDouble_multiples hx hmultiples
    have hcount : (Scalar.ofNat values.length : Float).isFinite = true ∧
        toReal (Scalar.ofNat values.length : Float) = values.length := by
      rcases hshort.eq_or_lt with heq | hlt
      · rw [heq]
        refine (ofNat_roundsTo (by norm_num)).eq_of_isDouble ?_ ?_
        · exact_mod_cast isDouble_pow 53
        · rw [Nat.abs_cast]
          exact_mod_cast two_pow_lt_limit (n := 53) (by norm_num)
      · exact toReal_ofNat hlt
    have hpositive : (0 : ℝ) < values.length := by exact_mod_cast hlength
    have hrounds := div_roundsTo (isFinite_of_div hfinite) hcount.1
      (by rw [hcount.2]; exact hpositive.ne')
    rw [hsum, hcount.2, mul_div_cancel_left₀ x hpositive.ne'] at hrounds
    have hdouble := hmultiples 1 hlength
    rw [Nat.cast_one, one_mul] at hdouble
    exact (hrounds.nearest hfinite).eq_of_isDouble hdouble

end Doubles

open Doubles

/-! ## Ratios of flat returns -/

/-- The deviation of one number is zero, or something on the way to it is not finite. -/
theorem toReal_sampleDeviation_flat {values : List Float} {x : ℝ}
    (hvalues : ∀ v ∈ values, toReal v = x) (hmultiples : ∀ k ≤ values.length, IsDouble (k * x))
    (hne : values ≠ []) (hfinite : (sampleDeviation values).isFinite = true) :
    toReal (sampleDeviation values) = 0 := by
  let mean := Scalar.mean values
  let squares := values.map fun v => (v - mean) * (v - mean)
  let variance : Float := Scalar.sum squares / Scalar.ofNat (values.length - 1)
  -- From the finite root backwards, all that the deviation is computed from is finite.
  obtain ⟨hvariance, hnonneg⟩ : variance.isFinite = true ∧ 0 ≤ toReal variance :=
    nonneg_of_isFinite_sqrt hfinite
  have hsum : (Scalar.sum squares).isFinite = true := isFinite_of_div hvariance
  have hdifference : ∀ v ∈ values, ((v - mean) * (v - mean)).isFinite = true ∧
      (v - mean).isFinite = true := by
    intro v hv
    have hsquare : ((v - mean) * (v - mean)).isFinite = true :=
      (isFinite_of_foldl_add hsum).2 _ (List.mem_map_of_mem hv)
    exact ⟨hsquare, (isFinite_of_mul hsquare).1⟩
  have hmean : toReal mean = x := by
    obtain ⟨v, hv⟩ := List.exists_mem_of_ne_nil values hne
    exact toReal_mean_flat hvalues hmultiples hne (isFinite_of_sub (hdifference v hv).2).2
  have hsquares : ∀ square ∈ squares, toReal square = 0 := by
    intro square hsquare
    obtain ⟨v, hv, rfl⟩ := List.mem_map.mp hsquare
    obtain ⟨hproduct, hdifference⟩ := hdifference v hv
    obtain ⟨hvf, hmf⟩ := isFinite_of_sub hdifference
    have hzero := (sub_roundsTo hvf hmf).nearest hdifference
    rw [hvalues v hv, hmean, sub_self] at hzero
    have hnearest := (mul_roundsTo hdifference hdifference).nearest hproduct
    rw [hzero.eq_of_isDouble isDouble_zero, mul_zero] at hnearest
    exact hnearest.eq_of_isDouble isDouble_zero
  have htotal : toReal (Scalar.sum squares) = 0 := by
    rw [toReal_sum_flat hsquares (fun k _ => by simpa using isDouble_zero) hsum, mul_zero]
  have hroot := (sqrt_roundsTo hvariance hnonneg).nearest hfinite
  rw [show toReal variance = 0 from toReal_div_eq_zero htotal hvariance, Real.sqrt_zero] at hroot
  exact hroot.eq_of_isDouble isDouble_zero

theorem annualRatio_eq_zero {deviation : Float} (h : deviation.isFinite = true → toReal deviation = 0)
    (mean : Float) : annualRatio mean deviation = 0 := by
  unfold annualRatio
  refine if_pos ?_
  rw [Bool.or_eq_true]
  by_cases hfinite : deviation.isFinite = true
  · exact Or.inl ((beq_zero_iff hfinite).mpr (h hfinite))
  · refine Or.inr ?_
    rw [Bool.not_eq_true', ← Bool.not_eq_true]
    exact hfinite

theorem sharpeRatio_flat {changes : List Float} {rate : Float} {x : ℝ}
    (hchanges : ∀ r ∈ changes, toReal (r - rate / periodsPerYear) = x)
    (hmultiples : ∀ k ≤ changes.length, IsDouble (k * x)) : sharpeRatio changes rate = 0 := by
  unfold sharpeRatio
  split
  · rfl
  · next htwo =>
      have hlength : (excessReturns changes rate).length = changes.length := List.length_map _
      refine annualRatio_eq_zero (toReal_sampleDeviation_flat (x := x) ?_ ?_ ?_) _
      · intro v hv
        obtain ⟨r, hr, rfl⟩ := List.mem_map.mp hv
        exact hchanges r hr
      · rwa [hlength]
      · rw [← List.length_pos_iff, hlength]
        omega

/-! ## Exact arithmetic -/

namespace Exact

theorem sum_replicate (n : ℕ) (x : ℝ) :
    Scalar.sum (List.replicate n (number x)) = number (n * x) := by
  rw [← List.map_replicate, sum_number, List.sum_replicate, nsmul_eq_mul]

theorem mean_replicate {n : ℕ} (hn : n ≠ 0) (x : ℝ) :
    Scalar.mean (List.replicate n (number x)) = number x := by
  have hcount : (n : ℝ) ≠ 0 := Nat.cast_ne_zero.mpr hn
  rw [Scalar.mean, sum_replicate, List.length_replicate, ofNat_eq_number, number_div _ hcount,
    mul_div_cancel_left₀ x hcount]

theorem sampleDeviation_replicate {n : ℕ} (hn : 2 ≤ n) (x : ℝ) :
    sampleDeviation (List.replicate n (number x)) = number 0 := by
  have hcount : ((n - 1 : ℕ) : ℝ) ≠ 0 := Nat.cast_ne_zero.mpr (by omega)
  unfold sampleDeviation
  dsimp only
  rw [mean_replicate (by omega), List.map_replicate, List.length_replicate, number_sub, number_mul,
    sum_replicate, ofNat_eq_number, number_div _ hcount, sub_self, mul_zero, mul_zero, zero_div]
  show (if (0 : ℝ) < 0 then nan else number √0) = number 0
  rw [if_neg (lt_irrefl _), Real.sqrt_zero]

/-- Exactly computed, the deviation of one number is zero, and so is the ratio. -/
theorem sharpeRatio_replicate (n : ℕ) (r rate : ℝ) :
    sharpeRatio (List.replicate n (number r)) (number rate) = 0 := by
  unfold sharpeRatio
  split
  · rfl
  · next htwo =>
      rw [List.length_replicate, not_lt] at htwo
      have hdaily : number rate / periodsPerYear = number (rate / 365) := by
        show number rate / Scalar.ofNat 365 = _
        rw [ofNat_eq_number, number_div _ (by norm_num), Nat.cast_ofNat]
      have hexcess : excessReturns (List.replicate n (number r)) (number rate) =
          List.replicate n (number (r - rate / 365)) := by
        unfold excessReturns
        dsimp only
        rw [hdaily, List.map_replicate, number_sub]
      dsimp only
      rw [hexcess, sampleDeviation_replicate htwo]
      unfold annualRatio
      refine if_pos ?_
      rw [Bool.or_eq_true]
      exact Or.inl (by rw [zero_eq_number, number_beq])

end Exact

/-! ## Runs without a trade -/

/-- Without a trade, equity is the capital on every row. -/
theorem equity_of_no_trades (candles : List (Candle Float)) (capital : Float) :
    ∀ p ∈ equityCurve candles [] capital, p.equity = capital + 0 := by
  have hfrom (rows : List (Int × Float)) (hrows : ∀ row ∈ rows, row.2 = 0) :
      ∀ p ∈ equityFrom capital 0 rows, p.equity = capital + 0 := by
    induction rows with
    | nil => exact fun p hp => by cases hp
    | cons row rest ih =>
        obtain ⟨hrow, hrest⟩ := List.forall_mem_cons.mp hrows
        have hearned : (0 : Float) + row.2 = 0 := by
          rw [hrow]
          rfl
        rw [equityFrom, hearned]
        exact List.forall_mem_cons.mpr ⟨rfl, ih hrest⟩
  refine hfrom _ fun row hrow => ?_
  exact List.eq_of_mem_replicate (List.of_mem_zip hrow).2

/-- A value changes by nothing relative to itself. -/
theorem relativeChange_self (c : Float) :
    (relativeChange c c).isFinite = true ∧ toReal (relativeChange c c) = 0 := by
  have hcases (change : Float) (hchange : change.isFinite = true → toReal change = 0) :
      (if Float.isFinite change then change else Scalar.ofNat 0).isFinite = true ∧
        toReal (if Float.isFinite change then change else Scalar.ofNat 0) = 0 := by
    split
    · next hfinite => exact ⟨hfinite, hchange hfinite⟩
    · exact toReal_zero
  refine hcases (if c == Scalar.ofNat 0 then Scalar.ofNat 0 else (c - c) / c) ?_
  split
  · exact fun _ => toReal_zero.2
  · intro hfinite
    have hnothing := isFinite_of_div hfinite
    have hc := (isFinite_of_sub hnothing).1
    have hnearest := (sub_roundsTo hc hc).nearest hnothing
    rw [sub_self] at hnearest
    exact toReal_div_eq_zero (hnearest.eq_of_isDouble isDouble_zero) hfinite

theorem returns_of_flat {curve : List (EquityPoint Float)} {c : Float}
    (hcurve : ∀ p ∈ curve, p.equity = c) :
    ∀ r ∈ returns curve, r.isFinite = true ∧ toReal r = 0 := by
  cases curve with
  | nil => exact fun r hr => by cases hr
  | cons first rest =>
      refine List.forall_mem_cons.mpr ⟨toReal_zero, fun r hr => ?_⟩
      obtain ⟨i, hi⟩ := List.mem_iff_getElem?.mp hr
      obtain ⟨p, q, hp, hq, rfl⟩ := List.getElem?_zipWith_eq_some.mp hi
      rw [hcurve p (List.mem_of_getElem? hp),
        hcurve q (List.mem_cons_of_mem first (List.mem_of_getElem? hq))]
      exact relativeChange_self c

/-- The Sharpe ratio of flat equity, if the multiples of a day's risk-free return are doubles. -/
theorem sharpeRatio_of_flat {curve : List (EquityPoint Float)} {c rate : Float}
    (hcurve : ∀ p ∈ curve, p.equity = c)
    (hmultiples : ∀ k ≤ curve.length, IsDouble (k * toReal (rate / periodsPerYear))) :
    sharpeRatio (returns curve) rate = 0 := by
  refine sharpeRatio_flat (x := -toReal (rate / periodsPerYear)) (fun r hr => ?_) fun k hk => ?_
  · obtain ⟨hfinite, hzero⟩ := returns_of_flat hcurve r hr
    exact toReal_sub_of_left_zero hfinite hzero
  · rw [length_returns] at hk
    rw [mul_neg]
    exact (hmultiples k hk).neg

/-- The Sharpe ratio of `n` equal returns is zero in exact arithmetic, and so it is in doubles as long
as the sums that their mean passes through are doubles.  This holds of any return and rate, and of
every run over `n` rows without a trade, whose equity does not change. -/
theorem sharpe_ratio_of_equal_returns (n : ℕ) (r rate : Float) :
    (∀ x y : ℝ, sharpeRatio (List.replicate n (Exact.number x)) (Exact.number y) = 0) ∧
    ((∀ k ≤ n, IsDouble (k * toReal (r - rate / periodsPerYear))) →
      sharpeRatio (List.replicate n r) rate = 0) ∧
    ∀ (candles : List (Candle Float)) (config : RunConfig Float)
      (spec : Option (StrategySpec Float)),
      candles.length = n → config.riskFree = rate →
      (∀ k ≤ n, IsDouble (k * toReal (rate / periodsPerYear))) →
      runTrades candles config spec = [] →
      ∃ result, backtest candles config spec = .ok result ∧ result.trades = [] ∧
        result.metrics.sharpeRatio = 0 := by
  refine ⟨Exact.sharpeRatio_replicate n, fun hmultiples => ?_, ?_⟩
  · refine sharpeRatio_flat (x := toReal (r - rate / periodsPerYear)) (fun r' hr' => ?_) ?_
    · rw [List.eq_of_mem_replicate hr']
    · rwa [List.length_replicate]
  · rintro candles config spec rfl rfl hmultiples hnone
    -- It does not matter why there is no trade: equity and returns follow from the trades.
    obtain ⟨result, hresult⟩ := exists_backtest_eq_ok_iff.mpr (hnone ▸ secondsFit_nil)
    have htrades : result.trades = [] := by rw [trades_of_backtest hresult, hnone, List.map_nil]
    have hratio : sharpeRatio (returns (equityCurve candles [] config.capital)) config.riskFree = 0 :=
      sharpeRatio_of_flat (equity_of_no_trades candles config.capital)
        (by rwa [length_equityCurve])
    obtain ⟨m, hm, hrounded⟩ := metrics_of_backtest hresult
    obtain ⟨-, rfl⟩ := compute_eq_ok_iff.mp hm
    refine ⟨result, hresult, htrades, ?_⟩
    rw [hrounded, htrades]
    show roundTo (sharpeRatio (returns (equityCurve candles [] config.capital)) config.riskFree)
      ratioPlaces = 0
    rw [hratio]
    decide +kernel

/-- Five equal candles, an hour apart. -/
def fiveCandles : List (Candle Float) :=
  (List.replicate 5 1).mapIdx fun row price => ⟨3600 * row, price, price, price, price, 1000⟩

/-- The settings of a run with a risk-free return. -/
def settingsWithRate (rate : Float) : RunConfig Float := ⟨"BTC/USDT", "1h", 10000, 2, 3, rate⟩

theorem sharpe_ratio_of_equal_returns_half :
    (∀ k : ℕ, k ≤ 3 → IsDouble (k * toReal ((0.5 : Float) - 0 / periodsPerYear))) ∧
    sharpeRatio (List.replicate 3 (0.5 : Float)) 0 = 0 ∧
    (∀ k : ℕ, k ≤ 5 → IsDouble (k * toReal ((365 / 1024 : Float) / periodsPerYear))) ∧
    runTrades fiveCandles (settingsWithRate (365 / 1024)) none = [] ∧
    ∃ result, backtest fiveCandles (settingsWithRate (365 / 1024)) none = .ok result ∧
      result.trades = [] ∧ result.metrics.sharpeRatio = 0 := by
  have hexcess : ((0.5 : Float) - 0 / periodsPerYear) = 0.5 := by decide +kernel
  have hhalf : toReal 0.5 = (2 ^ 52 : ℕ) * 2 ^ (-53 : ℤ) :=
    toReal_of_ofFloat (by decide +kernel) (by decide +kernel)
  have hdaily : (365 / 1024 : Float) / periodsPerYear = 0.0009765625 := by decide +kernel
  have hday : toReal 0.0009765625 = (2 ^ 52 : ℕ) * 2 ^ (-62 : ℤ) :=
    toReal_of_ofFloat (by decide +kernel) (by decide +kernel)
  have hreturns : ∀ k : ℕ, k ≤ 3 → IsDouble (k * toReal ((0.5 : Float) - 0 / periodsPerYear)) := by
    intro k hk
    rw [hexcess, hhalf]
    exact ⟨k, -1, by rw [Nat.abs_cast]; omega, by norm_num, by norm_num⟩
  have hmultiples : ∀ k : ℕ, k ≤ 5 →
      IsDouble (k * toReal ((365 / 1024 : Float) / periodsPerYear)) := by
    intro k hk
    rw [hdaily, hday]
    exact ⟨k, -10, by rw [Nat.abs_cast]; omega, by norm_num, by norm_num⟩
  have hnone : runTrades fiveCandles (settingsWithRate (365 / 1024)) none = [] := by decide +kernel
  exact ⟨hreturns, (sharpe_ratio_of_equal_returns 3 0.5 0).2.1 hreturns, hmultiples, hnone,
    (sharpe_ratio_of_equal_returns 5 0 (365 / 1024)).2.2 fiveCandles _ none rfl rfl hmultiples hnone⟩

/-- Elsewhere the mean of equal returns may be rounded to another double, and the ratio is huge. -/
theorem sharpe_ratio_of_equal_returns_nonzero :
    (¬∀ (n : ℕ) (r rate : Float), 2 ≤ n → r.isFinite = true → 0 ≤ rate → rate < 1 →
      sharpeRatio (List.replicate n r) rate = 0) ∧
    ¬∀ (candles : List (Candle Float)) (config : RunConfig Float)
      (spec : Option (StrategySpec Float)) (result : RunResult Float),
      100 ≤ config.capital →
      0 ≤ config.riskFree → config.riskFree < 1 →
      backtest candles config spec = .ok result → result.trades = [] →
      result.metrics.sharpeRatio = 0 := by
  constructor
  · intro hall
    have hzero := hall 3 0.1 0 (by decide) (by decide +kernel) (by decide +kernel)
      (by decide +kernel)
    exact absurd hzero (by decide +kernel)
  · intro hall
    have hnone : runTrades fiveCandles (settingsWithRate 0.02) none = [] := by decide +kernel
    obtain ⟨result, hresult⟩ := exists_backtest_eq_ok_iff.mpr (hnone ▸ secondsFit_nil)
    have hzero := hall fiveCandles (settingsWithRate 0.02) none result (by decide +kernel)
      (by decide +kernel) (by decide +kernel) hresult
      (by rw [trades_of_backtest hresult, hnone, List.map_nil])
    have hratio : (backtest fiveCandles (settingsWithRate 0.02) none).map
        (fun result => result.metrics.sharpeRatio) = .ok 0 := by
      rw [hresult, ← hzero]
      rfl
    exact absurd hratio (by decide +kernel)

end Backtester
