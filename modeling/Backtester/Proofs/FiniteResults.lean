import Backtester.Proofs.Accounting
import Backtester.Proofs.Crossover
import Backtester.Proofs.ExitPrices
import Backtester.Proofs.FigureBounds
import Backtester.Proofs.UsableCandles

/-!
# Runs with finite results

Every number of a result is finite as long as no price is extreme.  A price that is far enough out
overflows when its profit is scaled for rounding.

* `RunResult.numbers` — the prices, profits, equities, drawdowns and metrics of a result.
* `backtest_numbers_finite` — they are finite for candles that pass the check, with prices of at most
  `1e75` and closes that are zero or at least `1e-225`.
* `rounding_overflows` — for prices without such a bound they need not be.
-/

namespace Backtester

open Doubles

/-! ## The numbers of a result -/

/-- The prices and the profit of a trade. -/
def Trade.numbers {α : Type} (t : Trade α) : List α :=
  [t.entryPrice, t.exitPrice, t.profit, t.profitPercent]

/-- The figures of a summary, but for its counts. -/
def Metrics.numbers {α : Type} (m : Metrics α) : List α :=
  [m.sharpeRatio, m.sortinoRatio, m.maxDrawdown, m.maxDrawdownPercent, m.winRate, m.profitFactor,
    m.totalReturn, m.totalReturnPercent, m.grossProfit, m.grossLoss, m.averageWin, m.averageLoss,
    m.largestWin, m.largestLoss, m.averageDuration, m.finalEquity]

/-- Every scalar of a result. -/
def RunResult.numbers {α : Type} (r : RunResult α) : List α :=
  r.trades.flatMap Trade.numbers ++ r.equityCurve.map EquityPoint.equity ++
    r.drawdowns.flatMap (fun d => [d.amount, d.percent]) ++ r.metrics.numbers

/-- Scaling takes up to 14 binary places and rounding one more, so this bound stays in range. -/
theorem isFinite_roundTo {x : Float} (hx : Within 1006 x) {places : ℤ} {k : ℕ}
    (h : IsScale places k) : (roundTo x places).isFinite = true :=
  (roundTo_within h hx (by norm_num)).isFinite

theorem Metrics.numbers_rounded {m : Metrics Float} (h : ∀ x ∈ m.numbers, Within 1006 x) :
    ∀ x ∈ m.rounded.numbers, x.isFinite = true := by
  have hratio {x : Float} (hx : Within 1006 x) := isFinite_roundTo hx isScale_ratioPlaces
  have hamount {x : Float} (hx : Within 1006 x) := isFinite_roundTo hx isScale_amountPlaces
  simp only [numbers, rounded, List.forall_mem_cons] at h ⊢
  obtain ⟨h1, h2, h3, h4, h5, h6, h7, h8, h9, h10, h11, h12, h13, h14, h15, h16, hnil⟩ := h
  exact ⟨hratio h1, hratio h2, hamount h3, hamount h4, hamount h5, hratio h6, hamount h7, hamount h8,
    hamount h9, hamount h10, hamount h11, hamount h12, hamount h13, hamount h14, hamount h15,
    hamount h16, fun x hx => by cases hx⟩

/-- The summary of a run whose profits are at most `2 ^ 252`. -/
theorem Metrics.numbers_figures {curve : List (EquityPoint Float)}
    {series : List (DrawdownPoint Float)} {trades : List (Trade Float)} {capital riskFree : Float}
    (hcurve : ∀ p ∈ curve, EquityBounds 361 p.equity)
    (hseries : ∀ d ∈ series, Within 416 d.amount ∧ Within 416 d.percent)
    (htrades : ∀ t ∈ trades, Within 252 t.profit) (hcapital : Within 361 capital)
    (hunit : AtLeast 0 capital) (hrate : Within 0 riskFree) (hrows : curve.length < 2 ^ 64)
    (hcount : trades.length < 2 ^ 64) {seconds : ℤ} (hseconds : |seconds| ≤ 2 ^ 63) :
    ∀ x ∈ (figures curve series trades capital riskFree seconds).numbers, Within 1006 x := by
  have htally := tally_bounds htrades (by norm_num)
  have hchanges := returns_within hcurve (by norm_num)
  have hlong : (returns curve).length < 2 ^ 64 := by rwa [length_returns]
  have htotal := htally.grossProfit.add htally.grossLoss (by norm_num)
  have hwinning := htally.winning.trans_lt hcount
  have hlosing := htally.losing.trans_lt hcount
  have hequity : Within 361 ((curve.getLast?.map EquityPoint.equity).getD capital) := by
    cases hlast : curve.getLast? with
    | none => exact hcapital
    | some p => exact (hcurve p (List.mem_of_getLast? hlast)).within
  have hpercent : Within 315 (if (capital == Scalar.ofNat 0) = true then Scalar.ofNat 0
      else ((Tally.ofTrades trades).grossProfit + (Tally.ofTrades trades).grossLoss) / capital *
        Scalar.ofNat 100) := by
    split
    · exact within_zero
    · exact (htotal.div hunit (by norm_num)).percent (by norm_num)
  have hamounts : ∀ x ∈ series.map DrawdownPoint.amount, Within 416 x := by
    intro x hx
    obtain ⟨d, hd, rfl⟩ := List.mem_map.mp hx
    exact (hseries d hd).1
  have hpercents : ∀ x ∈ series.map DrawdownPoint.percent, Within 416 x := by
    intro x hx
    obtain ⟨d, hd, rfl⟩ := List.mem_map.mp hx
    exact (hseries d hd).2
  simp only [numbers, List.forall_mem_cons]
  refine ⟨sharpeRatio_within hchanges hrate hlong (by norm_num),
    sortinoRatio_within hchanges hrate hlong (by norm_num),
    (foldl_smaller_within hamounts within_zero).mono (by norm_num),
    (foldl_smaller_within hpercents within_zero).mono (by norm_num),
    (winRate_within htally.winning hcount).mono (by norm_num),
    (htally.profitFactor (by norm_num)).mono (by norm_num),
    htotal.mono (by norm_num),
    hpercent.mono (by norm_num),
    htally.grossProfit.mono (by norm_num),
    htally.grossLoss.mono (by norm_num),
    (meanOver_within htally.grossProfit hwinning (by norm_num)).mono (by norm_num),
    (meanOver_within htally.grossLoss hlosing (by norm_num)).mono (by norm_num),
    htally.largestWin.mono (by norm_num),
    htally.largestLoss.mono (by norm_num),
    (meanOver_within (ofInt_within hseconds (by norm_num)) hcount (by norm_num)).mono
      (by norm_num),
    hequity.mono (by norm_num), fun x hx => by cases hx⟩

/-! ## Trades -/

/-- A close that may be divided by, unless it is zero. -/
def Candle.CloseApart (c : Candle Float) : Prop := toReal c.close = 0 ∨ AtLeast 748 c.close

section

variable {candles : List (Candle Float)} {t : Trade Float}

theorem Doubles.InRange.within {n : ℕ} {x : Float} (h : Doubles.InRange (2 ^ n) x) : Within n x :=
  ⟨h.isFinite, by rw [abs_of_nonneg h.nonneg]; exact h.le⟩

theorem Trade.Settled.entry_within (h : t.Settled candles (2 ^ 250))
    (hcandles : ∀ c ∈ candles, c.InRange (2 ^ 250)) : Within 250 t.entryPrice := by
  obtain ⟨c, hc, hentry⟩ := h.entry
  rw [hentry]
  exact (hcandles c hc).close.within

theorem Trade.Settled.profit_within (h : t.Settled candles (2 ^ 250))
    (hcandles : ∀ c ∈ candles, c.InRange (2 ^ 250)) : Within 251 t.profit := by
  have hentry := h.entry_within hcandles
  rcases h.profit with hprofit | hprofit
  · rw [hprofit]
    exact h.exit.within.sub hentry (by norm_num)
  · rw [hprofit]
    exact hentry.sub h.exit.within (by norm_num)

theorem Trade.Settled.percent_within (h : t.Settled candles (2 ^ 250))
    (hcandles : ∀ c ∈ candles, c.InRange (2 ^ 250)) (hcloses : ∀ c ∈ candles, c.CloseApart) :
    Within 1006 t.profitPercent := by
  rw [h.percent]
  split
  · exact within_zero
  · next hne =>
      have hapart : AtLeast 748 t.entryPrice := by
        obtain ⟨c, hc, hentry⟩ := h.entry
        rw [hentry] at hne ⊢
        exact (hcloses c hc).resolve_left
          (mt (beq_zero_iff (hcandles c hc).close.isFinite).mpr hne)
      exact ((h.profit_within hcandles).div hapart (by norm_num)).percent (by norm_num)

theorem Trade.Settled.numbers_rounded (h : t.Settled candles (2 ^ 250))
    (hcandles : ∀ c ∈ candles, c.InRange (2 ^ 250)) (hcloses : ∀ c ∈ candles, c.CloseApart) :
    ∀ x ∈ t.rounded.numbers, x.isFinite = true := by
  simp only [numbers, rounded, List.forall_mem_cons]
  refine ⟨(h.entry_within hcandles).isFinite, h.exit.isFinite, ?_, ?_, fun x hx => by cases hx⟩
  · exact isFinite_roundTo ((h.profit_within hcandles).mono (by norm_num)) isScale_profitPlaces
  · exact isFinite_roundTo (h.percent_within hcandles hcloses) isScale_profitPlaces

/-! ## Whole results -/

/-- The result of a run whose trades are settled has finite numbers. -/
theorem numbers_finite_of_backtest (hcandles : ∀ c ∈ candles, c.InRange (2 ^ 250))
    (hcloses : ∀ c ∈ candles, c.CloseApart) (hrows : candles.length < 2 ^ 64)
    {config : RunConfig Float} (hcapital : Within 250 config.capital)
    (hlarge : 2 ^ 6 ≤ |toReal config.capital|) (hrate : Within 0 config.riskFree)
    {spec : Option (StrategySpec Float)}
    (htrades : ∀ t ∈ runTrades candles config spec, t.Settled candles (2 ^ 250))
    (hcount : (runTrades candles config spec).length < 2 ^ 64) {result : RunResult Float}
    (h : backtest candles config spec = .ok result) :
    ∀ x ∈ result.numbers, x.isFinite = true := by
  have hreported := trades_of_backtest h
  have hprofits : ∀ t ∈ result.trades, Within 252 t.profit := by
    intro t ht
    rw [hreported] at ht
    obtain ⟨trade, htrade, rfl⟩ := List.mem_map.mp ht
    exact roundTo_within isScale_profitPlaces ((htrades trade htrade).profit_within hcandles)
      (by norm_num)
  have hunit : AtLeast 0 config.capital := by
    refine ⟨hcapital.isFinite, ?_⟩
    norm_num at hlarge ⊢
    linarith
  -- From profits of 252 places: equity 361, drawdowns 416, and the ratios, which are largest, 1006.
  have hcurve := equityCurve_bounds (n := 252) (hcapital.mono (by norm_num)) hlarge candles hprofits
    (by norm_num)
  have hseries := drawdownsFrom_within hcurve (Or.inl rfl) (by norm_num)
  have hlength := length_equityCurve candles result.trades config.capital
  obtain ⟨m, hm, hrounded⟩ := metrics_of_backtest h
  obtain ⟨hfits, rfl⟩ := compute_eq_ok_iff.mp hm
  have hmetrics := Metrics.numbers_figures hcurve hseries hprofits (hcapital.mono (by norm_num))
    hunit hrate (by rwa [hlength]) (by rwa [hreported, List.length_map]) hfits.abs_sum_le
  intro x hx
  simp only [RunResult.numbers, List.mem_append] at hx
  rcases hx with ((hx | hx) | hx) | hx
  · obtain ⟨t, ht, hx⟩ := List.mem_flatMap.mp hx
    rw [hreported] at ht
    obtain ⟨trade, htrade, rfl⟩ := List.mem_map.mp ht
    exact (htrades trade htrade).numbers_rounded hcandles hcloses x hx
  · obtain ⟨p, hp, rfl⟩ := List.mem_map.mp hx
    rw [equityCurve_of_backtest h] at hp
    obtain ⟨point, hpoint, rfl⟩ := List.mem_map.mp hp
    exact isFinite_roundTo ((hcurve point hpoint).within.mono (by norm_num)) isScale_amountPlaces
  · obtain ⟨d, hd, hx⟩ := List.mem_flatMap.mp hx
    rw [drawdowns_of_backtest h] at hd
    obtain ⟨point, hpoint, rfl⟩ := List.mem_map.mp hd
    obtain ⟨hamount, hpercent⟩ := hseries point hpoint
    rcases List.mem_pair.mp hx with rfl | rfl
    · exact isFinite_roundTo (hamount.mono (by norm_num)) isScale_amountPlaces
    · exact isFinite_roundTo (hpercent.mono (by norm_num)) isScale_amountPlaces
  · rw [hrounded] at hx
    exact Metrics.numbers_rounded hmetrics x hx

end

/-! ## Accepted candles and limits -/

theorem lastPositiveFraction_nonneg {percentages : List Float} {fraction : Float}
    (h : fraction ∈ lastPositiveFraction percentages) : 0 ≤ fraction := by
  obtain ⟨x, -, hpositive, rfl⟩ := lastPositiveFraction_eq_some h
  exact nonneg_div_ofNat (Doubles.le_of_lt hpositive) (by norm_num) (by norm_num)

theorem Strategy.ofSpec_nonNegative (spec : Option (StrategySpec Float)) (fast slow : ℕ) :
    (ofSpec spec fast slow).risk.NonNegative := by
  cases spec with
  | none => exact ⟨fun fraction h => (by cases h), fun fraction h => (by cases h)⟩
  | some spec =>
      refine ⟨fun fraction h => ?_, fun fraction h => lastPositiveFraction_nonneg h⟩
      rcases Strategy.stopLossOf_eq_some h with hconstraint | hrule
      · exact lastPositiveFraction_nonneg hconstraint
      · exact lastPositiveFraction_nonneg hrule

theorem candles_inRange {candles : List (Candle Float)} (hvalid : checkCandles candles = .ok ())
    (hprices : ∀ c ∈ candles, c.high ≤ 1e75 ∧ c.close ≤ 1e75) :
    ∀ c ∈ candles, c.InRange (2 ^ 250) := by
  intro c hc
  obtain ⟨hlargest, hbound⟩ := largest_le
  obtain ⟨hhighLe, hcloseLe⟩ := hprices c hc
  have hvalues := (usableRows_of_checkCandles hvalid).values c hc
  obtain ⟨hhigh, hhighNonneg⟩ := hvalues ("high", c.high) (by simp [Candle.fields])
  obtain ⟨hlow, hlowNonneg⟩ := hvalues ("low", c.low) (by simp [Candle.fields])
  obtain ⟨hclose, hcloseNonneg⟩ := hvalues ("close", c.close) (by simp [Candle.fields])
  exact
    { high := ⟨hhigh, hhighNonneg, ((le_iff_toReal hhigh hlargest).mp hhighLe).trans hbound⟩
      low_isFinite := hlow
      low_nonneg := hlowNonneg
      close := ⟨hclose, hcloseNonneg, ((le_iff_toReal hclose hlargest).mp hcloseLe).trans hbound⟩ }

/-! ## Finite results -/

/-- The profits of a result are those of the replay, rounded. -/
theorem profits_of_backtest {candles : List (Candle Float)} {config : RunConfig Float}
    {spec : Option (StrategySpec Float)} {result : RunResult Float}
    (h : backtest candles config spec = .ok result) (hlong : config.minCandles ≤ candles.length) :
    result.trades.map Trade.profit =
      ((replay candles (Strategy.ofSpec spec config.fast config.slow)).map Trade.profit).map
        (roundTo · profitPlaces) := by
  rw [trades_of_backtest h, runTrades, if_neg (not_lt.mpr hlong), List.map_map, List.map_map]
  rfl

/-- Every number of a result is finite, for candles that pass the check, any strategy and any average
periods, as long as no price is above `1e75` and every close is zero or at least `1e-225`.  There is
no result only if the seconds of the trades do not fit. -/
theorem backtest_numbers_finite {candles : List (Candle Float)}
    (hvalid : checkCandles candles = .ok ()) (hrows : candles.length ≤ maxNat64)
    (hprices : ∀ c ∈ candles, c.high ≤ 1e75 ∧ c.close ≤ 1e75)
    (hcloses : ∀ c ∈ candles, c.close ≤ 0 ∨ 1e-225 ≤ c.close) {config : RunConfig Float}
    (hcapital : 100 ≤ config.capital ∧ config.capital ≤ 1e75)
    (hrate : 0 ≤ config.riskFree ∧ config.riskFree < 1) (spec : Option (StrategySpec Float)) :
    match backtest candles config spec with
    | .error _ => ¬SecondsFit (runTrades candles config spec)
    | .ok result => ∀ x ∈ result.numbers, x.isFinite = true := by
  have hrange := candles_inRange hvalid hprices
  have hapart : ∀ c ∈ candles, c.CloseApart := by
    intro c hc
    have hclose := (hrange c hc).close
    rcases hcloses c hc with hzero | hlarge
    · left
      rw [le_iff_toReal hclose.isFinite toReal_zero.1, toReal_zero.2] at hzero
      exact le_antisymm hzero hclose.nonneg
    · exact Or.inr (atLeast_of_smallest_le hclose.isFinite hlarge)
  obtain ⟨hwithin, hlarge⟩ := capital_bounds hcapital.1 hcapital.2
  have hlong : candles.length < 2 ^ 64 := Nat.lt_of_le_of_lt hrows (by decide)
  have htrades : (∀ t ∈ runTrades candles config spec, t.Settled candles (2 ^ 250)) ∧
      (runTrades candles config spec).length ≤ candles.length := by
    unfold runTrades
    split
    · exact ⟨by simp, Nat.zero_le _⟩
    · exact ⟨replay_settled hrange (Strategy.ofSpec_nonNegative spec config.fast config.slow),
        length_replay_le _ _⟩
  cases hresult : backtest candles config spec with
  | error _ => exact not_secondsFit_of_backtest hresult
  | ok result =>
      exact numbers_finite_of_backtest hrange hapart hlong hwithin hlarge
        (rate_within hrate.1 hrate.2) htrades.1 (htrades.2.trans_lt hlong) hresult

/-- Thirteen hourly candles, with one trade of the crossover that closes at `8e70`. -/
theorem backtest_numbers_finite_thirteen :
    let candles : List (Candle Float) :=
      [3, 3, 3, 3, 3, 3, 3, 2, 3, 4, 1e71, 9e70, 8e70].mapIdx fun row close =>
        ⟨3600 * row, close, close, close, close, 1000⟩
    let config : RunConfig Float := ⟨"BTC/USDT", "1h", 10000, 2, 3, 0⟩
    checkCandles candles = .ok () ∧ candles.length ≤ maxNat64 ∧
    (∀ c ∈ candles, c.high ≤ 1e75 ∧ c.close ≤ 1e75) ∧
    (∀ c ∈ candles, c.close ≤ 0 ∨ 1e-225 ≤ c.close) ∧
    (100 ≤ config.capital ∧ config.capital ≤ 1e75) ∧
    (0 ≤ config.riskFree ∧ config.riskFree < 1) ∧
    ∃ result, backtest candles config none = .ok result ∧
      result.trades.map Trade.profit = [8e70] ∧ ∀ x ∈ result.numbers, x.isFinite = true := by
  intro candles config
  have hvalid : checkCandles candles = .ok () := by decide +kernel
  have hprices : ∀ c ∈ candles, c.high ≤ 1e75 ∧ c.close ≤ 1e75 := by decide +kernel
  have hcloses : ∀ c ∈ candles, c.close ≤ 0 ∨ 1e-225 ≤ c.close := by decide +kernel
  have hcapital : 100 ≤ config.capital ∧ config.capital ≤ 1e75 := by decide +kernel
  have hrate : 0 ≤ config.riskFree ∧ config.riskFree < 1 := by decide +kernel
  have hreplay : (replay candles (.crossover 2 3)).map Trade.profit = [8e70] := by
    rw [replay, referencedColumns_crossover_two_three]
    decide +kernel
  obtain ⟨result, hresult⟩ :=
    exists_backtest_of_spanFits (usableRows_of_checkCandles hvalid).ascending (by decide) config none
  have hfinite := backtest_numbers_finite hvalid (by decide) hprices hcloses hcapital hrate none
  rw [hresult] at hfinite
  refine ⟨hvalid, by decide, hprices, hcloses, hcapital, hrate, result, hresult, ?_, hfinite⟩
  rw [profits_of_backtest hresult (by decide), Strategy.ofSpec, hreplay]
  decide +kernel

/-- Beyond any bound on the prices, a profit can be finite and its rounding overflow. -/
theorem rounding_overflows :
    let candles : List (Candle Float) :=
      [3, 3, 3, 3, 3, 3, 3, 2, 3, 4, 1e306, 9e305, 8e305].mapIdx fun row close =>
        ⟨3600 * row, close, close, close, close, 1000⟩
    let config : RunConfig Float := ⟨"BTC/USDT", "1h", 10000, 2, 3, 0⟩
    checkCandles candles = .ok () ∧
    (100 ≤ config.capital ∧ config.capital.isFinite = true) ∧
    (0 ≤ config.riskFree ∧ config.riskFree < 1) ∧
    (replay candles (.crossover 2 3)).map Trade.profit = [8e305] ∧
    ∃ result, backtest candles config none = .ok result ∧
      result.trades.map Trade.profit = [Scalar.infinite false] ∧
      ¬∀ x ∈ result.numbers, x.isFinite = true := by
  intro candles config
  have hreplay : (replay candles (.crossover 2 3)).map Trade.profit = [8e305] := by
    rw [replay, referencedColumns_crossover_two_three]
    decide +kernel
  have hvalid : checkCandles candles = .ok () := by decide +kernel
  obtain ⟨result, hresult⟩ :=
    exists_backtest_of_spanFits (usableRows_of_checkCandles hvalid).ascending (by decide) config none
  have hprofits : result.trades.map Trade.profit = [Scalar.infinite false] := by
    rw [profits_of_backtest hresult (by decide), Strategy.ofSpec, hreplay]
    decide +kernel
  refine ⟨hvalid, by decide +kernel, by decide +kernel, hreplay, result, hresult, hprofits,
    fun hall => ?_⟩
  have hmem : Scalar.infinite false ∈ result.trades.map Trade.profit := by
    rw [hprofits]
    exact List.mem_singleton_self _
  obtain ⟨t, ht, hprofit⟩ := List.mem_map.mp hmem
  have hnumber : t.profit ∈ result.numbers := by
    simp only [RunResult.numbers, List.mem_append, List.mem_flatMap]
    exact Or.inl (Or.inl (Or.inl ⟨t, ht, by simp [Trade.numbers]⟩))
  have hfinite := hall t.profit hnumber
  rw [hprofit] at hfinite
  exact absurd hfinite (by decide +kernel)

end Backtester
