import Backtester.Proofs.Accounting
import Backtester.Proofs.Crossover
import Backtester.Proofs.Differences
import Backtester.Proofs.Outcomes
import Backtester.Proofs.UsableCandles

/-!
# Durations

Times are integers of 64 bits, and durations and their sums are counted in as many.  The trades of
a run lie apart on its rows, so together they are no longer than the time from its first row to its
last.  Where that time fits into 64 bits every count does; but two usable candles can be further
apart, and then the count of a run's seconds may end in an overflow instead of a result.

* `DurationsFit` — trades whose durations and sums are all counted, with a positive mean.
* `averageDuration_pos` — the mean of seconds that fit is positive.
* `durationsFit_iff` — durations above zero fit exactly when their sum does.
* `durations_fit` — when the durations of a run fit, and what follows.
* `total_duration_overflows` — a run whose seconds do not fit.
-/

namespace Backtester

/-! ## The mean duration -/

namespace Doubles

open Float.Model Float.Model.UnpackedFloat

/-- A count is no smaller as a double than a smaller count is. -/
theorem toReal_ofNat_le {n m : ℕ} (hn : 0 < n) (hnm : n ≤ m) (hm : m < 2 ^ 64) :
    toReal (Scalar.ofNat n : Float) ≤ toReal (Scalar.ofNat m : Float) := by
  rcases hnm.eq_or_lt with rfl | hlt
  · exact le_rfl
  · have hfewer := one_le_toReal_ofNat hn (hnm.trans_lt hm)
    have hmore := one_le_toReal_ofNat (hn.trans hlt) hm
    exact (le_iff_toReal hfewer.1 hmore.1).mp
      ((ofNat_roundsTo (hnm.trans_lt hm)).le_of_lt (ofNat_roundsTo hm) (by exact_mod_cast hlt))

/-- A sum of as many units as there are terms, or more, has a mean of at least one. -/
theorem beyond_ofNat_div_ofNat {n m : ℕ} (hn : 0 < n) (hnm : n ≤ m) (hm : m < 2 ^ 64) :
    Beyond 1 .positive (Scalar.ofNat m / Scalar.ofNat n : Float) := by
  obtain ⟨hcount, hone⟩ := one_le_toReal_ofNat hn (hnm.trans_lt hm)
  obtain ⟨hsum, -⟩ := one_le_toReal_ofNat (hn.trans_le hnm) hm
  have hpositive : 0 < toReal (Scalar.ofNat n : Float) := by linarith
  refine (div_roundsTo hsum hcount hpositive.ne').beyond (by simpa using isDouble_pow 0) one_pos ?_
  rw [signum, one_mul, one_le_div hpositive]
  exact toReal_ofNat_le hn hnm hm

theorem Beyond.roundTo_amountPlaces {sign : Sign} {x : Float} (h : Beyond 1 sign x) :
    Beyond (2 ^ (-14 : ℤ)) sign (roundTo x amountPlaces) := by
  have hdouble : IsDouble (1 * (100 : ℕ)) := ⟨100, 0, by norm_num, by norm_num, by norm_num⟩
  exact roundTo_beyond isScale_amountPlaces
    ((h.mul isScale_amountPlaces hdouble one_pos).roundWhole (by norm_num))

end Doubles

open Doubles

/-- The durations of some trades are counted as they are, each and added up one after another. -/
structure DurationsFit (trades : List (Trade Float)) : Prop where
  /-- Each duration is a positive number of 64 bits. -/
  each : ∀ t ∈ trades, t.duration = .ok t.seconds ∧ 0 < t.seconds ∧ t.seconds ≤ maxInt64
  /-- The sum over any first trades is a number of 64 bits. -/
  partialSums : ∀ part, part <+: trades →
    (Tally.ofTrades part).duration = .ok (part.map Trade.seconds).sum ∧
      0 ≤ (part.map Trade.seconds).sum ∧ (part.map Trade.seconds).sum ≤ maxInt64
  /-- There is a mean duration, and it is positive, as it is and rounded for the report. -/
  average : trades ≠ [] → ∀ (curve : List (EquityPoint Float)) (series : List (DrawdownPoint Float))
    (capital riskFree : Float), ∃ m, Metrics.compute curve series trades capital riskFree = .ok m ∧
      0 < m.averageDuration ∧ 0 < m.rounded.averageDuration

/-- The mean of positive durations is positive if their sum fits. -/
theorem averageDuration_pos {trades : List (Trade Float)} (hne : trades ≠ [])
    (hpositive : ∀ t ∈ trades, 0 < t.seconds)
    (hfits : (trades.map Trade.seconds).sum ≤ maxInt64) {curve : List (EquityPoint Float)}
    {series : List (DrawdownPoint Float)} {capital riskFree : Float} {m : Metrics Float}
    (hm : Metrics.compute curve series trades capital riskFree = .ok m) :
    0 < m.averageDuration ∧ 0 < m.rounded.averageDuration := by
  have hcount : (trades.length : ℤ) ≤ (trades.map Trade.seconds).sum := by
    have hunits := List.card_nsmul_le_sum (trades.map Trade.seconds) 1 fun seconds hseconds => by
      obtain ⟨t, ht, rfl⟩ := List.mem_map.mp hseconds
      exact hpositive t ht
    simpa using hunits
  obtain ⟨total, htotal⟩ :=
    Int.eq_ofNat_of_zero_le ((Int.natCast_nonneg trades.length).trans hcount)
  rw [htotal] at hcount hfits
  unfold maxInt64 at hfits
  have haverage : m.averageDuration = Scalar.ofNat total / Scalar.ofNat trades.length := by
    obtain ⟨-, rfl⟩ := compute_eq_ok_iff.mp hm
    show meanOver (Scalar.ofInt (trades.map Trade.seconds).sum) trades.length = _
    rw [htotal, meanOver, if_neg (mt List.length_eq_zero_iff.mp hne)]
    rfl
  have hbeyond := beyond_ofNat_div_ofNat (List.length_pos_iff.mpr hne) (by omega)
    (show total < 2 ^ 64 by omega)
  rw [← haverage] at hbeyond
  exact ⟨(hbeyond.above_zero one_pos).1,
    (hbeyond.roundTo_amountPlaces.above_zero (by positivity)).1⟩

/-- Positive durations fit exactly when their sum does: no sum on the way is larger. -/
theorem durationsFit_iff {trades : List (Trade Float)} (hpositive : ∀ t ∈ trades, 0 < t.seconds) :
    DurationsFit trades ↔ (trades.map Trade.seconds).sum ≤ maxInt64 := by
  constructor
  · intro h
    exact (h.partialSums trades List.prefix_rfl).2.2
  · intro htotal
    have hfits := (secondsFit_iff_of_pos hpositive).mpr htotal
    refine ⟨fun t ht => ?_, fun part hpart => ?_, fun hne curve series capital riskFree => ?_⟩
    · have heach := hfits.each t.seconds (List.mem_map_of_mem ht)
      exact ⟨Trade.duration_eq_ok_iff.mpr ⟨heach, rfl⟩, hpositive t ht, heach.2⟩
    · have hfirst := hpart.map Trade.seconds
      have hcounted := Tally.duration_ofTrades_eq_ok_iff.mpr ⟨hfits.of_isPrefix hfirst, rfl⟩
      refine ⟨hcounted, List.sum_nonneg fun seconds hseconds => ?_, (hfits.sums _ hfirst).2⟩
      obtain ⟨t, ht, rfl⟩ := List.mem_map.mp hseconds
      exact (hpositive t (hpart.subset ht)).le
    · obtain ⟨m, hm⟩ : ∃ m, Metrics.compute curve series trades capital riskFree = .ok m :=
        ⟨_, compute_eq_ok_iff.mpr ⟨hfits, rfl⟩⟩
      exact ⟨m, hm, averageDuration_pos hne hpositive htotal hm⟩

/-- The trades that a strategy makes on candles, as they are or rounded for a result. -/
inductive MadeOn (candles : List (Candle Float)) : List (Trade Float) → Prop
  | replayed (strategy : Strategy Float) : MadeOn candles (replay candles strategy)
  | rounded (config : RunConfig Float) (spec : Option (StrategySpec Float)) :
      MadeOn candles ((runTrades candles config spec).map Trade.rounded)

theorem MadeOn.spaced {candles : List (Candle Float)} (hascending : Ascending candles)
    {trades : List (Trade Float)} (h : MadeOn candles trades) :
    Spaced (candles.map Candle.time) trades := by
  cases h with
  | replayed strategy => exact replay_spaced hascending strategy
  | rounded config spec => exact (runTrades_spaced hascending config spec).map_rounded

/-- On usable candles, every trade lasts a second at least, and the durations of a run fit exactly
when the time that positions are open does.  So they fit on all candles whose times are no further
apart than 64 bits can count, for every strategy.  A run without a result is one whose positions are
open for longer; in a result all durations fit and a mean duration is positive. -/
theorem durations_fit {candles : List (Candle Float)} (hvalid : checkCandles candles = .ok ()) :
    (∀ trades, MadeOn candles trades →
      (∀ t ∈ trades, 0 < t.seconds) ∧
      (DurationsFit trades ↔ (trades.map Trade.seconds).sum ≤ maxInt64) ∧
      (SpanFits candles → DurationsFit trades)) ∧
    ∀ (config : RunConfig Float) (spec : Option (StrategySpec Float)),
      match backtest candles config spec with
      | .error _ => maxInt64 < ((runTrades candles config spec).map Trade.seconds).sum
      | .ok result => DurationsFit result.trades ∧
          (result.trades ≠ [] → 0 < result.metrics.averageDuration) := by
  have hascending := (usableRows_of_checkCandles hvalid).ascending
  constructor
  · intro trades hmade
    have hspaced := hmade.spaced hascending
    have hpositive := hspaced.seconds_pos hascending
    refine ⟨hpositive, durationsFit_iff hpositive, fun hspan => (durationsFit_iff hpositive).mpr ?_⟩
    exact hspaced.sum_seconds_le_of_spanFits hascending hspan
  · intro config spec
    have hpositive := (runTrades_spaced hascending config spec).seconds_pos hascending
    cases hresult : backtest candles config spec with
    | error _ =>
        -- Every trade adds to the count, so it can only have grown too large.
        have hfits := not_secondsFit_of_backtest hresult
        rwa [secondsFit_iff_of_pos hpositive, not_le] at hfits
    | ok result =>
        have hreported := (backtest_spaced hascending hresult).seconds_pos hascending
        obtain ⟨m, hm, hmetrics⟩ := metrics_of_backtest hresult
        have hfits := (compute_eq_ok_iff.mp hm).1
        have htotal := (secondsFit_iff_of_pos hreported).mp hfits
        refine ⟨(durationsFit_iff hreported).mpr htotal, fun hne => ?_⟩
        rw [hmetrics]
        exact (averageDuration_pos hne hreported htotal hm).2

/-- Two trades of the crossover on hourly candles. -/
theorem durations_fit_thirteen :
    let candles : List (Candle Float) :=
      [3, 2, 1, 2, 3, 1, 1, 2, 3, 1, 1, 1, 1].mapIdx fun row close =>
        ⟨3600 * row, close, close, close, close, 1000⟩
    let trades := replay candles (.crossover 2 3)
    checkCandles candles = .ok () ∧ MadeOn candles trades ∧
    trades.map Trade.seconds = [7200, 10800] ∧
    (∀ t ∈ trades, 0 < t.seconds) ∧
    (DurationsFit trades ↔ (trades.map Trade.seconds).sum ≤ maxInt64) ∧
    SpanFits candles ∧ DurationsFit trades ∧
    ∃ result, backtest candles ⟨"BTC/USDT", "1h", 10000, 2, 3, 0⟩ none = .ok result ∧
      DurationsFit result.trades ∧ 0 < result.metrics.averageDuration := by
  intro candles trades
  have hvalid : checkCandles candles = .ok () := by decide +kernel
  have hmade : MadeOn candles trades := .replayed _
  have hseconds : trades.map Trade.seconds = [7200, 10800] := by
    show (replay candles (.crossover 2 3)).map Trade.seconds = [7200, 10800]
    rw [replay, referencedColumns_crossover_two_three]
    decide +kernel
  have hspan : SpanFits candles := by decide
  obtain ⟨hpositive, hiff, hfit⟩ := (durations_fit hvalid).1 trades hmade
  obtain ⟨result, hresult⟩ := exists_backtest_of_spanFits (usableRows_of_checkCandles hvalid).ascending
    hspan ⟨"BTC/USDT", "1h", 10000, 2, 3, 0⟩ none
  have hdurations := (durations_fit hvalid).2 ⟨"BTC/USDT", "1h", 10000, 2, 3, 0⟩ none
  rw [hresult] at hdurations
  have htrades : result.trades ≠ [] := by
    rw [trades_of_backtest hresult, Ne, List.map_eq_nil_iff]
    intro hnone
    have hruns : trades = [] := hnone
    rw [hruns] at hseconds
    cases hseconds
  exact ⟨hvalid, hmade, hseconds, hpositive, hiff, hspan, hfit hspan, result, hresult, hdurations.1,
    hdurations.2 htrades⟩

/-- Candles over the whole of 64 bits: the second trade lasts two thirds of them, and the sum of two
durations that fit does not.  The run has no result. -/
theorem total_duration_overflows :
    let times : List ℤ := (List.range 6).map (fun i => minInt64 + i) ++
      (List.range 4).map (fun i => -2 ^ 62 + (i : ℤ)) ++ [1704067200, 1704070800, 1704074400]
    let candles : List (Candle Float) :=
      times.zipWith (fun time close => ⟨time, close, close, close, close, 1000⟩)
        [3, 2, 1, 2, 3, 1, 1, 2, 3, 1, 1, 1, 1]
    let trades := replay candles (.crossover 2 3)
    checkCandles candles = .ok () ∧
    (∀ c ∈ candles, FitsInt64 c.time) ∧
    trades.map Trade.duration = [.ok 4611686018427387900, .ok 4611686020131455103] ∧
    (Tally.ofTrades trades).duration = .error .addition ∧
    backtest candles ⟨"BTC/USDT", "1h", 10000, 2, 3, 0⟩ none = .error .addition ∧
    ¬DurationsFit trades := by
  intro times candles trades
  have hdurations : trades.map Trade.duration =
      [.ok 4611686018427387900, .ok 4611686020131455103] := by
    show (replay candles (.crossover 2 3)).map Trade.duration = _
    rw [replay, referencedColumns_crossover_two_three]
    decide +kernel
  have htotal : (Tally.ofTrades trades).duration = .error .addition := by
    show (Tally.ofTrades (replay candles (.crossover 2 3))).duration = _
    rw [replay, referencedColumns_crossover_two_three]
    decide +kernel
  refine ⟨by decide +kernel, by decide +kernel, hdurations, htotal, ?_, fun hfit => ?_⟩
  · have hruns : runTrades candles ⟨"BTC/USDT", "1h", 10000, 2, 3, 0⟩ none = trades :=
      if_neg (by decide)
    apply backtest_eq_error_of_duration
    rwa [hruns]
  · cases htotal.symm.trans (hfit.partialSums trades List.prefix_rfl).1

end Backtester
