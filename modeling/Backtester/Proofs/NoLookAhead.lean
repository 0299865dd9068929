import Backtester.Proofs.Accounting
import Backtester.Proofs.Closings
import Backtester.Proofs.Crossover

/-!
# No look-ahead

A run on the first `k` candles of a series and a run on the whole series agree on everything that
lies in the first `k` rows: the trades closed there, equity and drawdown.

The comparison is one commutation after another.  Frames, signals and closings are cut by cutting
the candles; bookings are cut by cutting the candles and keeping the trades that exit on them; and
on ascending candles those are the trades that the shorter run makes.
-/

namespace Backtester

variable {α : Type} [Scalar α]

/-- The members of the first rows are those with a row before the cut. -/
theorem mem_take_iff_getElem? {β : Type} {rows : List β} {x : β} {k : Nat} :
    x ∈ rows.take k ↔ ∃ i, i < k ∧ rows[i]? = some x := by
  constructor
  · intro hmem
    obtain ⟨i, hi⟩ := List.mem_iff_getElem?.mp hmem
    have hlt : i < k := by
      have hlength := (List.getElem?_eq_some_iff.mp hi).1
      rw [List.length_take] at hlength
      omega
    exact ⟨i, hlt, by rwa [List.getElem?_take_of_lt hlt] at hi⟩
  · rintro ⟨i, hlt, hi⟩
    exact List.mem_of_getElem? ((List.getElem?_take_of_lt hlt).trans hi)

/-- The trades of a cut series, as what the first rows of the whole series close. -/
theorem replay_take (candles : List (Candle α)) (strategy : Strategy α) (k : Nat) :
    replay (candles.take k) strategy = ((closings candles strategy).take k).reduceOption := by
  rw [replay_eq_reduceOption_closings, closings_take]

theorem replay_take_isPrefix (candles : List (Candle α)) (strategy : Strategy α) (k : Nat) :
    replay (candles.take k) strategy <+: replay candles strategy := by
  rw [replay_take, replay_eq_reduceOption_closings]
  exact (List.take_prefix k _).filterMap id

/-- On ascending candles the exit time tells on which side of the cut a trade was closed. -/
theorem replay_take_eq_exitingWithin {candles : List (Candle α)} (hascending : Ascending candles)
    (strategy : Strategy α) (k : Nat) :
    replay (candles.take k) strategy =
      exitingWithin (replay candles strategy) ((candles.map Candle.time).take k) := by
  have hsplit : replay candles strategy = ((closings candles strategy).take k).reduceOption ++
      ((closings candles strategy).drop k).reduceOption := by
    rw [replay_eq_reduceOption_closings, ← List.reduceOption_append, List.take_append_drop]
  have hbefore : ∀ t ∈ ((closings candles strategy).take k).reduceOption,
      t.exitTime ∈ (candles.map Candle.time).take k := by
    intro t ht
    obtain ⟨i, hlt, hclosed⟩ := mem_take_iff_getElem?.mp (List.reduceOption_mem_iff.mp ht)
    exact mem_take_iff_getElem?.mpr ⟨i, hlt, exitTime_of_closings hclosed⟩
  have hafter : ∀ t ∈ ((closings candles strategy).drop k).reduceOption,
      t.exitTime ∉ (candles.map Candle.time).take k := by
    intro t ht hmem
    obtain ⟨i, hi⟩ := List.mem_iff_getElem?.mp (List.reduceOption_mem_iff.mp ht)
    rw [List.getElem?_drop] at hi
    obtain ⟨j, hlt, hj⟩ := mem_take_iff_getElem?.mp hmem
    have hrow : k + i = j := row_unique hascending (exitTime_of_closings hi) hj
    omega
  rw [replay_take, hsplit, exitingWithin, List.filter_append, List.filter_eq_self.mpr,
    List.filter_eq_nil_iff.mpr, List.append_nil]
  · simpa using hafter
  · simpa using hbefore

section

variable {candles : List (Candle α)} (hascending : Ascending candles) {config : RunConfig α}
  {spec : Option (StrategySpec α)} {k : Nat} (henough : config.minCandles ≤ k)
  (hk : k ≤ candles.length)

include henough hk

/-- With enough candles on both sides of the cut, both runs replay the strategy. -/
theorem runTrades_of_enough :
    runTrades (candles.take k) config spec =
        replay (candles.take k) (Strategy.ofSpec spec config.fast config.slow) ∧
      runTrades candles config spec =
        replay candles (Strategy.ofSpec spec config.fast config.slow) := by
  have hlength : (candles.take k).length = k := by
    rw [List.length_take]
    omega
  exact ⟨if_neg (by omega), if_neg (by omega)⟩

theorem runTrades_take_isPrefix :
    runTrades (candles.take k) config spec <+: runTrades candles config spec := by
  obtain ⟨hearly, hwhole⟩ := runTrades_of_enough henough hk
  rw [hearly, hwhole]
  exact replay_take_isPrefix candles _ k

include hascending

/-- The shorter run makes the trades of the longer one that exit on its candles. -/
theorem rounded_runTrades_take :
    (runTrades (candles.take k) config spec).map Trade.rounded =
      exitingWithin ((runTrades candles config spec).map Trade.rounded)
        ((candles.map Candle.time).take k) := by
  obtain ⟨hearly, hwhole⟩ := runTrades_of_enough henough hk
  rw [hearly, hwhole, replay_take_eq_exitingWithin hascending, exitingWithin, exitingWithin,
    List.filter_map]
  rfl

/-- If the longer run has a result, so has the shorter one, and it is the first part of it. -/
theorem exists_backtest_take {whole : RunResult α} (h : backtest candles config spec = .ok whole) :
    ∃ early, backtest (candles.take k) config spec = .ok early ∧
      early.trades <+: whole.trades ∧
      early.trades = exitingWithin whole.trades ((candles.map Candle.time).take k) ∧
      early.equityCurve = whole.equityCurve.take k ∧
      early.drawdowns = whole.drawdowns.take k := by
  have hfirst : runTrades (candles.take k) config spec <+: runTrades candles config spec :=
    runTrades_take_isPrefix henough hk
  -- The shorter run has fewer seconds to count, so it does not overflow either.
  have hfits := exists_backtest_eq_ok_iff.mp ⟨whole, h⟩
  obtain ⟨early, hearly⟩ :=
    exists_backtest_eq_ok_iff.mpr (hfits.of_isPrefix (hfirst.map Trade.seconds))
  have htrades : early.trades = exitingWithin whole.trades ((candles.map Candle.time).take k) := by
    rw [trades_of_backtest hearly, trades_of_backtest h]
    exact rounded_runTrades_take hascending henough hk
  have hcurve : equityCurve (candles.take k) early.trades config.capital =
      (equityCurve candles whole.trades config.capital).take k := by
    rw [htrades, equityCurve_take hascending]
  refine ⟨early, hearly, ?_, htrades, ?_, ?_⟩
  · rw [trades_of_backtest hearly, trades_of_backtest h]
    exact hfirst.map Trade.rounded
  · rw [equityCurve_of_backtest hearly, equityCurve_of_backtest h, hcurve, List.map_take]
  · rw [drawdowns_of_backtest hearly, drawdowns_of_backtest h, hcurve, drawdowns_take,
      List.map_take]

end

/-- A run looks at the past only.  What a strategy does on the first `k` rows of a series is what it
does on the first `k` candles alone: the trades of the shorter run are those that the first `k` rows
of the longer one close, and on ascending candles trades, equity and drawdown of the shorter result
are the first part of those of the longer one, if the seconds of the longer one's trades fit. -/
theorem run_reads_only_past (candles : List (Candle α)) (k : Nat) :
    (∀ strategy : Strategy α,
      (∀ (i : Nat) (trade : Trade α), (closings candles strategy)[i]? = some (some trade) →
        (candles.map Candle.time)[i]? = some trade.exitTime) ∧
      replay candles strategy = (closings candles strategy).reduceOption ∧
      replay (candles.take k) strategy = ((closings candles strategy).take k).reduceOption ∧
      replay (candles.take k) strategy <+: replay candles strategy) ∧
    (∀ (strategy : Strategy α) (others : List (Candle α)), candles.take k = others.take k →
      ((closings candles strategy).take k).reduceOption =
        ((closings others strategy).take k).reduceOption) ∧
    (∀ (config : RunConfig α) (spec : Option (StrategySpec α)), Ascending candles →
      config.minCandles ≤ k → k ≤ candles.length →
      match backtest candles config spec with
      | .error _ => ¬SecondsFit (runTrades candles config spec)
      | .ok whole => ∃ early, backtest (candles.take k) config spec = .ok early ∧
        early.trades <+: whole.trades ∧
        early.trades = exitingWithin whole.trades ((candles.map Candle.time).take k) ∧
        early.equityCurve = whole.equityCurve.take k ∧
        early.drawdowns = whole.drawdowns.take k) := by
  refine ⟨fun strategy => ⟨?_, ?_, ?_, ?_⟩, ?_, ?_⟩
  · intro i trade hclosed
    exact exitTime_of_closings hclosed
  · exact replay_eq_reduceOption_closings candles strategy
  · exact replay_take candles strategy k
  · exact replay_take_isPrefix candles strategy k
  · intro strategy others hagree
    rw [← replay_take, ← replay_take, hagree]
  · intro config spec hascending henough hk
    cases hwhole : backtest candles config spec with
    | error _ => exact not_secondsFit_of_backtest hwhole
    | ok whole => exact exists_backtest_take hascending henough hk hwhole

/-- When a trade opens and closes, and what it earns. -/
def Trade.account {β : Type} (t : Trade β) : Int × Int × β := (t.entryTime, t.exitTime, t.profit)

/-- Fifteen hourly candles, and a run on the first thirteen of them: the crossover closes two trades
before the cut, and it holds a position there that it closes behind it. -/
theorem run_reads_only_past_thirteen_of_fifteen :
    let candles : List (Candle Float) :=
      [3, 2, 1, 2, 3, 1, 1, 2, 3, 1, 1, 2, 3, 1, 1].mapIdx fun row close =>
        ⟨3600 * row, close, close, close, close, 1000⟩
    let others := candles.take 13 ++ [⟨46800, 9, 9, 9, 9, 1000⟩]
    let config : RunConfig Float := ⟨"BTC/USDT", "1h", 10000, 2, 3, 0⟩
    (candles.take 13 = others.take 13 ∧ Ascending candles ∧ config.minCandles ≤ 13 ∧
      13 ≤ candles.length) ∧
    (replay (candles.take 13) (.crossover 2 3)).map Trade.account =
      [(14400, 21600, -2), (25200, 36000, -1)] ∧
    (replay candles (.crossover 2 3)).map Trade.account =
      [(14400, 21600, -2), (25200, 36000, -1), (39600, 50400, -1)] ∧
    ((closings candles (.crossover 2 3)).take 13).reduceOption =
      ((closings others (.crossover 2 3)).take 13).reduceOption ∧
    ∃ early whole, backtest (candles.take 13) config none = .ok early ∧
      backtest candles config none = .ok whole ∧
      early.trades.map Trade.account = [(14400, 21600, -2), (25200, 36000, -1)] ∧
      whole.trades.map Trade.account =
        [(14400, 21600, -2), (25200, 36000, -1), (39600, 50400, -1)] ∧
      early.trades <+: whole.trades ∧
      early.trades = exitingWithin whole.trades ((candles.map Candle.time).take 13) ∧
      early.equityCurve = whole.equityCurve.take 13 ∧
      early.drawdowns = whole.drawdowns.take 13 := by
  intro candles others config
  have hagree : candles.take 13 = others.take 13 := by decide
  have hascending : Ascending candles := by decide
  have henough : config.minCandles ≤ 13 := by decide
  have hk : 13 ≤ candles.length := by decide
  have hearlier : (replay (candles.take 13) (.crossover 2 3)).map Trade.account =
      [(14400, 21600, -2), (25200, 36000, -1)] := by
    rw [replay, referencedColumns_crossover_two_three]
    decide +kernel
  have hall : (replay candles (.crossover 2 3)).map Trade.account =
      [(14400, 21600, -2), (25200, 36000, -1), (39600, 50400, -1)] := by
    rw [replay, referencedColumns_crossover_two_three]
    decide +kernel
  obtain ⟨whole, hwhole⟩ := exists_backtest_of_spanFits hascending (by decide) config none
  have hpast := (run_reads_only_past candles 13).2.2 config none hascending henough hk
  rw [hwhole] at hpast
  obtain ⟨early, hearly, hresults⟩ := hpast
  have haccount (trades : List (Trade Float)) : (trades.map Trade.rounded).map Trade.account =
      (trades.map Trade.account).map fun (opens, closes, profit) =>
        (opens, closes, roundTo profit profitPlaces) := by
    rw [List.map_map, List.map_map]
    rfl
  obtain ⟨hfirst, hlast⟩ : runTrades (candles.take 13) config none = _ ∧
      runTrades candles config none = _ := runTrades_of_enough henough hk
  refine ⟨⟨hagree, hascending, henough, hk⟩, hearlier, hall,
    (run_reads_only_past candles 13).2.1 (.crossover 2 3) others hagree, early, whole, hearly,
    hwhole, ?_, ?_, hresults⟩
  · rw [trades_of_backtest hearly, hfirst, haccount, Strategy.ofSpec, hearlier]
    decide +kernel
  · rw [trades_of_backtest hwhole, hlast, haccount, Strategy.ofSpec, hall]
    decide +kernel

end Backtester
