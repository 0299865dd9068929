import Backtester.Proofs.Accounting
import Backtester.Proofs.ExactArithmetic
import Backtester.Proofs.ExitPrices
import Backtester.Proofs.StopPercentages

/-!
# The balance of a run

The summary of a run computes its final equity and its total return apart.  The equity adds up what
is booked on the rows, which the exit times choose; the return adds up gross profit and gross loss,
which the outcomes choose.  In exact arithmetic both come to the profits that the trades report.

* `replay_profit_isNumber` — on data of real numbers every trade earns a real number.
* `Tally.gross_ofTrades` — gross profit and gross loss are the sums of the positive and of the
  negative rounded profits.
* `foldl_bookings` — the bookings of all rows add up to the profits of all trades.
* `final_equity_balances` — final equity, total return and reported profits agree.
-/

namespace Backtester

open Exact

/-! ## Percentages in a constraint -/

theorem Constraint.stopLossPercent_isNumber {c : Constraint} {value : Exact}
    (h : c.stopLossPercent = some value) : IsNumber value := by
  unfold Constraint.stopLossPercent at h
  split at h
  · obtain ⟨whole, fraction, -, rfl⟩ := firstPercentage_eq_some_iff.mp h
    exact ⟨_, rfl⟩
  · cases h

/-! ## Prices are numbers -/

/-- The limits of a risk setting are numbers. -/
structure Risk.Numbers (risk : Risk Exact) : Prop where
  stopLoss : ∀ fraction ∈ risk.stopLoss, IsNumber fraction
  takeProfit : ∀ fraction ∈ risk.takeProfit, IsNumber fraction

theorem lastPositiveFraction_isNumber {percentages : List Exact}
    (h : ∀ x ∈ percentages, IsNumber x) {fraction : Exact}
    (hlast : lastPositiveFraction percentages = some fraction) : IsNumber fraction := by
  obtain ⟨x, hx, -, rfl⟩ := lastPositiveFraction_eq_some hlast
  exact (h x hx).div_ofNat (n := 100) (by decide)

/-- A description of real numbers compiles to limits that are numbers. -/
theorem Strategy.ofSpec_numbers (spec : Option (StrategySpec ℝ)) (fast slow : ℕ) :
    (ofSpec (spec.map (StrategySpec.map number)) fast slow).risk.Numbers := by
  cases spec with
  | none => exact ⟨fun fraction h => (by cases h), fun fraction h => (by cases h)⟩
  | some spec =>
      have hrules {f : ExitRule Exact → Option Exact} {g : ExitRule ℝ → Option ℝ}
          (hfield : ∀ r, f (r.map number) = (g r).map number) :
          ∀ x ∈ (spec.map number).exitRules.filterMap f, IsNumber x := by
        intro x hx
        obtain ⟨rule, hrule, hx⟩ := List.mem_filterMap.mp hx
        obtain ⟨r, -, rfl⟩ := List.mem_map.mp hrule
        rw [hfield] at hx
        obtain ⟨value, -, rfl⟩ := Option.map_eq_some_iff.mp hx
        exact isNumber_number value
      have hconstraints :
          ∀ x ∈ (spec.map number).constraints.filterMap Constraint.stopLossPercent, IsNumber x := by
        intro x hx
        obtain ⟨c, -, hc⟩ := List.mem_filterMap.mp hx
        exact c.stopLossPercent_isNumber hc
      refine ⟨fun fraction h => ?_, fun fraction h => ?_⟩
      · rcases Strategy.stopLossOf_eq_some h with hconstraint | hrule
        · exact lastPositiveFraction_isNumber hconstraints hconstraint
        · exact lastPositiveFraction_isNumber (hrules (g := ExitRule.stopLossPercent) fun _ => rfl)
            hrule
      · exact lastPositiveFraction_isNumber (hrules (g := ExitRule.takeProfitPercent) fun _ => rfl)
          h

/-- The entry price, the stop and the target of a position are numbers. -/
structure Position.Numbers (p : Position Exact) : Prop where
  entryPrice : IsNumber p.entryPrice
  stop : ∀ price ∈ p.stop, IsNumber price
  target : ∀ price ∈ p.target, IsNumber price

section

variable {risk : Risk Exact} {p : Position Exact} {price : Exact}

/-- A price with a fraction of it taken off or put on. -/
theorem isNumber_level (hprice : IsNumber price) {fraction : Exact}
    (hfraction : IsNumber fraction) :
    IsNumber (price * (1 - fraction)) ∧ IsNumber (price * (1 + fraction)) :=
  ⟨hprice.mul ((isNumber_ofNat 1).sub hfraction), hprice.mul ((isNumber_ofNat 1).add hfraction)⟩

theorem Position.numbers_opened (hrisk : risk.Numbers) (time : ℤ) (hprice : IsNumber price) :
    (Position.opened time price risk.direction risk.stopLoss risk.takeProfit).Numbers := by
  refine ⟨hprice, fun level hlevel => ?_, fun level hlevel => ?_⟩
  · obtain ⟨fraction, hfraction, rfl⟩ := Option.map_eq_some_iff.mp hlevel
    have hlevels := isNumber_level hprice (hrisk.stopLoss fraction hfraction)
    cases risk.direction with
    | long => exact hlevels.1
    | short => exact hlevels.2
  · obtain ⟨fraction, hfraction, rfl⟩ := Option.map_eq_some_iff.mp hlevel
    have hlevels := isNumber_level hprice (hrisk.takeProfit fraction hfraction)
    cases risk.direction with
    | long => exact hlevels.2
    | short => exact hlevels.1

theorem Position.Numbers.held (h : p.Numbers) (hrisk : risk.Numbers) {row : Row Exact}
    (hlow : IsNumber row.candle.low) (hhigh : IsNumber row.candle.high) :
    (held risk p row).Numbers := by
  unfold Backtester.held
  split
  · next fraction _ hstop =>
      have hfraction := hrisk.stopLoss fraction hstop
      refine ⟨h.entryPrice, fun level hlevel => ?_, h.target⟩
      obtain ⟨stop, hmem, rfl⟩ := Option.map_eq_some_iff.mp hlevel
      have hnumber := h.stop stop hmem
      cases p.direction with
      | long => exact Doubles.larger_of_both hnumber (isNumber_level hhigh hfraction).1
      | short => exact Doubles.smaller_of_both hnumber (isNumber_level hlow hfraction).2
  · exact h

/-- A position is closed at its stop, at its target or at the close. -/
theorem Position.Numbers.exit (h : p.Numbers) {c : Candle Exact} (hclose : IsNumber c.close)
    {signal : Bool} {reason : ExitReason} (hexit : FirstExit p c signal price reason) :
    IsNumber price := by
  cases hexit with
  | stop hstop => exact h.stop price hstop
  | target _ htarget => exact h.target price htarget
  | signal => exact hclose

theorem Position.Numbers.profitAt (h : p.Numbers) (hprice : IsNumber price) :
    IsNumber (p.profitAt price) := by
  unfold Position.profitAt
  cases p.direction with
  | long => exact hprice.sub h.entryPrice
  | short => exact h.entryPrice.sub hprice

end

/-- On candles of real numbers every trade earns a real number. -/
theorem replay_profit_isNumber (candles : List (Candle ℝ)) {strategy : Strategy Exact}
    (hrisk : strategy.risk.Numbers) :
    ∀ t ∈ replay (candles.map (Candle.map number)) strategy, IsNumber t.profit := by
  refine Preserves.replayRows (P := Position.Numbers) (fun row hrow => ?_) (fun p hp => by cases hp)
  obtain ⟨c, -, hc⟩ := List.mem_map.mp (candle_mem_of_mem_rowsOf hrow)
  have hclose : IsNumber row.candle.close := ⟨c.close, by rw [← hc]; rfl⟩
  exact
    { opened := Position.numbers_opened hrisk _ hclose
      held := fun p hp =>
        hp.held hrisk ⟨c.low, by rw [← hc]; rfl⟩ ⟨c.high, by rw [← hc]; rfl⟩
      closed := fun p price reason hp hexit => hp.profitAt (hp.exit hclose hexit) }

/-! ## Gross profit and gross loss -/

section

variable {value : Trade Exact → ℝ}

/-- One trade adds the positive part of its rounded profit to the gross profit, and the negative
part to the gross loss. -/
theorem Tally.gross_add {t : Tally Exact} {profit loss p : ℝ}
    (hprofit : t.grossProfit = number profit)
    (hloss : t.grossLoss = number loss) {trade : Trade Exact}
    (hp : roundTo trade.profit profitPlaces = number p) :
    (t.add trade).grossProfit = number (profit + max p 0) ∧
      (t.add trade).grossLoss = number (loss + min p 0) := by
  unfold Tally.add
  rw [hp]
  dsimp only
  split
  · next hwin =>
      have hpositive := ((number_pos_iff p).mp hwin).le
      rw [max_eq_left hpositive, min_eq_right hpositive, add_zero, ← number_add, hprofit]
      exact ⟨rfl, hloss⟩
  · next hnotWin =>
      have hnonpos := not_lt.mp (mt (number_pos_iff p).mpr hnotWin)
      rw [max_eq_right hnonpos, min_eq_left hnonpos, add_zero]
      split
      · rw [← number_add, hloss]
        exact ⟨hprofit, rfl⟩
      · next hnotLoss =>
          have hzero := le_antisymm hnonpos (not_lt.mp (mt (number_neg_iff p).mpr hnotLoss))
          rw [hzero, add_zero]
          exact ⟨hprofit, hloss⟩

theorem Tally.gross_foldl_add {trades : List (Trade Exact)}
    (hvalue : ∀ t ∈ trades, roundTo t.profit profitPlaces = number (value t)) {t : Tally Exact}
    {profit loss : ℝ} (hprofit : t.grossProfit = number profit)
    (hloss : t.grossLoss = number loss) :
    (trades.foldl Tally.add t).grossProfit =
        number (profit + (trades.map fun t => max (value t) 0).sum) ∧
      (trades.foldl Tally.add t).grossLoss =
        number (loss + (trades.map fun t => min (value t) 0).sum) := by
  induction trades generalizing t profit loss with
  | nil => simpa using ⟨hprofit, hloss⟩
  | cons trade rest ih =>
      obtain ⟨htrade, hrest⟩ := List.forall_mem_cons.mp hvalue
      obtain ⟨hprofit', hloss'⟩ := Tally.gross_add hprofit hloss htrade
      obtain ⟨hgross, hlost⟩ := ih hrest hprofit' hloss'
      rw [List.foldl_cons, List.map_cons, List.map_cons, List.sum_cons, List.sum_cons, ← add_assoc,
        ← add_assoc]
      exact ⟨hgross, hlost⟩

/-- Gross profit and gross loss are the sums of the positive and of the negative rounded profits. -/
theorem Tally.gross_ofTrades {trades : List (Trade Exact)}
    (hvalue : ∀ t ∈ trades, roundTo t.profit profitPlaces = number (value t)) :
    (Tally.ofTrades trades).grossProfit = number (trades.map fun t => max (value t) 0).sum ∧
      (Tally.ofTrades trades).grossLoss = number (trades.map fun t => min (value t) 0).sum := by
  have hgross := Tally.gross_foldl_add hvalue (t := Tally.empty) zero_eq_number zero_eq_number
  rwa [zero_add, zero_add] at hgross

/-- The total return adds up all rounded profits. -/
theorem totalReturn_figures {trades : List (Trade Exact)}
    (hvalue : ∀ t ∈ trades, roundTo t.profit profitPlaces = number (value t))
    (curve : List (EquityPoint Exact)) (series : List (DrawdownPoint Exact))
    (capital riskFree : Exact) (seconds : ℤ) :
    (Metrics.figures curve series trades capital riskFree seconds).totalReturn =
      number (trades.map value).sum := by
  obtain ⟨hprofit, hloss⟩ := Tally.gross_ofTrades hvalue
  show (Tally.ofTrades trades).grossProfit + (Tally.ofTrades trades).grossLoss = _
  rw [hprofit, hloss, number_add, ← List.sum_map_add]
  simp only [max_add_min, add_zero]

/-! ## Bookings -/

/-- The bookings of all rows add up to the profits of all trades. -/
theorem foldl_bookings {times : List ℤ} (hascending : times.Pairwise (· < ·))
    {trades : List (Trade Exact)} (h : Spaced times trades)
    (hvalue : ∀ t ∈ trades, t.profit = number (value t)) :
    (bookings times trades).foldl (· + ·) 0 = number (trades.map value).sum := by
  have hrow (time : ℤ) : addProfits 0 (exitingAt trades time) =
      number ((exitingAt trades time).map value).sum := by
    have hprofits : (exitingAt trades time).map Trade.profit =
        ((exitingAt trades time).map value).map number := by
      rw [List.map_map]
      exact List.map_congr_left fun t ht => hvalue t (List.mem_filter.mp ht).1
    rw [addProfits, hprofits, zero_eq_number, foldl_add_number, zero_add]
  have hrows : bookings times trades =
      (times.map fun time => ((exitingAt trades time).map value).sum).map number := by
    apply List.ext_getElem?
    intro row
    rw [getElem?_bookings hascending, List.map_map, List.getElem?_map]
    exact congrArg (Option.map · _) (funext hrow)
  -- Each trade exits on one row, so the sums over the rows go through all trades once.
  have hsum : (times.map fun time => ((exitingAt trades time).map value).sum).sum =
      (trades.map value).sum := by
    conv_rhs => rw [← flatMap_exitingAt hascending h]
    rw [List.map_flatMap, List.flatMap_def, List.sum_flatten, List.map_map]
    rfl
  rw [hrows, zero_eq_number, foldl_add_number, zero_add, hsum]

/-- Equity ends at the capital and the profits of all trades. -/
theorem finalEquity_figures {candles : List (Candle Exact)} (hascending : Ascending candles)
    {trades : List (Trade Exact)} (h : Spaced (candles.map Candle.time) trades)
    (hvalue : ∀ t ∈ trades, t.profit = number (value t)) (series : List (DrawdownPoint Exact))
    (capital : ℝ) (riskFree : Exact) (seconds : ℤ) :
    (Metrics.figures (equityCurve candles trades (number capital)) series trades (number capital)
      riskFree seconds).finalEquity = number (capital + (trades.map value).sum) := by
  have hbooked := foldl_bookings hascending h hvalue
  show ((equityCurve candles trades (number capital)).getLast?.map EquityPoint.equity).getD
    (number capital) = _
  rw [List.getLast?_eq_getElem?, length_equityCurve, getElem?_equityCurve,
    ← List.getLast?_eq_getElem?]
  cases hlast : candles.getLast? with
  | none =>
      -- Without rows there are no trades, and equity is the capital.
      have hempty := List.getLast?_eq_none_iff.mp hlast
      have hnone : trades = [] := by
        rw [List.eq_nil_iff_forall_not_mem]
        intro t ht
        obtain ⟨i, j, -, hopens, -⟩ := h.onRows t ht
        rw [hempty] at hopens
        cases hopens
      have hsum : (trades.map value).sum = 0 := by rw [hnone]; rfl
      rw [hsum, add_zero]
      rfl
  | some last =>
      have hlength : candles.length - 1 + 1 = candles.length :=
        Nat.sub_add_cancel (List.length_pos_of_mem (List.mem_of_getLast? hlast))
      have hall : (bookings (candles.map Candle.time) trades).take candles.length =
          bookings (candles.map Candle.time) trades := by
        rw [List.take_of_length_le]
        rw [length_bookings, List.length_map]
      rw [hlength, hall, hbooked, number_add]
      rfl

end

/-! ## The balance -/

/-- The trades of a result report real numbers, already rounded. -/
theorem backtest_profit {candles : List (Candle ℝ)} {config : RunConfig ℝ}
    {spec : Option (StrategySpec ℝ)} {result : RunResult Exact}
    (h : backtest (candles.map (Candle.map number)) (config.map number)
      (spec.map (StrategySpec.map number)) = .ok result) :
    ∀ t ∈ result.trades, IsNumber t.profit ∧ roundTo t.profit profitPlaces = t.profit := by
  intro t ht
  rw [trades_of_backtest h] at ht
  obtain ⟨trade, htrade, rfl⟩ := List.mem_map.mp ht
  have hnumber : IsNumber trade.profit := by
    unfold runTrades at htrade
    split at htrade
    · cases htrade
    · exact replay_profit_isNumber candles (Strategy.ofSpec_numbers spec _ _) trade htrade
  obtain ⟨r, hr⟩ := hnumber
  show IsNumber (roundTo trade.profit profitPlaces) ∧
    roundTo (roundTo trade.profit profitPlaces) profitPlaces = roundTo trade.profit profitPlaces
  rw [hr, roundTo_number, roundTo_number, nearestDecimal_nearestDecimal]
  exact ⟨isNumber_number _, rfl⟩

/-- In exact arithmetic, on strictly ascending candles of real numbers, final equity and total
return tell the same profit, and it is what the trades of the result report.  There is no result
only if the seconds of the trades do not fit. -/
theorem final_equity_balances {candles : List (Candle ℝ)} (hascending : Ascending candles)
    (config : RunConfig ℝ) (spec : Option (StrategySpec ℝ)) :
    let rows := candles.map (Candle.map number)
    let settings := config.map number
    match backtest rows settings (spec.map (StrategySpec.map number)) with
    | .error _ => ¬SecondsFit (runTrades rows settings (spec.map (StrategySpec.map number)))
    | .ok result =>
      ∃ analysis, analyze rows result.trades settings.capital settings.riskFree = .ok analysis ∧
        result.metrics = analysis.metrics.rounded ∧
        result.equityCurve = analysis.equityCurve.map EquityPoint.rounded ∧
        analysis.metrics.finalEquity = settings.capital + analysis.metrics.totalReturn ∧
        ∃ profits : List ℝ, result.trades.map Trade.profit = profits.map number ∧
          analysis.metrics.totalReturn = number profits.sum ∧
          analysis.metrics.finalEquity = number (config.capital + profits.sum) := by
  intro rows settings
  have hrows : Ascending rows := by
    unfold Ascending
    rw [List.map_map]
    exact hascending
  cases hresult : backtest rows settings (spec.map (StrategySpec.map number)) with
  | error _ => exact not_secondsFit_of_backtest hresult
  | ok result =>
      obtain ⟨analysis, hanalysis, hreported⟩ := analysis_of_backtest hresult
      obtain ⟨hcompute, hcurve, -⟩ := analyze_eq_ok_iff.mp hanalysis
      obtain ⟨-, hmetrics⟩ := compute_eq_ok_iff.mp hcompute
      have hprofit := backtest_profit hresult
      have hvalue : ∀ t ∈ result.trades, t.profit = number t.profit.toReal :=
        fun t ht => (hprofit t ht).1.eq_number
      have hreturn : analysis.metrics.totalReturn =
          number (result.trades.map fun t => t.profit.toReal).sum := by
        rw [hmetrics]
        exact totalReturn_figures (fun t ht => (hprofit t ht).2.trans (hvalue t ht)) _ _ _ _ _
      have hequity : analysis.metrics.finalEquity =
          number (config.capital + (result.trades.map fun t => t.profit.toReal).sum) := by
        rw [hmetrics]
        exact finalEquity_figures hrows (backtest_spaced hrows hresult) hvalue _ _ _ _
      refine ⟨analysis, hanalysis, hreported.1, hreported.2.1, ?_,
        result.trades.map fun t => t.profit.toReal, ?_, hreturn, hequity⟩
      · rw [hreturn, hequity]
        rfl
      · rw [List.map_map]
        exact List.map_congr_left hvalue

/-- Fourteen candles of a minute each whose closes go up and down. -/
theorem final_equity_balances_fourteen :
    let candles : List (Candle ℝ) :=
      (List.range 14).map fun (i : Nat) => ⟨60 * i, 5, 9, 1, if i % 4 < 2 then 5 else 7, 1000⟩
    let config : RunConfig ℝ := ⟨"BTC/USDT", "1m", 10000, 1, 2, 0⟩
    let rows := candles.map (Candle.map number)
    Ascending candles ∧
    ∃ result analysis, backtest rows (config.map number) none = .ok result ∧
      analyze rows result.trades (number 10000) (number 0) = .ok analysis ∧
      analysis.metrics.finalEquity = number 10000 + analysis.metrics.totalReturn := by
  intro candles config rows
  have hascending : Ascending candles := by decide
  have hrows : Ascending rows := by decide
  obtain ⟨result, hresult⟩ : ∃ result,
      backtest (candles.map (Candle.map number)) (config.map number) none = .ok result :=
    exists_backtest_of_spanFits hrows (by decide) (config.map number) none
  have hbalance := final_equity_balances hascending config none
  dsimp only [Option.map_none] at hbalance
  rw [hresult] at hbalance
  obtain ⟨analysis, hanalysis, -, -, hequity, -⟩ := hbalance
  exact ⟨hascending, result, analysis, hresult, hanalysis, hequity⟩

end Backtester
