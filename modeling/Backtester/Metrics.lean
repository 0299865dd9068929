import Backtester.Metrics.Equity
import Backtester.Metrics.Ratio
import Backtester.Metrics.Rounding

/-!
# Metrics

The summary of a run: ratios, drawdown extremes, and counts and sums over its trades, each trade
classified by its profit at report precision.

* `Tally` — the counts and sums of a trade list.
* `Metrics` — the figures of the summary; `Metrics.figures` derives them from the counted seconds,
  and `Metrics.rounded` rounds them for the report.
* `Metrics.compute` — counts the seconds and derives the figures.
* `Analysis`, `analyze` — equity curve, drawdowns and metrics of one run.

The seconds are counted in 64 bits, one trade after another.  An overflow on the way leaves no
figures at all.
-/

namespace Backtester

/-- Counts and sums over trades. -/
structure Tally (α : Type) where
  /-- Trades with a profit. -/
  winning : Nat
  /-- Trades with a loss. -/
  losing : Nat
  /-- Trades with neither. -/
  breakeven : Nat
  /-- The sum of the profits. -/
  grossProfit : α
  /-- The sum of the losses, not positive. -/
  grossLoss : α
  /-- The largest profit. -/
  largestWin : α
  /-- The largest loss, not positive. -/
  largestLoss : α
  /-- The seconds that positions were open, or the first overflow in counting them. -/
  duration : Except Overflow Int

/-- The figures of a run's summary. -/
structure Metrics (α : Type) where
  /-- The yearly Sharpe ratio. -/
  sharpeRatio : α
  /-- The yearly Sortino ratio. -/
  sortinoRatio : α
  /-- The deepest drawdown, not positive. -/
  maxDrawdown : α
  /-- The deepest drawdown in percent, not positive. -/
  maxDrawdownPercent : α
  /-- The percentage of winning trades. -/
  winRate : α
  /-- Gross profit over gross loss. -/
  profitFactor : α
  /-- The sum of all profits and losses. -/
  totalReturn : α
  /-- The sum of all profits and losses in percent of the initial capital. -/
  totalReturnPercent : α
  /-- The number of trades. -/
  totalTrades : Nat
  /-- Trades with a profit. -/
  winningTrades : Nat
  /-- Trades with a loss. -/
  losingTrades : Nat
  /-- Trades with neither. -/
  breakevenTrades : Nat
  /-- The sum of the profits. -/
  grossProfit : α
  /-- The sum of the losses, not positive. -/
  grossLoss : α
  /-- The mean profit of winning trades. -/
  averageWin : α
  /-- The mean loss of losing trades, not positive. -/
  averageLoss : α
  /-- The largest profit. -/
  largestWin : α
  /-- The largest loss, not positive. -/
  largestLoss : α
  /-- The mean seconds that a position was open. -/
  averageDuration : α
  /-- The equity after the last row. -/
  finalEquity : α
deriving DecidableEq

/-- What a run's trades amount to. -/
structure Analysis (α : Type) where
  /-- Equity row by row. -/
  equityCurve : List (EquityPoint α)
  /-- Drawdown row by row. -/
  drawdowns : List (DrawdownPoint α)
  /-- The summary. -/
  metrics : Metrics α

variable {α : Type} [Scalar α]

namespace Tally

/-- The tally of no trades. -/
def empty : Tally α := ⟨0, 0, 0, 0, 0, 0, 0, .ok 0⟩

/-- Adds one trade, classified by its profit at report precision. -/
def add (t : Tally α) (trade : Trade α) : Tally α :=
  let profit := roundTo trade.profit profitPlaces
  let t := { t with duration := do addInt64 (← t.duration) (← trade.duration) }
  if 0 < profit then
    { t with
      winning := t.winning + 1
      grossProfit := t.grossProfit + profit
      largestWin := Scalar.larger t.largestWin profit }
  else if profit < 0 then
    { t with
      losing := t.losing + 1
      grossLoss := t.grossLoss + profit
      largestLoss := Scalar.smaller t.largestLoss profit }
  else { t with breakeven := t.breakeven + 1 }

/-- The tally of a trade list. -/
def ofTrades (trades : List (Trade α)) : Tally α := trades.foldl add empty

end Tally

/-- A sum divided by a count; zero for the count zero. -/
def meanOver (sum : α) (count : Nat) : α := if count = 0 then 0 else sum / Scalar.ofNat count

namespace Metrics

/-- The summary of a run whose trades lasted some seconds in all. -/
def figures (curve : List (EquityPoint α)) (drawdowns : List (DrawdownPoint α))
    (trades : List (Trade α)) (capital riskFree : α) (seconds : Int) : Metrics α :=
  let tally := Tally.ofTrades trades
  let changes := returns curve
  let total := tally.grossProfit + tally.grossLoss
  { sharpeRatio := Backtester.sharpeRatio changes riskFree
    sortinoRatio := Backtester.sortinoRatio changes riskFree
    maxDrawdown := (drawdowns.map DrawdownPoint.amount).foldl Scalar.smaller 0
    maxDrawdownPercent := (drawdowns.map DrawdownPoint.percent).foldl Scalar.smaller 0
    winRate := Backtester.winRate tally.winning trades.length
    profitFactor := Backtester.profitFactor tally.grossProfit tally.grossLoss
    totalReturn := total
    totalReturnPercent := if capital == 0 then 0 else total / capital * 100
    totalTrades := trades.length
    winningTrades := tally.winning
    losingTrades := tally.losing
    breakevenTrades := tally.breakeven
    grossProfit := tally.grossProfit
    grossLoss := tally.grossLoss
    averageWin := meanOver tally.grossProfit tally.winning
    averageLoss := meanOver tally.grossLoss tally.losing
    largestWin := tally.largestWin
    largestLoss := tally.largestLoss
    averageDuration := meanOver (Scalar.ofInt seconds) trades.length
    finalEquity := (curve.getLast?.map EquityPoint.equity).getD capital }

/-- The summary of a run. -/
def compute (curve : List (EquityPoint α)) (drawdowns : List (DrawdownPoint α))
    (trades : List (Trade α)) (capital riskFree : α) : Except Overflow (Metrics α) :=
  (Tally.ofTrades trades).duration.map (figures curve drawdowns trades capital riskFree)

/-- Ratios to four places, amounts and percentages to two. -/
def rounded (m : Metrics α) : Metrics α :=
  { m with
    sharpeRatio := roundTo m.sharpeRatio ratioPlaces
    sortinoRatio := roundTo m.sortinoRatio ratioPlaces
    maxDrawdown := roundTo m.maxDrawdown amountPlaces
    maxDrawdownPercent := roundTo m.maxDrawdownPercent amountPlaces
    winRate := roundTo m.winRate amountPlaces
    profitFactor := roundTo m.profitFactor ratioPlaces
    totalReturn := roundTo m.totalReturn amountPlaces
    totalReturnPercent := roundTo m.totalReturnPercent amountPlaces
    grossProfit := roundTo m.grossProfit amountPlaces
    grossLoss := roundTo m.grossLoss amountPlaces
    averageWin := roundTo m.averageWin amountPlaces
    averageLoss := roundTo m.averageLoss amountPlaces
    largestWin := roundTo m.largestWin amountPlaces
    largestLoss := roundTo m.largestLoss amountPlaces
    averageDuration := roundTo m.averageDuration amountPlaces
    finalEquity := roundTo m.finalEquity amountPlaces }

end Metrics

/-- Equity curve, drawdowns and metrics of a run. -/
def analyze (candles : List (Candle α)) (trades : List (Trade α)) (capital riskFree : α) :
    Except Overflow (Analysis α) := do
  let curve := equityCurve candles trades capital
  let series := drawdowns curve
  let metrics ← Metrics.compute curve series trades capital riskFree
  return { equityCurve := curve, drawdowns := series, metrics := metrics }

end Backtester
