import Backtester.Metrics
import Backtester.Signal
import Backtester.Strategy.Compiled

/-!
# Runs

One run compiles the strategy, builds the frame, evaluates the signals, replays the trades and
analyses them.

* `replay` — the trades of a compiled strategy over candles.
* `runTrades` — the trades of a run.  Too few candles give none, and equity stays flat at the
  initial capital.
* `RunResult.assemble` — the result of a trade list, rounded for the report.
* `backtest` — the result of a whole run.  There is none if the seconds of its trades overflow.
-/

namespace Backtester

/-- The settings of a run. -/
structure RunConfig (α : Type) where
  /-- The instrument. -/
  symbol : String
  /-- The length of a candle. -/
  timeframe : String
  /-- The equity before the first trade. -/
  capital : α
  /-- The period of the fast average. -/
  fast : Nat
  /-- The period of the slow average. -/
  slow : Nat
  /-- The yearly return without risk. -/
  riskFree : α

/-- The candles a run needs: ten more than the slow period, as far as 64 bits go. -/
def RunConfig.minCandles {α : Type} (config : RunConfig α) : Nat :=
  min (config.slow + 10) maxNat64

/-- The result of a run. -/
structure RunResult (α : Type) where
  /-- The instrument. -/
  symbol : String
  /-- The length of a candle. -/
  timeframe : String
  /-- The name of the strategy. -/
  strategyName : String
  /-- The summary. -/
  metrics : Metrics α
  /-- Equity row by row. -/
  equityCurve : List (EquityPoint α)
  /-- Drawdown row by row. -/
  drawdowns : List (DrawdownPoint α)
  /-- The trades. -/
  trades : List (Trade α)
deriving DecidableEq

variable {α : Type} [Scalar α]

/-- The trades of a compiled strategy. -/
def replay (candles : List (Candle α)) (strategy : Strategy α) : List (Trade α) :=
  let frame := Frame.build candles strategy.indicators
  simulate candles (frame.allHold strategy.entry) (frame.allHold strategy.exit)
    (frame.readyRows strategy.referencedColumns) strategy.risk

/-- A trade with its profit at report precision, classified by that profit. -/
def Trade.rounded (t : Trade α) : Trade α :=
  let profit := roundTo t.profit profitPlaces
  { t with
    profit := profit
    profitPercent := roundTo t.profitPercent profitPlaces
    outcome := Outcome.ofProfit profit }

/-- An equity point at report precision. -/
def EquityPoint.rounded (p : EquityPoint α) : EquityPoint α :=
  { p with equity := roundTo p.equity amountPlaces }

/-- A drawdown point at report precision. -/
def DrawdownPoint.rounded (p : DrawdownPoint α) : DrawdownPoint α :=
  { p with amount := roundTo p.amount amountPlaces, percent := roundTo p.percent amountPlaces }

/-- The result of a run, from its trades and their analysis. -/
def RunResult.ofAnalysis (config : RunConfig α) (strategyName : String) (trades : List (Trade α))
    (analysis : Analysis α) : RunResult α :=
  { symbol := config.symbol
    timeframe := config.timeframe
    strategyName := strategyName
    metrics := analysis.metrics.rounded
    equityCurve := analysis.equityCurve.map EquityPoint.rounded
    drawdowns := analysis.drawdowns.map DrawdownPoint.rounded
    trades := trades }

/-- The result of a run that made some trades. -/
def RunResult.assemble (candles : List (Candle α)) (config : RunConfig α) (strategyName : String)
    (trades : List (Trade α)) : Except Overflow (RunResult α) := do
  let trades := trades.map Trade.rounded
  let analysis ← analyze candles trades config.capital config.riskFree
  return RunResult.ofAnalysis config strategyName trades analysis

/-- The trades of a run: none on too few candles. -/
def runTrades (candles : List (Candle α)) (config : RunConfig α)
    (spec : Option (StrategySpec α)) : List (Trade α) :=
  if candles.length < config.minCandles then []
  else replay candles (Strategy.ofSpec spec config.fast config.slow)

/-- The result of a run. -/
def backtest (candles : List (Candle α)) (config : RunConfig α) (spec : Option (StrategySpec α)) :
    Except Overflow (RunResult α) :=
  RunResult.assemble candles config (Strategy.ofSpec spec config.fast config.slow).name
    (runTrades candles config spec)

end Backtester
