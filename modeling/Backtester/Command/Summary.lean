import Backtester.Calendar
import Backtester.Run

/-!
# What the console shows

* `RunResult.summary` — the lines that sum up the result of a run.
* `Strategy.description` — the lines that show a compiled strategy.
-/

namespace Backtester

/-- An amount with two places. -/
def amountText (x : Float) : String := fixedPlaces 2 x

/-- A ratio with four places. -/
def ratioText (x : Float) : String := fixedPlaces 4 x

/-- An amount followed by a percentage in brackets. -/
def amountWithPercent (amount percent : Float) : String :=
  amountText amount ++ " (" ++ amountText percent ++ "%)"

namespace Metrics

/-- How many trades there were and how they ended. -/
def tradesText (m : Metrics Float) : String :=
  natText m.totalTrades ++ " (" ++ natText m.winningTrades ++ " won, " ++ natText m.losingTrades ++
    " lost, " ++ natText m.breakevenTrades ++ " even)"

/-- The lines that sum up the figures. -/
def summary (m : Metrics Float) : List String :=
  ["Total Return:     " ++ amountWithPercent m.totalReturn m.totalReturnPercent,
    "Final Equity:     " ++ amountText m.finalEquity,
    "Sharpe Ratio:     " ++ ratioText m.sharpeRatio,
    "Sortino Ratio:    " ++ ratioText m.sortinoRatio,
    "Max Drawdown:     " ++ amountWithPercent m.maxDrawdown m.maxDrawdownPercent,
    "Total Trades:     " ++ m.tradesText,
    "Win Rate:         " ++ amountText m.winRate ++ "%",
    "Profit Factor:    " ++ ratioText m.profitFactor]

end Metrics

namespace RunResult

/-- The line with the first and the last time of the equity curve, if it has any. -/
def periodLine (r : RunResult Float) : List String :=
  match r.equityCurve.head?, r.equityCurve.getLast? with
  | some first, some last =>
      ["Period:           " ++ timeText first.time ++ " .. " ++ timeText last.time]
  | _, _ => []

/-- The lines that sum up a result. -/
def summary (r : RunResult Float) : List String :=
  "" :: ("=== " ++ r.strategyName ++ " | " ++ r.symbol ++ " " ++ r.timeframe ++ " ===") ::
    r.periodLine ++ r.metrics.summary

end RunResult

namespace Strategy

/-- A text two columns further in. -/
def indented (text : String) : String := "  " ++ text

/-- The lines of one side's conditions, with a note if they are the fallback. -/
def sideLines (kind : String) (conditions : List (Condition Float)) (fallback : Bool) : List String :=
  conditions.map (fun c => indented c.text) ++
    if fallback then [indented ("note: no usable " ++ kind ++ " rule, SMA crossover used")] else []

/-- The lines of the entry side. -/
def entryLines (s : Strategy Float) : List String :=
  if s.entry.isEmpty then indented "(none, no trades will open)" :: sideLines "entry" [] s.entryFallback
  else sideLines "entry" s.entry s.entryFallback

/-- A fraction as a percentage. -/
def percentText (fraction : Float) : String := amountText (fraction * 100) ++ "%"

/-- The lines of the risk limits that are set. -/
def riskLines (risk : Risk Float) : List String :=
  (match risk.stopLoss with
    | some fraction =>
        ["Stop loss:   " ++ percentText fraction ++ if risk.trailing then " (trailing)" else ""]
    | none => []) ++
  match risk.takeProfit with
  | some fraction => ["Take profit: " ++ percentText fraction]
  | none => []

/-- The lines that show a strategy. -/
def description (s : Strategy Float) : List String :=
  ["", "Strategy: " ++ s.name, "Direction: " ++ s.risk.direction.label, "", "Indicators to compute:"] ++
    s.indicators.map (fun kind => indented kind.text) ++
    ["", "Entry conditions:"] ++ s.entryLines ++
    ["", "Exit conditions:"] ++ sideLines "exit" s.exit s.exitFallback ++
    riskLines s.risk

end Strategy

end Backtester
