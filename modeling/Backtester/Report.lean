import Backtester.Json.Fields
import Backtester.Json.Writing
import Backtester.Run

/-!
# Reports

A report is the result of a run as a JSON text.

* `RunResult.report` — the text: two spaces per level, the fields in a fixed order.
* `RunResult.ofReport?` — reads a text back.  All fields are required and unknown ones are skipped.
  A number that is not finite is written as null, which does not read back.
-/

namespace Backtester

namespace EquityPoint

/-- The value of an equity point. -/
def toJson (p : EquityPoint Float) : Json :=
  .object [("time", Json.ofInt p.time), ("equity", Json.ofFloat p.equity)]

/-- Decodes an equity point. -/
def ofDocument? (d : Document) : Option (EquityPoint Float) := do
  match ← d.fields? ["time", "equity"] with
  | [time, equity] =>
      return { time := ← required Document.integer? time
               equity := ← required Document.float? equity }
  | _ => none

end EquityPoint

namespace DrawdownPoint

/-- The value of a drawdown point. -/
def toJson (p : DrawdownPoint Float) : Json :=
  .object [("time", Json.ofInt p.time), ("drawdown", Json.ofFloat p.amount),
    ("drawdown_pct", Json.ofFloat p.percent)]

/-- Decodes a drawdown point. -/
def ofDocument? (d : Document) : Option (DrawdownPoint Float) := do
  match ← d.fields? ["time", "drawdown", "drawdown_pct"] with
  | [time, amount, percent] =>
      return { time := ← required Document.integer? time
               amount := ← required Document.float? amount
               percent := ← required Document.float? percent }
  | _ => none

end DrawdownPoint

/-- The directions with their words. -/
def directionWords : List (String × Direction) :=
  [Direction.long, .short].map fun d => (d.word, d)

/-- The outcomes with their words. -/
def outcomeWords : List (String × Outcome) :=
  [Outcome.win, .loss, .breakeven].map fun o => (o.word, o)

/-- The reasons with their words. -/
def reasonWords : List (String × ExitReason) :=
  [ExitReason.signal, .stopLoss, .takeProfit].map fun r => (r.word, r)

namespace Trade

/-- The value of a trade. -/
def toJson (t : Trade Float) : Json :=
  .object [("entry_time", Json.ofInt t.entryTime), ("exit_time", Json.ofInt t.exitTime),
    ("entry_price", Json.ofFloat t.entryPrice), ("exit_price", Json.ofFloat t.exitPrice),
    ("pnl", Json.ofFloat t.profit), ("pnl_percent", Json.ofFloat t.profitPercent),
    ("direction", .string t.direction.word), ("outcome", .string t.outcome.word),
    ("exit_reason", .string t.reason.word)]

/-- Decodes a trade. -/
def ofDocument? (d : Document) : Option (Trade Float) := do
  match ← d.fields? ["entry_time", "exit_time", "entry_price", "exit_price", "pnl", "pnl_percent",
      "direction", "outcome", "exit_reason"] with
  | [entryTime, exitTime, entryPrice, exitPrice, profit, percent, direction, outcome, reason] =>
      return { entryTime := ← required Document.integer? entryTime
               exitTime := ← required Document.integer? exitTime
               entryPrice := ← required Document.float? entryPrice
               exitPrice := ← required Document.float? exitPrice
               profit := ← required Document.float? profit
               profitPercent := ← required Document.float? percent
               direction := ← required (Document.word? directionWords) direction
               outcome := ← required (Document.word? outcomeWords) outcome
               reason := ← required (Document.word? reasonWords) reason }
  | _ => none

end Trade

namespace Metrics

/-- The value of a summary. -/
def toJson (m : Metrics Float) : Json :=
  .object [("sharpe_ratio", Json.ofFloat m.sharpeRatio), ("sortino_ratio", Json.ofFloat m.sortinoRatio),
    ("max_drawdown", Json.ofFloat m.maxDrawdown),
    ("max_drawdown_pct", Json.ofFloat m.maxDrawdownPercent), ("win_rate", Json.ofFloat m.winRate),
    ("profit_factor", Json.ofFloat m.profitFactor), ("total_return", Json.ofFloat m.totalReturn),
    ("total_return_pct", Json.ofFloat m.totalReturnPercent),
    ("total_trades", Json.ofNat m.totalTrades), ("winning_trades", Json.ofNat m.winningTrades),
    ("losing_trades", Json.ofNat m.losingTrades), ("breakeven_trades", Json.ofNat m.breakevenTrades),
    ("gross_profit", Json.ofFloat m.grossProfit), ("gross_loss", Json.ofFloat m.grossLoss),
    ("avg_win", Json.ofFloat m.averageWin), ("avg_loss", Json.ofFloat m.averageLoss),
    ("largest_win", Json.ofFloat m.largestWin), ("largest_loss", Json.ofFloat m.largestLoss),
    ("avg_trade_duration_secs", Json.ofFloat m.averageDuration),
    ("final_equity", Json.ofFloat m.finalEquity)]

/-- Decodes a summary. -/
def ofDocument? (d : Document) : Option (Metrics Float) := do
  match ← d.fields? ["sharpe_ratio", "sortino_ratio", "max_drawdown", "max_drawdown_pct", "win_rate",
      "profit_factor", "total_return", "total_return_pct", "total_trades", "winning_trades",
      "losing_trades", "breakeven_trades", "gross_profit", "gross_loss", "avg_win", "avg_loss",
      "largest_win", "largest_loss", "avg_trade_duration_secs", "final_equity"] with
  | [sharpe, sortino, drawdown, drawdownPercent, winRate, factor, total, totalPercent, trades, winning,
      losing, breakeven, grossProfit, grossLoss, averageWin, averageLoss, largestWin, largestLoss,
      duration, equity] =>
      return { sharpeRatio := ← required Document.float? sharpe
               sortinoRatio := ← required Document.float? sortino
               maxDrawdown := ← required Document.float? drawdown
               maxDrawdownPercent := ← required Document.float? drawdownPercent
               winRate := ← required Document.float? winRate
               profitFactor := ← required Document.float? factor
               totalReturn := ← required Document.float? total
               totalReturnPercent := ← required Document.float? totalPercent
               totalTrades := ← required Document.natural? trades
               winningTrades := ← required Document.natural? winning
               losingTrades := ← required Document.natural? losing
               breakevenTrades := ← required Document.natural? breakeven
               grossProfit := ← required Document.float? grossProfit
               grossLoss := ← required Document.float? grossLoss
               averageWin := ← required Document.float? averageWin
               averageLoss := ← required Document.float? averageLoss
               largestWin := ← required Document.float? largestWin
               largestLoss := ← required Document.float? largestLoss
               averageDuration := ← required Document.float? duration
               finalEquity := ← required Document.float? equity }
  | _ => none

end Metrics

namespace RunResult

/-- The value of a result. -/
def toJson (r : RunResult Float) : Json :=
  .object [("symbol", .string r.symbol), ("timeframe", .string r.timeframe),
    ("strategy_name", .string r.strategyName), ("metrics", r.metrics.toJson),
    ("equity_curve", .array (r.equityCurve.map EquityPoint.toJson)),
    ("drawdown_series", .array (r.drawdowns.map DrawdownPoint.toJson)),
    ("trades", .array (r.trades.map Trade.toJson))]

/-- The text of a report. -/
def report (r : RunResult Float) : String := r.toJson.pretty

/-- Decodes a result. -/
def ofDocument? (d : Document) : Option (RunResult Float) := do
  match ← d.fields? ["symbol", "timeframe", "strategy_name", "metrics", "equity_curve",
      "drawdown_series", "trades"] with
  | [symbol, timeframe, name, metrics, curve, drawdowns, trades] =>
      return { symbol := ← required Document.text? symbol
               timeframe := ← required Document.text? timeframe
               strategyName := ← required Document.text? name
               metrics := ← required Metrics.ofDocument? metrics
               equityCurve := ← required (Document.list? EquityPoint.ofDocument?) curve
               drawdowns := ← required (Document.list? DrawdownPoint.ofDocument?) drawdowns
               trades := ← required (Document.list? Trade.ofDocument?) trades }
  | _ => none

/-- The result that a report text writes. -/
def ofReport? (text : String) : Option (RunResult Float) := do
  let d ← Document.ofText? text
  ofDocument? d

end RunResult

end Backtester
