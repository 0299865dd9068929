import Backtester.Candle
import Backtester.Position

/-!
# Replaying trades

One pass over the rows of a candle series holds at most one position.  At each row that is ready:

* without a position, an entry signal opens one at the close;
* with a position, the stop is checked first, then the target, then the exit signal, and the first
  that applies closes it; if none does and the stop trails, the stop is moved.

A position still open after the last row leaves no trade.

* `Row` — a candle with its three signals; `rowsOf` pairs candles with signal series, a missing
  signal being false.
* `step` — what one row does to a position.
* `replayRows`, `simulate` — all rows in turn.
-/

namespace Backtester

/-- The direction and the risk limits of a strategy. -/
structure Risk (α : Type) where
  /-- Which way positions earn. -/
  direction : Direction
  /-- The stop as a fraction of the entry price. -/
  stopLoss : Option α
  /-- The target as a fraction of the entry price. -/
  takeProfit : Option α
  /-- The stop follows the price. -/
  trailing : Bool

/-- A candle with the signals of its row. -/
structure Row (α : Type) where
  /-- The candle. -/
  candle : Candle α
  /-- The entry conditions hold. -/
  entry : Bool
  /-- The exit conditions hold. -/
  exit : Bool
  /-- Every column the conditions read has a value. -/
  ready : Bool

/-- The candles with their signals; a series that ends early goes on with false. -/
def rowsOf {α : Type} : List (Candle α) → (entry exit ready : List Bool) → List (Row α)
  | [], _, _, _ => []
  | candle :: rest, entry, exit, ready =>
      { candle := candle
        entry := entry.headD false
        exit := exit.headD false
        ready := ready.headD false } :: rowsOf rest entry.tail exit.tail ready.tail

variable {α : Type} [Scalar α]

/-- The price and the reason for closing a position on a row, if it is closed there. -/
def closing? (position : Position α) (row : Row α) : Option (α × ExitReason) :=
  if position.hitsStop row.candle.low row.candle.high then position.stop.map (·, .stopLoss)
  else if position.hitsTarget row.candle.low row.candle.high then position.target.map (·, .takeProfit)
  else if row.exit then some (row.candle.close, .signal)
  else none

/-- The position after a row on which it stays open. -/
def held (risk : Risk α) (position : Position α) (row : Row α) : Position α :=
  match risk.trailing, risk.stopLoss with
  | true, some fraction => position.trail row.candle.low row.candle.high fraction
  | _, _ => position

/-- What one row does to a position: the position after it and the trade closed on it. -/
def step (risk : Risk α) (position : Option (Position α)) (row : Row α) :
    Option (Position α) × Option (Trade α) :=
  if !row.ready then (position, none)
  else
    match position with
    | none =>
        if row.entry then
          (some (Position.opened row.candle.time row.candle.close risk.direction risk.stopLoss
            risk.takeProfit), none)
        else (none, none)
    | some position =>
        match closing? position row with
        | some (price, reason) => (none, some (position.closed row.candle.time price reason))
        | none => (some (held risk position row), none)

/-- The trades closed on some rows, from a position held before them. -/
def replayRows (risk : Risk α) : Option (Position α) → List (Row α) → List (Trade α)
  | _, [] => []
  | position, row :: rest =>
      match step risk position row with
      | (next, some trade) => trade :: replayRows risk next rest
      | (next, none) => replayRows risk next rest

/-- The trades of a candle series under entry, exit and readiness series. -/
def simulate (candles : List (Candle α)) (entry exit ready : List Bool) (risk : Risk α) :
    List (Trade α) :=
  replayRows risk none (rowsOf candles entry exit ready)

end Backtester
