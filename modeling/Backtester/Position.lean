import Backtester.Number.Checked
import Backtester.Scalar
import Backtester.Text.Blank

/-!
# Positions and trades

A position is opened at a price in one direction, with an optional stop and an optional target
price, and closed as a trade.

* `Position.opened` — stop and target prices from fractions of the entry price.
* `Position.hitsStop`, `Position.hitsTarget` — whether a candle's range reaches them.
* `Position.trail` — moves the stop after the price; it never moves against the position.
* `Position.closed` — the trade record; `Trade.duration` — how long the position was open.
-/

namespace Backtester

/-- Which way a position earns. -/
inductive Direction where
  /-- Earns when the price rises. -/
  | long
  /-- Earns when the price falls. -/
  | short
deriving DecidableEq

namespace Direction

/-- `short`, in any ASCII letter case and with blanks around it, is short; any other text is
long. -/
def ofText (text : String) : Direction :=
  if (trim text.toList).map asciiLower == "short".toList then short else long

/-- The word that documents use. -/
def word : Direction → String
  | long => "long"
  | short => "short"

/-- The word that the console shows. -/
def label : Direction → String
  | long => "Long"
  | short => "Short"

end Direction

/-- How a trade ended for the trader. -/
inductive Outcome where
  /-- A profit. -/
  | win
  /-- A loss. -/
  | loss
  /-- Neither. -/
  | breakeven
deriving DecidableEq

namespace Outcome

/-- The outcome that belongs to a profit or loss. -/
def ofProfit {α : Type} [Scalar α] (profit : α) : Outcome :=
  if 0 < profit then win else if profit < 0 then loss else breakeven

/-- The word that documents use. -/
def word : Outcome → String
  | win => "win"
  | loss => "loss"
  | breakeven => "breakeven"

end Outcome

/-- Why a position was closed. -/
inductive ExitReason where
  /-- The exit conditions held. -/
  | signal
  /-- The stop price was reached. -/
  | stopLoss
  /-- The target price was reached. -/
  | takeProfit
deriving DecidableEq

/-- The word that documents use. -/
def ExitReason.word : ExitReason → String
  | signal => "signal"
  | stopLoss => "stop_loss"
  | takeProfit => "take_profit"

/-- A position that has been closed. -/
structure Trade (α : Type) where
  /-- When it was opened. -/
  entryTime : Int
  /-- When it was closed. -/
  exitTime : Int
  /-- The price at opening. -/
  entryPrice : α
  /-- The price at closing. -/
  exitPrice : α
  /-- What one unit earned. -/
  profit : α
  /-- What it earned in percent of the entry price. -/
  profitPercent : α
  /-- Which way it earned. -/
  direction : Direction
  /-- How it ended. -/
  outcome : Outcome
  /-- Why it was closed. -/
  reason : ExitReason
deriving DecidableEq

/-- The seconds from opening to closing, where 64 bits hold them. -/
def Trade.duration {α : Type} (t : Trade α) : Except Overflow Int :=
  subInt64 t.exitTime t.entryTime

/-- An open position. -/
structure Position (α : Type) where
  /-- When it was opened. -/
  entryTime : Int
  /-- The price at opening. -/
  entryPrice : α
  /-- Which way it earns. -/
  direction : Direction
  /-- The price that ends it as a loss. -/
  stop : Option α
  /-- The price that ends it as a profit. -/
  target : Option α

namespace Position

variable {α : Type} [Scalar α]

/-- Opens a position, with stop and target as fractions of the price away from it. -/
def opened (time : Int) (price : α) (direction : Direction) (stopLoss takeProfit : Option α) :
    Position α :=
  { entryTime := time
    entryPrice := price
    direction := direction
    stop := stopLoss.map fun fraction =>
      match direction with
      | .long => price * (1 - fraction)
      | .short => price * (1 + fraction)
    target := takeProfit.map fun fraction =>
      match direction with
      | .long => price * (1 + fraction)
      | .short => price * (1 - fraction) }

/-- A range from `low` to `high` reaches the stop price. -/
def hitsStop (p : Position α) (low high : α) : Bool :=
  match p.stop, p.direction with
  | some stop, .long => decide (low ≤ stop)
  | some stop, .short => decide (stop ≤ high)
  | none, _ => false

/-- A range from `low` to `high` reaches the target price. -/
def hitsTarget (p : Position α) (low high : α) : Bool :=
  match p.target, p.direction with
  | some target, .long => decide (target ≤ high)
  | some target, .short => decide (low ≤ target)
  | none, _ => false

/-- Moves the stop after the price, keeping the fraction `stopLoss` from the best price of a
range. -/
def trail (p : Position α) (low high stopLoss : α) : Position α :=
  { p with
    stop := p.stop.map fun stop =>
      match p.direction with
      | .long => Scalar.larger stop (high * (1 - stopLoss))
      | .short => Scalar.smaller stop (low * (1 + stopLoss)) }

/-- What one unit earns when closed at a price. -/
def profitAt (p : Position α) (price : α) : α :=
  match p.direction with
  | .long => price - p.entryPrice
  | .short => p.entryPrice - price

/-- The trade of a position closed at a time and price. -/
def closed (p : Position α) (time : Int) (price : α) (reason : ExitReason) : Trade α :=
  let profit := p.profitAt price
  { entryTime := p.entryTime
    exitTime := time
    entryPrice := p.entryPrice
    exitPrice := price
    profit := profit
    profitPercent := if p.entryPrice == 0 then 0 else profit / p.entryPrice * 100
    direction := p.direction
    outcome := Outcome.ofProfit profit
    reason := reason }

end Position

end Backtester
