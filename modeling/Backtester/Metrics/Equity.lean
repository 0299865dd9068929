import Backtester.Candle
import Backtester.Position

/-!
# Equity and drawdown

* `findRow` — the row of a time in an ascending list of times, by halving.
* `bookings` — each trade's profit on the row of its exit time; a trade whose exit time is no
  candle's time is not booked.
* `equityCurve` — the initial capital plus the profit booked so far.
* `drawdowns` — how far equity lies below its highest value so far, as an amount and in percent.
* `returns` — the relative change of equity from row to row.

Every degenerate case has a finite value: a return or a percentage that is undefined or not finite
is zero.
-/

namespace Backtester

/-- Equity after one row. -/
structure EquityPoint (α : Type) where
  /-- The time of the row. -/
  time : Int
  /-- The equity. -/
  equity : α
deriving DecidableEq

/-- Drawdown after one row; neither part is positive. -/
structure DrawdownPoint (α : Type) where
  /-- The time of the row. -/
  time : Int
  /-- Equity less its highest value so far. -/
  amount : α
  /-- The amount in percent of that highest value. -/
  percent : α
deriving DecidableEq

/-- The last row, among `size` rows from `base` on, that halving finds not above `key`. -/
def halve (times : List Int) (key : Int) (size base : Nat) : Nat :=
  if size ≤ 1 then base
  else
    let middle := base + size / 2
    -- Either half keeps the same number of rows, the larger one where the size is odd.
    let above := (times[middle]?).any fun time => decide (key < time)
    halve times key (size - size / 2) (if above then base else middle)
termination_by size

/-- The row of a time. -/
def findRow (times : List Int) (key : Int) : Option Nat :=
  let row := halve times key times.length 0
  if times[row]? = some key then some row else none

variable {α : Type} [Scalar α]

/-- Adds a trade's profit to the row of its exit time. -/
def bookTrade (times : List Int) (booked : List α) (trade : Trade α) : List α :=
  match findRow times trade.exitTime with
  | some row => booked.modify row (· + trade.profit)
  | none => booked

/-- The profit booked on each row. -/
def bookings (times : List Int) (trades : List (Trade α)) : List α :=
  trades.foldl (bookTrade times) (List.replicate times.length 0)

/-- The equity points of some rows, after the profit `earned` before them. -/
def equityFrom (capital : α) : (earned : α) → List (Int × α) → List (EquityPoint α)
  | _, [] => []
  | earned, (time, profit) :: rest =>
      let earned := earned + profit
      ⟨time, capital + earned⟩ :: equityFrom capital earned rest

/-- The initial capital plus the profit booked so far, row by row. -/
def equityCurve (candles : List (Candle α)) (trades : List (Trade α)) (capital : α) :
    List (EquityPoint α) :=
  let times := candles.map Candle.time
  equityFrom capital 0 (times.zip (bookings times trades))

/-- The relative change from one equity value to the next. -/
def relativeChange (previous current : α) : α :=
  let change := if previous == 0 then 0 else (current - previous) / previous
  if Scalar.isFinite change then change else 0

/-- The relative changes of equity; the first row has none and counts as zero. -/
def returns (curve : List (EquityPoint α)) : List α :=
  match curve with
  | [] => []
  | _ :: rest => 0 :: List.zipWith (fun p q => relativeChange p.equity q.equity) curve rest

/-- The drawdown of an equity point below the highest equity so far. -/
def drawdownBelow (highest : α) (point : EquityPoint α) : DrawdownPoint α :=
  let amount := point.equity - highest
  let percent := amount / highest * 100
  { time := point.time
    amount := amount
    percent := if !(highest == 0) && Scalar.isFinite percent then percent else 0 }

/-- The drawdowns of some rows, after the highest equity before them. -/
def drawdownsFrom : (highest : α) → List (EquityPoint α) → List (DrawdownPoint α)
  | _, [] => []
  | highest, point :: rest =>
      let highest := Scalar.larger highest point.equity
      drawdownBelow highest point :: drawdownsFrom highest rest

/-- The drawdown at each row of an equity curve. -/
def drawdowns (curve : List (EquityPoint α)) : List (DrawdownPoint α) :=
  drawdownsFrom (Scalar.infinite true) curve

end Backtester
