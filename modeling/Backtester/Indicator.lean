import Backtester.Indicator.Window
import Backtester.Number.Notation
import Backtester.Text.Blank
import Backtester.Text.LowerCase

/-!
# Indicators

An indicator adds one to three columns to a frame, all computed from the close series.

* `Indicator` — the kinds with their parameters.
* `Indicator.columnNames` — the names of the columns a kind adds, in order.
* `Indicator.outputs`, `Indicator.columns` — their values, alone and under their names.
* `Indicator.text` — how a kind is shown.
-/

namespace Backtester

/-- An indicator with its parameters. -/
inductive Indicator where
  /-- The simple moving average. -/
  | sma (period : Nat)
  /-- The exponential moving average. -/
  | ema (period : Nat)
  /-- The relative strength index. -/
  | rsi (period : Nat)
  /-- The difference of two exponential averages, its own average, and the difference of these. -/
  | macd (fast slow signal : Nat)
  /-- A simple average with a band of deviations around it, the width in hundredths. -/
  | bollinger (period hundredths : Nat)
  /-- A name that stands for no known kind; its column is the close series. -/
  | unknown (name : String) (period : Option Nat)
deriving DecidableEq

namespace Indicator

/-- The names of the columns an indicator adds, in order. -/
def columnNames : Indicator → List String
  | sma period => ["sma_" ++ natText period]
  | ema period => ["ema_" ++ natText period]
  | rsi period => ["rsi_" ++ natText period]
  | macd _ _ _ => ["macd", "macd_signal", "macd_histogram"]
  | bollinger _ _ => ["bb_upper", "bb_middle", "bb_lower"]
  | unknown name none => [lowered (trimmed name)]
  | unknown name (some period) => [lowered (trimmed name) ++ "_" ++ natText period]

/-- The width of a band as a number of deviations. -/
def bandWidth {α : Type} [Scalar α] (hundredths : Nat) : α := Scalar.ofNat hundredths / 100

/-- The three series of the average difference; none is defined when a period is zero. -/
def macdOutputs {α : Type} [Scalar α] (closes : List α) (fast slow signal : Nat) : List (List α) :=
  if fast = 0 ∨ slow = 0 ∨ signal = 0 then
    [undefinedSeries closes, undefinedSeries closes, undefinedSeries closes]
  else
    let line := List.zipWith (· - ·) (exponentialAverage closes fast) (exponentialAverage closes slow)
    let average := exponentialAverage line signal
    [line, average, List.zipWith (· - ·) line average]

/-- The upper, middle and lower series of a band. -/
def bollingerOutputs {α : Type} [Scalar α] (closes : List α) (period hundredths : Nat) :
    List (List α) :=
  let width := bandWidth hundredths
  let middle := simpleAverage closes period
  let deviation := standardDeviation closes period
  [List.zipWith (fun m s => m + width * s) middle deviation, middle,
    List.zipWith (fun m s => m - width * s) middle deviation]

/-- The values of an indicator's columns over a close series. -/
def outputs {α : Type} [Scalar α] (closes : List α) : Indicator → List (List α)
  | sma period => [simpleAverage closes period]
  | ema period => [exponentialAverage closes period]
  | rsi period => [relativeStrength closes period]
  | macd fast slow signal => macdOutputs closes fast slow signal
  | bollinger period hundredths => bollingerOutputs closes period hundredths
  | unknown _ _ => [closes]

/-- The columns of an indicator over a close series. -/
def columns {α : Type} [Scalar α] (closes : List α) (kind : Indicator) : List (String × List α) :=
  kind.columnNames.zip (kind.outputs closes)

/-- How an indicator is shown. -/
def text : Indicator → String
  | sma period => "SMA(" ++ natText period ++ ")"
  | ema period => "EMA(" ++ natText period ++ ")"
  | rsi period => "RSI(" ++ natText period ++ ")"
  | macd fast slow signal =>
      "MACD(" ++ natText fast ++ "," ++ natText slow ++ "," ++ natText signal ++ ")"
  | bollinger period hundredths =>
      "BOLLINGER(" ++ natText period ++ "," ++ NumberStyle.display.write (bandWidth hundredths) ++ ")"
  | unknown name none => name
  | unknown name (some period) => name ++ "(" ++ natText period ++ ")"

end Indicator

end Backtester
