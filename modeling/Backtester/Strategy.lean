import Backtester.Indicator
import Backtester.Json
import Backtester.Number.Reading
import Backtester.Text.LowerCase

/-!
# Strategy descriptions

A strategy is described by indicators, entry and exit rules and constraints.  A description is taken
for what it is worth: an unknown indicator name is kept, and a rule that cannot be used is left out
when the strategy is compiled.

* `StrategySpec` with its parts `IndicatorSpec`, `EntryRule`, `ExitRule` and `Constraint`.
* `IndicatorSpec.kind` — the indicator that a name and its parameters stand for.
* `Constraint.stopLossPercent` — the percentage in a constraint such as `max stop 3%`.
-/

namespace Backtester

/-- An indicator by name. -/
structure IndicatorSpec where
  /-- The name. -/
  name : String
  /-- The period, if one is given. -/
  period : Option Nat
  /-- Further parameters. -/
  params : List (String × Json)

/-- When to open a position. -/
structure EntryRule (α : Type) where
  /-- Condition text, or a comparator for `indicator` and `threshold`. -/
  condition : String
  /-- The left side of a lone comparator. -/
  indicator : Option String
  /-- The right side of a lone comparator. -/
  threshold : Option α
  /-- Which way the position earns. -/
  direction : String

/-- When to close a position. -/
structure ExitRule (α : Type) where
  /-- Condition text, or a comparator for `indicator` and `threshold`. -/
  condition : String
  /-- The left side of a lone comparator. -/
  indicator : Option String
  /-- The right side of a lone comparator. -/
  threshold : Option α
  /-- The stop in percent of the entry price. -/
  stopLossPercent : Option α
  /-- The target in percent of the entry price. -/
  takeProfitPercent : Option α
  /-- The stop follows the price. -/
  trailing : Bool

/-- A limit in words. -/
structure Constraint where
  /-- The kind of limit. -/
  kind : String
  /-- The limit. -/
  value : String
  /-- The limit is absolute. -/
  absolute : Bool

/-- The description of a strategy. -/
structure StrategySpec (α : Type) where
  /-- The name. -/
  name : String
  /-- The indicators it asks for. -/
  indicators : List IndicatorSpec
  /-- The rules for opening. -/
  entryRules : List (EntryRule α)
  /-- The rules for closing. -/
  exitRules : List (ExitRule α)
  /-- The limits. -/
  constraints : List Constraint

/-- The name of a strategy without one. -/
def unnamedStrategy : String := "Custom Strategy"

/-- The description that says nothing. -/
def StrategySpec.empty {α : Type} : StrategySpec α := ⟨unnamedStrategy, [], [], [], []⟩

namespace IndicatorSpec

/-- A numeric parameter. -/
def param? (s : IndicatorSpec) (key : String) : Option Float :=
  match s.params.lookup key with
  | some (.number n) => some n.toFloat
  | _ => none

/-- A parameter as a period: rounded, and not negative. -/
def periodParam? (s : IndicatorSpec) (key : String) : Option Nat :=
  match s.param? key with
  | some x => if 0 ≤ x then some (Binary64.roundWhole x).toUInt64.toNat else none
  | none => none

/-- A width in hundredths, between zero and the largest number of 32 bits. -/
def hundredths (width : Float) : Nat := (Binary64.roundWhole (width * 100)).toUInt32.toNat

/-- The indicator that a name and its parameters stand for. -/
def kind (s : IndicatorSpec) : Indicator :=
  match upperKey (trimmed s.name) with
  | "SMA" => .sma (s.period.getD 20)
  | "EMA" => .ema (s.period.getD 20)
  | "RSI" => .rsi (s.period.getD 14)
  | "MACD" =>
      .macd ((s.periodParam? "fast").getD 12) ((s.periodParam? "slow").getD 26)
        ((s.periodParam? "signal").getD 9)
  | "BOLLINGER" | "BB" | "BBANDS" =>
      .bollinger ((s.period <|> s.periodParam? "period").getD 20)
        (((s.param? "std_dev").map hundredths).getD 200)
  | _ => .unknown s.name s.period

end IndicatorSpec

/-- A text stands somewhere in another. -/
def occursIn (text : List Char) : List Char → Bool
  | [] => text.isEmpty
  | c :: rest => text.isPrefixOf (c :: rest) || occursIn text rest

/-- A character of a percentage. -/
def isFigureChar (c : Char) : Bool := isDigit c || c == '.'

/-- The number that ends before a percent sign, from the text before it in reverse order: the
longest run of digits and points next to the sign, blanks between passed over, without the points it
starts with. -/
def figureBefore {α : Type} [Scalar α] (before : List Char) : Option α :=
  let run := ((before.dropWhile isBlank).takeWhile isFigureChar).reverse
  (readNumber (run.dropWhile (· == '.'))).map NumberLiteral.value

/-- The first number before a percent sign in a text, after the characters `before` in reverse
order. -/
def firstPercentage {α : Type} [Scalar α] : (before : List Char) → List Char → Option α
  | _, [] => none
  | before, c :: rest =>
      if c = '%' then
        match figureBefore before with
        | some value => some value
        | none => firstPercentage (c :: before) rest
      else firstPercentage (c :: before) rest

/-- The percentage in a constraint about a stop. -/
def Constraint.stopLossPercent {α : Type} [Scalar α] (c : Constraint) : Option α :=
  if occursIn "stop".toList (lowerText c.value.toList) then firstPercentage [] c.value.toList
  else none

end Backtester
