import Backtester.Json.Fields
import Backtester.Strategy

/-!
# Strategy documents

A strategy description is a JSON text.  Missing fields have defaults and unknown ones are skipped; a
field with a value of another type, or given twice, makes the text no description.

* `StrategySpec.ofText?`, `IndicatorSpec.ofText?` — decode a text.
* `StrategySpec.toJson` — the value of a description with all its fields.
-/

namespace Backtester

namespace IndicatorSpec

/-- Decodes the parameters of an indicator. -/
def paramsOf? (levels : Nat) (d : Document) : Option (List (String × Json)) :=
  match d.value? levels with
  | some (.object members) => some members
  | _ => none

/-- Decodes an indicator, with at most `levels` arrays and objects inside each other. -/
def ofDocument? (levels : Nat) (d : Document) : Option IndicatorSpec := do
  match ← d.fields? ["name", "period", "params"] with
  | [name, period, params] =>
      return { name := ← orDefault "" Document.text? name
               period := ← orDefault none (Document.optional? Document.natural?) period
               params := ← orDefault [] (paramsOf? (levels - 1)) params }
  | _ => none

/-- Decodes the text of one indicator. -/
def ofText? (text : String) : Option IndicatorSpec := do
  let d ← Document.ofText? text
  ofDocument? deepestNesting d

/-- The value of an indicator. -/
def toJson (s : IndicatorSpec) : Json :=
  .object [("name", .string s.name), ("period", Json.ofOption Json.ofNat s.period),
    ("params", .object s.params)]

end IndicatorSpec

namespace EntryRule

/-- Decodes an entry rule. -/
def ofDocument? (d : Document) : Option (EntryRule Float) := do
  match ← d.fields? ["condition", "indicator", "threshold", "direction"] with
  | [condition, indicator, threshold, direction] =>
      return { condition := ← orDefault "" Document.text? condition
               indicator := ← orDefault none (Document.optional? Document.text?) indicator
               threshold := ← orDefault none (Document.optional? Document.float?) threshold
               direction := ← orDefault "long" Document.text? direction }
  | _ => none

/-- The value of an entry rule. -/
def toJson (r : EntryRule Float) : Json :=
  .object [("condition", .string r.condition), ("indicator", Json.ofOption .string r.indicator),
    ("threshold", Json.ofOption Json.ofFloat r.threshold), ("direction", .string r.direction)]

end EntryRule

namespace ExitRule

/-- Decodes an exit rule. -/
def ofDocument? (d : Document) : Option (ExitRule Float) := do
  match ← d.fields? ["condition", "indicator", "threshold", "stop_loss_pct", "take_profit_pct",
      "trailing_stop"] with
  | [condition, indicator, threshold, stopLoss, takeProfit, trailing] =>
      return { condition := ← orDefault "" Document.text? condition
               indicator := ← orDefault none (Document.optional? Document.text?) indicator
               threshold := ← orDefault none (Document.optional? Document.float?) threshold
               stopLossPercent := ← orDefault none (Document.optional? Document.float?) stopLoss
               takeProfitPercent := ← orDefault none (Document.optional? Document.float?) takeProfit
               trailing := ← orDefault false Document.bool? trailing }
  | _ => none

/-- The value of an exit rule. -/
def toJson (r : ExitRule Float) : Json :=
  .object [("condition", .string r.condition), ("indicator", Json.ofOption .string r.indicator),
    ("threshold", Json.ofOption Json.ofFloat r.threshold),
    ("stop_loss_pct", Json.ofOption Json.ofFloat r.stopLossPercent),
    ("take_profit_pct", Json.ofOption Json.ofFloat r.takeProfitPercent),
    ("trailing_stop", .bool r.trailing)]

end ExitRule

namespace Constraint

/-- Decodes a constraint. -/
def ofDocument? (d : Document) : Option Constraint := do
  match ← d.fields? ["type", "value", "is_absolute"] with
  | [kind, value, absolute] =>
      return { kind := ← orDefault "" Document.text? kind
               value := ← orDefault "" Document.text? value
               absolute := ← orDefault true Document.bool? absolute }
  | _ => none

/-- The value of a constraint. -/
def toJson (c : Constraint) : Json :=
  .object [("type", .string c.kind), ("value", .string c.value), ("is_absolute", .bool c.absolute)]

end Constraint

namespace StrategySpec

/-- Decodes a description.  The indicators lie below two levels of nesting. -/
def ofDocument? (d : Document) : Option (StrategySpec Float) := do
  match ← d.fields? ["strategy_name", "indicators", "entry_rules", "exit_rules", "constraints"] with
  | [name, indicators, entryRules, exitRules, constraints] =>
      return { name := ← orDefault unnamedStrategy Document.text? name
               indicators := ←
                 orDefault [] (Document.list? (IndicatorSpec.ofDocument? (deepestNesting - 2)))
                   indicators
               entryRules := ← orDefault [] (Document.list? EntryRule.ofDocument?) entryRules
               exitRules := ← orDefault [] (Document.list? ExitRule.ofDocument?) exitRules
               constraints := ← orDefault [] (Document.list? Constraint.ofDocument?) constraints }
  | _ => none

/-- Decodes a text. -/
def ofText? (text : String) : Option (StrategySpec Float) := do
  let d ← Document.ofText? text
  ofDocument? d

/-- The value of a description. -/
def toJson (s : StrategySpec Float) : Json :=
  .object [("strategy_name", .string s.name),
    ("indicators", .array (s.indicators.map IndicatorSpec.toJson)),
    ("entry_rules", .array (s.entryRules.map EntryRule.toJson)),
    ("exit_rules", .array (s.exitRules.map ExitRule.toJson)),
    ("constraints", .array (s.constraints.map Constraint.toJson))]

end StrategySpec

end Backtester
