import Backtester.Condition.Reading
import Backtester.Frame
import Backtester.Replay
import Backtester.Strategy

/-!
# Compiled strategies

A compiled strategy is ready to run: the indicators to compute, the conditions for entry and exit,
all of which must hold, and the risk settings.  Compiling a description never fails.

* `resolveColumn` — the column a name stands for: the one with that name, else the only one whose
  name goes on after it with an underscore.
* `compileRule` — the conditions of a rule with every column resolved, or nothing if a part of it
  has no meaning.
* `Strategy.compile` — a rule without meaning is left out; a side whose rules all lack meaning falls
  back to the crossover of the two simple averages.
* `Strategy.crossover` — the strategy of that crossover alone.
-/

namespace Backtester

/-- A strategy ready to run. -/
structure Strategy (α : Type) where
  /-- The name. -/
  name : String
  /-- The indicators to compute. -/
  indicators : List Indicator
  /-- The conditions for opening, all of which must hold. -/
  entry : List (Condition α)
  /-- The conditions for closing, all of which must hold. -/
  exit : List (Condition α)
  /-- The direction and the risk limits. -/
  risk : Risk α
  /-- No entry rule had a meaning. -/
  entryFallback : Bool
  /-- No exit rule had a meaning. -/
  exitFallback : Bool

/-- The column that a name stands for. -/
def resolveColumn (known : List String) (name : String) : Option String :=
  let name := lowered (trimmed name)
  if known.contains name then some name
  else
    match known.filter (fun column => (name ++ "_").toList.isPrefixOf column.toList) with
    | [only] => some only
    | _ => none

variable {α : Type} [Scalar α]

/-- An operand with its column resolved. -/
def resolveOperand (known : List String) : Operand α → Option (Operand α)
  | .column name => (resolveColumn known name).map .column
  | .literal value => some (.literal value)

/-- A condition with its columns resolved. -/
def resolveCondition (known : List String) (c : Condition α) : Option (Condition α) :=
  match resolveOperand known c.left, resolveOperand known c.right with
  | some left, some right => some ⟨left, c.comparator, right⟩
  | _, _ => none

/-- The conditions of a rule.  A lone comparator compares the indicator's column with the
threshold. -/
def compileRule (known : List String) (condition : String) (indicator : Option String)
    (threshold : Option α) : Option (List (Condition α)) :=
  match indicator.map (resolveColumn known) with
  -- A named indicator must have a column, even where the condition text does not use it.
  | some none => none
  | column =>
      match Comparator.ofToken? condition with
      | some comparator =>
          match column.join, threshold with
          | some column, some value => some [⟨.column column, comparator, .literal value⟩]
          | _, _ => none
      | none =>
          match Condition.ofText? condition with
          | .ok conditions => conditions.mapM (resolveCondition known)
          | .error _ => none

/-- The conditions of an entry rule. -/
def EntryRule.compile (known : List String) (r : EntryRule α) : Option (List (Condition α)) :=
  compileRule known r.condition r.indicator r.threshold

/-- The conditions of an exit rule. -/
def ExitRule.compile (known : List String) (r : ExitRule α) : Option (List (Condition α)) :=
  compileRule known r.condition r.indicator r.threshold

/-- The last positive value of a list, as a fraction instead of a percentage. -/
def lastPositiveFraction (percentages : List α) : Option α :=
  (percentages.filter (fun x => decide (0 < x))).getLast?.map (· / 100)

namespace Strategy

/-- The fast average crosses the slow one. -/
def crossoverCondition (fast slow : Nat) (comparator : Comparator) : Condition α :=
  .ofColumns ("sma_" ++ natText fast) comparator ("sma_" ++ natText slow)

/-- The conditions of one side, and whether they are the fallback: there are rules and none has a
meaning. -/
def sideConditions (compiled : List (Option (List (Condition α)))) (fallback : Condition α) :
    List (Condition α) × Bool :=
  let conditions := (compiled.filterMap id).flatten
  if !compiled.isEmpty && conditions.isEmpty then ([fallback], true) else (conditions, false)

/-- The strategy of the crossover of two simple averages: above enters, below exits. -/
def crossover (fast slow : Nat) : Strategy α :=
  { name := "SMA Crossover"
    indicators := [.sma fast, .sma slow]
    entry := [crossoverCondition fast slow .crossesAbove]
    exit := [crossoverCondition fast slow .crossesBelow]
    risk := ⟨.long, none, none, false⟩
    entryFallback := false
    exitFallback := false }

/-- The indicators of a description after the two averages of the crossover, which are always
computed. -/
def indicatorsOf (spec : StrategySpec α) (fast slow : Nat) : List Indicator :=
  .sma fast :: .sma slow :: spec.indicators.map IndicatorSpec.kind

/-- The columns of a frame with some indicators, each once. -/
def knownColumns (kinds : List Indicator) : List String :=
  (priceColumns ++ kinds.flatMap Indicator.columnNames).eraseDups

/-- The direction of the first rule with a meaning, else of the first rule, else long. -/
def directionOf (known : List String) (rules : List (EntryRule α)) : Direction :=
  match rules.find? (fun r => (r.compile known).isSome) <|> rules.head? with
  | some r => Direction.ofText r.direction
  | none => .long

/-- The stop as a fraction: from the last constraint that has one, else from the last exit rule. -/
def stopLossOf (spec : StrategySpec α) : Option α :=
  lastPositiveFraction (spec.constraints.filterMap Constraint.stopLossPercent) <|>
    lastPositiveFraction (spec.exitRules.filterMap ExitRule.stopLossPercent)

/-- Compiles a description for the two average periods of a run. -/
def compile (spec : StrategySpec α) (fast slow : Nat) : Strategy α :=
  let kinds := indicatorsOf spec fast slow
  let known := knownColumns kinds
  let entry :=
    sideConditions (spec.entryRules.map (EntryRule.compile known))
      (crossoverCondition fast slow .crossesAbove)
  let exit :=
    sideConditions (spec.exitRules.map (ExitRule.compile known))
      (crossoverCondition fast slow .crossesBelow)
  { name := spec.name
    indicators := kinds
    entry := entry.1
    exit := exit.1
    risk :=
      { direction := directionOf known spec.entryRules
        stopLoss := stopLossOf spec
        takeProfit := lastPositiveFraction (spec.exitRules.filterMap ExitRule.takeProfitPercent)
        trailing := spec.exitRules.any ExitRule.trailing }
    entryFallback := entry.2
    exitFallback := exit.2 }

/-- The strategy of a run: the compiled description, else the crossover. -/
def ofSpec (spec : Option (StrategySpec α)) (fast slow : Nat) : Strategy α :=
  match spec with
  | some spec => compile spec fast slow
  | none => crossover fast slow

/-- The columns that the conditions read, in ascending order, each once. -/
def referencedColumns (s : Strategy α) : List String :=
  (((s.entry ++ s.exit).flatMap Condition.columns).mergeSort (fun a b => decide (a ≤ b))).eraseDups

end Strategy

end Backtester
