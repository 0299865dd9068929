import Backtester.Command.Arguments
import Backtester.Command.Host
import Backtester.Command.Summary
import Backtester.Failure
import Backtester.Report
import Backtester.Strategy.Document
import Backtester.Table.Indicators

/-!
# Executing commands

A command goes through its stages in order and ends at the first that fails.  A backtest reads and
checks its settings, reads the strategy, reads the candles and checks them, and only then runs and
writes a report.  An overflow of the run is no failure of a stage: the command ends there, without a
report and without an exit code of its own.

* `checkConditions` — every condition text of a strategy can be read.
* `Command.perform` — the stages of a command.
* `Command.execute` — performs a command, shows a failure and gives the exit code.
-/

namespace Backtester

/-- A condition text that has to be readable: not blank, and more than a lone comparator. -/
def needsReading (text : String) : Bool :=
  !(trimmed text).isEmpty && (Comparator.ofToken? text).isNone

/-- The first condition text that cannot be read, with its problem. -/
def firstBadText : List String → Option (String × TextProblem)
  | [] => none
  | text :: rest =>
      if needsReading text then
        match (Condition.ofText? text : Except TextProblem (List (Condition Float))) with
        | .error problem => some (text, problem)
        | .ok _ => firstBadText rest
      else firstBadText rest

/-- The condition texts of a strategy, those of entry rules first. -/
def StrategySpec.conditionTexts {α : Type} (spec : StrategySpec α) : List String :=
  spec.entryRules.map EntryRule.condition ++ spec.exitRules.map ExitRule.condition

/-- The first condition text of a strategy that cannot be read, with its problem. -/
def StrategySpec.badText? {α : Type} (spec : StrategySpec α) : Option (String × TextProblem) :=
  firstBadText spec.conditionTexts

namespace Command

/-- The settings that a file text makes. -/
def settingsOfText (path text : String) : Except Failure Settings :=
  match IniFile.ofText? text with
  | .ok file => .ok file.settings
  | .error problem => .error (.malformedSettings path problem)

/-- The strategy that a file text describes. -/
def strategyOfText (text : String) : Except Failure (StrategySpec Float) :=
  match StrategySpec.ofText? text with
  | some spec => .ok spec
  | none => .error .malformedStrategy

/-- The candles of a table text. -/
def candlesOfText (text : String) : Except Failure (List (Candle Float)) :=
  match readCandles text with
  | .ok candles => .ok candles
  | .error problem => .error (.badTable problem)

/-- Why the text of a candle table cannot be had: a folder in its place counts as a malformed
table, and so do bytes that are no text. -/
def tableFailure (path : String) : FileProblem → Failure
  | .folder => .badTable (.malformed 1)
  | .notText => .badTable (.malformed 1)
  | problem => .unreadableTable path problem

/-- The configuration of a run. -/
def configOf (settings : Settings) : Except Failure (RunConfig Float) :=
  match settings.check with
  | .error problem => .error (.badSettings problem)
  | .ok () =>
      match settings.runConfig with
      | .error problem => .error (.badSettings problem)
      | .ok config => .ok config

/-- The periods of the two averages of a run. -/
def periodsOf (settings : Settings) : Except Failure (Nat × Nat) :=
  match settings.fastPeriod, settings.slowPeriod with
  | .error problem, _ => .error (.badSettings problem)
  | .ok _, .error problem => .error (.badSettings problem)
  | .ok fast, .ok slow => .ok (fast, slow)

/-- The candles if they can be used. -/
def usable (candles : List (Candle Float)) : Except Failure (List (Candle Float)) :=
  match checkCandles candles with
  | .error (row, problem) => .error (.badCandles row problem)
  | .ok () => .ok candles

/-- The place of the candle table of a run. -/
def tablePath (settings : Settings) (config : RunConfig Float) (candles : Option String) : String :=
  candles.getD (candlePath (settings.textOr "data" "path" ".") config.symbol config.timeframe)

/-- The place of the report of a run; `-` is the output. -/
def reportPath (settings : Settings) (output : Option String) : String :=
  output.getD (settings.textOr "report" "output" "-")

variable {m : Type → Type} [Monad m] [Host m]

/-- An action on a file, with the failure that its problem causes. -/
def attempt {β : Type} (failure : FileProblem → Failure) (action : m (Except FileProblem β)) :
    ExceptT Failure m β :=
  ExceptT.mk do
    match ← action with
    | .ok value => return .ok value
    | .error problem => return .error (failure problem)

/-- A value that may be a failure. -/
def orFail {β : Type} (value : Except Failure β) : ExceptT Failure m β := ExceptT.mk (pure value)

/-- Shows lines on the console. -/
def showLines (lines : List String) : ExceptT Failure m Unit :=
  lines.forM fun line => ExceptT.lift (Host.showLine line)

/-- Reads a settings file. -/
def loadSettings (path : String) : ExceptT Failure m Settings := do
  let text ← attempt (.unreadableSettings path) (Host.readText path)
  orFail (settingsOfText path text)

/-- Reads a strategy file. -/
def loadStrategy (path : String) : ExceptT Failure m (StrategySpec Float) := do
  let text ← attempt (.unreadableStrategy path) (Host.readText path)
  orFail (strategyOfText text)

/-- Reads the strategy file of a run, if it has one. -/
def loadOptionalStrategy : Option String → ExceptT Failure m (Option (StrategySpec Float))
  | none => return none
  | some path => do
      showLines ["Loading strategy from " ++ path]
      let spec ← loadStrategy path
      return some spec

/-- Reads a candle table. -/
def readTable (path : String) : ExceptT Failure m (List (Candle Float)) := do
  let text ← attempt (tableFailure path) (Host.readText path)
  orFail (candlesOfText text)

/-- Reads a candle table whose candles can be used. -/
def loadCandles (path : String) : ExceptT Failure m (List (Candle Float)) := do
  let candles ← readTable path
  orFail (usable candles)

/-- Writes a report to its place. -/
def writeReport (path text : String) : ExceptT Failure m Unit := do
  if path = "-" then ExceptT.lift (Host.putOut (text ++ "\n"))
  else
    let folder := FileTree.folderPath path
    if !folder.isEmpty then
      attempt (.unmadeFolder folder) (Host.createFolder folder)
    attempt (.unwrittenReport path) (Host.writeText path text)
    showLines ["", "Report written to: " ++ path]

/-- Runs a strategy over candles and reports the result, unless the run ends in an overflow. -/
def performBacktest (configPath : String) (strategyPath candlesPath output : Option String) :
    ExceptT Failure m (Except Overflow Unit) := do
  showLines ["Loading config from " ++ configPath]
  let settings ← loadSettings configPath
  let config ← orFail (configOf settings)
  let spec ← loadOptionalStrategy strategyPath
  let table := tablePath settings config candlesPath
  showLines ["Loading candles from " ++ table]
  let candles ← loadCandles table
  -- Nothing has been written up to here, and no failure is left after the run but in the writing.
  match Backtester.backtest candles config spec with
  | .error overflow => return .error overflow
  | .ok result =>
      showLines result.summary
      writeReport (reportPath settings output) result.report
      return .ok ()

/-- The periods of the two averages from a settings file, if there is one. -/
def loadPeriods : Option String → ExceptT Failure m (Nat × Nat)
  | none => return (defaultFast, defaultSlow)
  | some path => do
      let settings ← loadSettings path
      orFail (periodsOf settings)

/-- Every condition text of a strategy can be read; one that cannot is shown. -/
def checkConditions (spec : StrategySpec Float) : ExceptT Failure m Unit := do
  match spec.badText? with
  | none => return ()
  | some (text, problem) =>
      showLines ["  error:", problem.withContext text]
      throw (.badCondition problem)

/-- Compiles a strategy and shows it. -/
def performValidate (strategyPath : String) (configPath : Option String) : ExceptT Failure m Unit := do
  showLines ["Validating strategy: " ++ strategyPath]
  let spec ← loadStrategy strategyPath
  let (fast, slow) ← loadPeriods configPath
  checkConditions spec
  showLines (Strategy.compile spec fast slow).description
  showLines ["", "Strategy is valid"]

/-- Computes one indicator over candles. -/
def performIndicator (candlesPath name : String) (period : Option Nat) : ExceptT Failure m Unit := do
  let candles ← loadCandles candlesPath
  let kind := IndicatorSpec.kind { name := name, period := period, params := [] }
  ExceptT.lift (Host.putOut (indicatorTable candles kind))

/-- The stages of a command.  Only a backtest can end in an overflow. -/
def perform : Command → ExceptT Failure m (Except Overflow Unit)
  | backtest config strategy candles output => performBacktest config strategy candles output
  | validate strategy config => Except.ok <$> performValidate strategy config
  | indicator candles name period => Except.ok <$> performIndicator candles name period

/-- Performs a command, shows a failure and gives the exit code, unless the command ends in an
overflow. -/
def execute (command : Command) : m (Except Overflow Nat) := do
  match ← (command.perform : ExceptT Failure m (Except Overflow Unit)).run with
  | .ok (.ok ()) => return .ok 0
  | .ok (.error overflow) => return .error overflow
  | .error failure =>
      Host.showLine ("error: " ++ failure.message)
      return .ok failure.exitCode

end Command

end Backtester
