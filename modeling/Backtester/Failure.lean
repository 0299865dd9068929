import Backtester.Condition.Problem
import Backtester.Files
import Backtester.Settings.Ini
import Backtester.Settings.Range
import Backtester.Table.Candles

/-!
# Failures

A command ends with one failure at most.

* `Failure` — the causes.
* `Failure.message` — a failure in words.
* `Failure.exitCode` — the exit code of a process that ends with it: 1 for a report, 2 for settings,
  3 for a candle table, 4 for a strategy and 5 for candles that cannot be used.
-/

namespace Backtester

/-- Why a command cannot go on. -/
inductive Failure where
  /-- A settings file cannot be read. -/
  | unreadableSettings (path : String) (problem : FileProblem)
  /-- A settings file is malformed. -/
  | malformedSettings (path : String) (problem : IniProblem)
  /-- A settings text that comes from no file is malformed. -/
  | malformedSettingsText (problem : IniProblem)
  /-- The settings make no configuration. -/
  | badSettings (problem : SettingsProblem)
  /-- A strategy file cannot be read. -/
  | unreadableStrategy (path : String) (problem : FileProblem)
  /-- A strategy text describes no strategy. -/
  | malformedStrategy
  /-- A condition of a strategy cannot be read. -/
  | badCondition (problem : TextProblem)
  /-- A candle table cannot be opened. -/
  | unreadableTable (path : String) (problem : FileProblem)
  /-- A candle table is malformed. -/
  | badTable (problem : TableProblem)
  /-- The candles cannot be used. -/
  | badCandles (row : Nat) (problem : CandleProblem)
  /-- The folder of a report cannot be made. -/
  | unmadeFolder (path : String) (problem : FileProblem)
  /-- A report cannot be written. -/
  | unwrittenReport (path : String) (problem : FileProblem)
deriving DecidableEq

namespace Failure

/-- A settings source that cannot be used, with the reason. -/
def settingsText (source reason : String) : String :=
  "config parse error in " ++ source ++ ": " ++ reason

/-- A settings file that cannot be used, with the reason. -/
def settingsFileText (path reason : String) : String :=
  settingsText path ("couldn't read " ++ path ++ ": " ++ reason)

/-- The failure in words. -/
def message : Failure → String
  | unreadableSettings path problem => settingsFileText path problem.message
  | malformedSettings path problem => settingsFileText path problem.message
  | malformedSettingsText problem => settingsText "<string>" problem.message
  | badSettings problem => problem.message
  | unreadableStrategy path problem =>
      "invalid strategy spec: failed to read " ++ path ++ ": " ++ problem.message
  | malformedStrategy => "invalid strategy spec: the text does not describe a strategy"
  | badCondition problem => problem.display
  | unreadableTable path problem => "data error: failed to read " ++ path ++ ": " ++ problem.message
  | badTable (.malformed record) =>
      "data error: CSV parse error: record " ++ natText record ++ " does not hold a candle"
  | badTable (.badTime text record) =>
      "data error: invalid time '" ++ text ++ "' on data row " ++ natText record
  | badCandles row problem =>
      "invalid candles at row " ++ natText row ++ ": " ++ problem.message
  | unmadeFolder path problem => "report error: failed to create " ++ path ++ ": " ++ problem.message
  | unwrittenReport path problem =>
      "report error: failed to write " ++ path ++ ": " ++ problem.message

/-- The exit code of a process that ends with the failure. -/
def exitCode : Failure → Nat
  | unreadableSettings .. => 2
  | malformedSettings .. => 2
  | malformedSettingsText .. => 2
  | badSettings .. => 2
  | unreadableStrategy .. => 4
  | malformedStrategy => 4
  | badCondition .. => 4
  | unreadableTable .. => 3
  | badTable .. => 3
  | badCandles .. => 5
  | unmadeFolder .. => 1
  | unwrittenReport .. => 1

end Failure

end Backtester
