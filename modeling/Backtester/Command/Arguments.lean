import Backtester.Number.Reading

/-!
# Command lines

A command line names one of three commands and gives it options.  An option has a long name, and
most have a letter too; the value follows as an argument of its own or stands in the same argument:
`--output out.json`, `--output=out.json`, `-o out.json`, `-oout.json`, `-o=out.json`.

* `Command` — the commands with their options.
* `readOptions` — the options of a command line with their values.
* `Command.ofArguments?` — the command of a whole command line.
-/

namespace Backtester

/-- What to do. -/
inductive Command where
  /-- Runs a strategy over candles and reports the result. -/
  | backtest (config : String) (strategy candles output : Option String)
  /-- Compiles a strategy and shows it. -/
  | validate (strategy : String) (config : Option String)
  /-- Computes one indicator over candles. -/
  | indicator (candles name : String) (period : Option Nat)
deriving DecidableEq

/-- The names of an option. -/
structure OptionName where
  /-- The name after two hyphens. -/
  long : String
  /-- The letter after one hyphen. -/
  letter : Option Char
deriving DecidableEq

/-- Splits a text at the first equals sign. -/
def splitAtEquals (text : List Char) : String × Option String :=
  let name := String.ofList (text.takeWhile (· != '='))
  match text.dropWhile (· != '=') with
  | [] => (name, none)
  | _ :: value => (name, some (String.ofList value))

/-- The value that stands in the same argument as an option's letter. -/
def attachedValue : List Char → Option String
  | [] => none
  | '=' :: value => some (String.ofList value)
  | value => some (String.ofList value)

/-- The long name of the option an argument starts, and the value in the same argument. -/
def readOption (known : List OptionName) : List Char → Option (String × Option String)
  | '-' :: '-' :: text =>
      let (name, value) := splitAtEquals text
      (known.find? fun o => o.long == name).map fun o => (o.long, value)
  | '-' :: letter :: text =>
      (known.find? fun o => o.letter == some letter).map fun o => (o.long, attachedValue text)
  | _ => none

/-- An argument that can be the value of the option before it: one that starts no option. -/
def canBeValue (argument : String) : Bool :=
  argument == "-" || argument.toList.head? != some '-'

/-- The options of a command line with their values.  Two hyphens may end it. -/
def readOptions (known : List OptionName) : List String → Option (List (String × String))
  | [] => some []
  | argument :: rest =>
      if argument = "--" ∧ rest = [] then some []
      else
        match readOption known argument.toList with
        | none => none
        | some (name, some value) => (readOptions known rest).map ((name, value) :: ·)
        | some (name, none) =>
            match rest with
            | [] => none
            | value :: rest =>
                if canBeValue value then (readOptions known rest).map ((name, value) :: ·) else none

/-- The values of an option that may be given once at most. -/
def optionValue? (name : String) (options : List (String × String)) : Option (Option String) :=
  match options.filter fun o => o.1 == name with
  | [] => some none
  | [o] => some (some o.2)
  | _ => none

/-- The value of an option that is a path and so not empty. -/
def optionPath? (name : String) (options : List (String × String)) : Option (Option String) :=
  match optionValue? name options with
  | some (some path) => if path.isEmpty then none else some (some path)
  | other => other

/-- The value of an option that is a natural number. -/
def optionNatural? (name : String) (options : List (String × String)) : Option (Option Nat) :=
  match optionValue? name options with
  | some (some text) => (readNatural text.toList).map some
  | some none => some none
  | none => none

namespace Command

/-- The option for a settings file. -/
def configOption : OptionName := ⟨"config", some 'c'⟩

/-- The option for a strategy file. -/
def strategyOption : OptionName := ⟨"strategy", some 's'⟩

/-- The option for a candle table. -/
def candlesOption : OptionName := ⟨"candles", none⟩

/-- The option for the place of the report. -/
def outputOption : OptionName := ⟨"output", some 'o'⟩

/-- The option for the name of an indicator. -/
def nameOption : OptionName := ⟨"name", some 'n'⟩

/-- The option for a period. -/
def periodOption : OptionName := ⟨"period", some 'p'⟩

/-- The command to run a strategy. -/
def backtestOfArguments? (arguments : List String) : Option Command := do
  let options ← readOptions [configOption, strategyOption, candlesOption, outputOption] arguments
  let config ← (← optionPath? "config" options)
  let strategy ← optionPath? "strategy" options
  let candles ← optionPath? "candles" options
  let output ← optionValue? "output" options
  return backtest config strategy candles output

/-- The command to show a strategy. -/
def validateOfArguments? (arguments : List String) : Option Command := do
  let options ← readOptions [strategyOption, configOption] arguments
  let strategy ← (← optionPath? "strategy" options)
  let config ← optionPath? "config" options
  return validate strategy config

/-- The command to compute an indicator. -/
def indicatorOfArguments? (arguments : List String) : Option Command := do
  let options ← readOptions [candlesOption, nameOption, periodOption] arguments
  let candles ← (← optionPath? "candles" options)
  let name ← (← optionValue? "name" options)
  let period ← optionNatural? "period" options
  return indicator candles name period

/-- The command of a command line. -/
def ofArguments? : List String → Option Command
  | "backtest" :: arguments => backtestOfArguments? arguments
  | "validate" :: arguments => validateOfArguments? arguments
  | "indicator" :: arguments => indicatorOfArguments? arguments
  | _ => none

end Command

end Backtester
