import Backtester.Settings
import Backtester.Run

/-!
# Ranges of settings and candles

* `Settings.check` — the settings of a run lie in their ranges.
* `Settings.runConfig` — the configuration that settings make, with defaults for missing ones.
* `checkCandles` — candles are there, their times ascend strictly, and their values are finite and
  not negative.
-/

namespace Backtester

/-- Why settings make no configuration. -/
inductive SettingsProblem where
  /-- A required text is missing or blank. -/
  | missing (key : String)
  /-- The initial capital is too small. -/
  | smallCapital
  /-- The period of the fast average is out of range. -/
  | fastRange
  /-- The period of the slow average is out of range. -/
  | slowRange
  /-- The fast average is not faster than the slow one. -/
  | notFaster
  /-- The risk-free rate is out of range. -/
  | rateRange
  /-- A period is negative. -/
  | negativePeriod (key : String)
deriving DecidableEq

/-- The section of a run's settings. -/
def runSection : String := "backtest"

/-- The problem in words. -/
def SettingsProblem.message : SettingsProblem → String
  | missing key => "missing config key [" ++ runSection ++ "] " ++ key
  | smallCapital => invalid "initial_capital" "initial_capital must be at least 100"
  | fastRange => invalid "sma_fast" "sma_fast must be between 2 and 50"
  | slowRange => invalid "sma_slow" "sma_slow must be between 10 and 200"
  | notFaster => invalid "sma_fast" "sma_fast must be less than sma_slow"
  | rateRange => invalid "risk_free_rate" "risk_free_rate must be between 0 and 1"
  | negativePeriod key => invalid key (key ++ " must be positive")
where
  /-- A setting with a reason why its value is refused. -/
  invalid (key reason : String) : String :=
    "invalid config value [" ++ runSection ++ "] " ++ key ++ ": " ++ reason

/-- The period of the fast average without a setting for it. -/
def defaultFast : Nat := 10

/-- The period of the slow average without a setting for it. -/
def defaultSlow : Nat := 30

/-- The initial capital without a setting for it. -/
def defaultCapital : Float := 10000

namespace Settings

/-- A text that must be there. -/
def requiredText (s : Settings) (key : String) : Except SettingsProblem String :=
  match s.text? runSection key with
  | some text => .ok text
  | none => .error (.missing key)

/-- The settings of a run lie in their ranges.  A missing number counts as zero. -/
def check (s : Settings) : Except SettingsProblem Unit := do
  let _ ← s.requiredText "symbol"
  let _ ← s.requiredText "timeframe"
  if s.numberOr runSection "initial_capital" 0 < 100 then throw .smallCapital
  let fast := s.integerOr runSection "sma_fast" 0
  let slow := s.integerOr runSection "sma_slow" 0
  if ¬(2 ≤ fast ∧ fast ≤ 50) then throw .fastRange
  if ¬(10 ≤ slow ∧ slow ≤ 200) then throw .slowRange
  if slow ≤ fast then throw .notFaster
  let rate := s.numberOr runSection "risk_free_rate" 0
  if ¬(0 ≤ rate ∧ rate < 1) then throw .rateRange

/-- A period, which may not be negative. -/
def period (s : Settings) (key : String) (default : Nat) : Except SettingsProblem Nat :=
  let value := s.integerOr runSection key default
  if value < 0 then .error (.negativePeriod key) else .ok value.toNat

/-- The period of the fast average. -/
def fastPeriod (s : Settings) : Except SettingsProblem Nat := s.period "sma_fast" defaultFast

/-- The period of the slow average. -/
def slowPeriod (s : Settings) : Except SettingsProblem Nat := s.period "sma_slow" defaultSlow

/-- The configuration that settings make. -/
def runConfig (s : Settings) : Except SettingsProblem (RunConfig Float) := do
  let symbol ← s.requiredText "symbol"
  let timeframe ← s.requiredText "timeframe"
  let fast ← s.fastPeriod
  let slow ← s.slowPeriod
  return { symbol := symbol
           timeframe := timeframe
           capital := s.numberOr runSection "initial_capital" defaultCapital
           fast := fast
           slow := slow
           riskFree := s.numberOr runSection "risk_free_rate" 0 }

end Settings

/-- Why candles cannot be used. -/
inductive CandleProblem where
  /-- There are none. -/
  | noCandles
  /-- A value is negative or not finite. -/
  | badValue (name : String) (value : Float)
  /-- A time is not after the one before it. -/
  | notAfter (time previous : Int)
deriving DecidableEq

/-- The problem in words. -/
def CandleProblem.message : CandleProblem → String
  | noCandles => "no candles"
  | badValue name value =>
      name ++ " must be a non-negative number, got " ++ NumberStyle.display.write value
  | notAfter time previous => "time " ++ intText time ++ " does not follow " ++ intText previous

/-- What is wrong with a candle after the time of the one before it. -/
def Candle.problem? (previous : Option Int) (c : Candle Float) : Option CandleProblem :=
  match c.fields.find? fun field => !field.2.isFinite || decide (field.2 < 0) with
  | some (name, value) => some (.badValue name value)
  | none =>
      match previous with
      | some time => if c.time ≤ time then some (.notAfter c.time time) else none
      | none => none

/-- The first problem of candles in rows from `row` on, after the time of the one before them. -/
def firstProblem : (row : Nat) → (previous : Option Int) → List (Candle Float) →
    Option (Nat × CandleProblem)
  | _, _, [] => none
  | row, previous, c :: rest =>
      match c.problem? previous with
      | some problem => some (row, problem)
      | none => firstProblem (row + 1) (some c.time) rest

/-- Candles can be used for a run; otherwise the row and the problem. -/
def checkCandles (candles : List (Candle Float)) : Except (Nat × CandleProblem) Unit :=
  if candles.isEmpty then .error (0, .noCandles)
  else
    match firstProblem 0 none candles with
    | some problem => .error problem
    | none => .ok ()

end Backtester
