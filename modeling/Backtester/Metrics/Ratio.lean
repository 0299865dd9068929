import Backtester.Scalar

/-!
# Ratios

Markets are taken to be open every day, so a year has 365 periods.

* `sharpeRatio` — mean excess return over its standard deviation, for a year.
* `sortinoRatio` — mean excess return over the deviation of the negative excess returns, for a year.
* `profitFactor` — gross profit over gross loss.
* `winRate` — the percentage of winning trades.

A ratio that is undefined or not finite is zero.  Without a negative excess return the Sortino ratio
is a fixed cap if the mean is positive, and without a loss the profit factor is the gross profit.
-/

namespace Backtester

variable {α : Type} [Scalar α]

/-- The periods of a year. -/
def periodsPerYear : α := 365

/-- The Sortino ratio of a profitable series without a negative excess return. -/
def sortinoCap : α := 10

/-- The returns less the risk-free return of one period. -/
def excessReturns (returns : List α) (riskFree : α) : List α :=
  let daily := riskFree / periodsPerYear
  returns.map (· - daily)

/-- The sample standard deviation of at least two values. -/
def sampleDeviation (values : List α) : α :=
  let mean := Scalar.mean values
  let squares := values.map fun x => (x - mean) * (x - mean)
  Scalar.sqrt (Scalar.sum squares / Scalar.ofNat (values.length - 1))

/-- A value over a deviation, for a year; zero when the deviation is zero or a part is not
finite. -/
def annualRatio (mean deviation : α) : α :=
  if deviation == 0 || !Scalar.isFinite deviation then 0
  else
    let ratio := mean / deviation * Scalar.sqrt periodsPerYear
    if Scalar.isFinite ratio then ratio else 0

/-- The yearly Sharpe ratio; zero for fewer than two returns. -/
def sharpeRatio (returns : List α) (riskFree : α) : α :=
  if returns.length < 2 then 0
  else
    let excess := excessReturns returns riskFree
    annualRatio (Scalar.mean excess) (sampleDeviation excess)

/-- The yearly Sortino ratio; zero without returns. -/
def sortinoRatio (returns : List α) (riskFree : α) : α :=
  if returns.isEmpty then 0
  else
    let excess := excessReturns returns riskFree
    let mean := Scalar.mean excess
    let downside := excess.filter (fun r => decide (r < 0))
    if downside.isEmpty then if 0 < mean then sortinoCap else 0
    else annualRatio mean (Scalar.sqrt (Scalar.mean (downside.map fun d => d * d)))

/-- Gross profit over gross loss; without a loss the gross profit itself. -/
def profitFactor (grossProfit grossLoss : α) : α :=
  if grossLoss == 0 then if 0 < grossProfit then grossProfit else 0
  else Scalar.magnitude (grossProfit / grossLoss)

/-- The percentage of winning trades; zero without trades. -/
def winRate (winning total : Nat) : α :=
  if total = 0 then 0 else Scalar.ofNat winning / Scalar.ofNat total * 100

end Backtester
