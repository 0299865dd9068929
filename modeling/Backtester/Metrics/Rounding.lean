import Backtester.Scalar

/-!
# Rounding to decimal places

Reported figures are rounded to a number of decimal places by scaling, rounding to a whole number
and scaling back.  A result that is zero is positive zero.
-/

namespace Backtester

/-- Rounds to `places` decimal places, a half going away from zero. -/
def roundTo {α : Type} [Scalar α] (x : α) (places : Int) : α :=
  let factor : α := Scalar.powerOfTen places
  let rounded := Scalar.roundWhole (x * factor) / factor
  if rounded == 0 then 0 else rounded

/-- The places that the profit of a trade is reported and classified at. -/
def profitPlaces : Int := 4

/-- The places of amounts and percentages. -/
def amountPlaces : Int := 2

/-- The places of ratios. -/
def ratioPlaces : Int := 4

end Backtester
