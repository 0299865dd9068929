import Backtester.Scalar

/-!
# Window computations

Indicators are functions of the close series.  Each result has one value per row, and the value at a
row is computed from the rows up to it; rows whose window is not full yet hold not-a-number.

* `simpleAverage`, `standardDeviation` — over the window of the last `period` rows.
* `exponentialAverage` — seeded with the first value.
* `relativeStrength` — from the mean rise and the mean fall over the last `period` changes.
-/

namespace Backtester

variable {α : Type} [Scalar α]

/-- The `size` values that end at row `i`. -/
def window (xs : List α) (size i : Nat) : List α := (xs.drop (i + 1 - size)).take size

/-- A series of the same length that holds not-a-number throughout. -/
def undefinedSeries (xs : List α) : List α := List.replicate xs.length Scalar.nan

/-- The mean of each window. -/
def simpleAverage (xs : List α) (period : Nat) : List α :=
  if period = 0 then undefinedSeries xs
  else
    (List.range xs.length).map fun i =>
      if i + 1 < period then Scalar.nan else Scalar.sum (window xs period i) / Scalar.ofNat period

/-- The sample standard deviation of a full window. -/
def windowDeviation (values : List α) (period : Nat) : α :=
  let mean := Scalar.sum values / Scalar.ofNat period
  let squares := values.map fun x => (x - mean) * (x - mean)
  Scalar.sqrt (Scalar.sum squares / Scalar.ofNat (period - 1))

/-- The sample standard deviation of each window; a window of fewer than two rows has none. -/
def standardDeviation (xs : List α) (period : Nat) : List α :=
  if period < 2 then undefinedSeries xs
  else
    (List.range xs.length).map fun i =>
      if i + 1 < period then Scalar.nan else windowDeviation (window xs period i) period

/-- Continues an exponential average with weight `k` from the value `last`. -/
def averageFrom (k : α) : (last : α) → List α → List α
  | _, [] => []
  | last, x :: rest =>
      let next := x * k + last * (1 - k)
      next :: averageFrom k next rest

/-- The exponential average with weight `2 / (period + 1)`, seeded with the first value. -/
def exponentialAverage (xs : List α) (period : Nat) : List α :=
  if period = 0 then undefinedSeries xs
  else
    match xs with
    | [] => []
    | first :: rest => first :: averageFrom (2 / (Scalar.ofNat period + 1)) first rest

/-- The changes from each row to the next. -/
def changes (xs : List α) : List α := List.zipWith (fun previous x => x - previous) xs xs.tail

/-- The part of a change that is a rise. -/
def rise (change : α) : α := if 0 < change then change else 0

/-- The part of a change that is a fall, as a magnitude. -/
def fall (change : α) : α := if change < 0 then -change else 0

/-- The relative strength from a mean rise and a mean fall; 100 when nothing falls. -/
def strengthIndex (meanRise meanFall : α) : α :=
  if meanFall == 0 then 100 else 100 - 100 / (1 + meanRise / meanFall)

/-- The relative strength at each row with `period` changes before it.  The first row has no change
and counts as one of zero, but no window reaches it. -/
def relativeStrength (xs : List α) (period : Nat) : List α :=
  if period = 0 ∨ xs.length ≤ period then undefinedSeries xs
  else
    let rises := 0 :: (changes xs).map rise
    let falls := 0 :: (changes xs).map fall
    (List.range xs.length).map fun i =>
      if i < period then Scalar.nan
      else
        strengthIndex (Scalar.sum (window rises period i) / Scalar.ofNat period)
          (Scalar.sum (window falls period i) / Scalar.ofNat period)

end Backtester
