import Backtester.Number.Binary64

/-!
# The fewest digits that read back

A positive double `m · 2 ^ q` stands for all the reals that round to it.  Its shortest decimal is
the one with the fewest significant digits among those reals, and of several such the one nearest to
the double.

* `Span` — a double with the interval of reals that round to it, as fractions over one unit.
* `Span.nearestOnGrid` — the multiple of `10 ^ k` in the interval that lies nearest to the double.
* `shortest` — the first grid, from coarse to fine, that has such a multiple.

The interval contains the double itself, so a grid that meets it has one of the double's two
neighbours on that grid in it, and seventeen digits always suffice.
-/

namespace Backtester

/-- Which of two equally near decimals is written. -/
inductive Tie where
  /-- The larger one. -/
  | up
  /-- The one whose last digit is even. -/
  | toEven
deriving DecidableEq

/-- The interval of reals that round to a double.  Every part is a count of `1 / unit`. -/
structure Span where
  /-- The lower end. -/
  low : Nat
  /-- The double itself. -/
  value : Nat
  /-- The upper end. -/
  high : Nat
  /-- The common denominator. -/
  unit : Nat
  /-- The ends belong to the interval. -/
  closed : Bool

namespace Span

/-- The reals that round to `m · 2 ^ q`: half a step on either side, a quarter step below where the
steps get finer.  The ends round to an even `m` only. -/
def ofDouble (m : Nat) (q : Int) : Span :=
  let scale := twoTo q.toNat
  let below := if m = twoTo 52 ∧ -1074 < q then 1 else 2
  { low := (4 * m - below) * scale
    value := 4 * m * scale
    high := (4 * m + 2) * scale
    unit := 4 * twoTo (-q).toNat
    closed := m % 2 == 0 }

/-- The exponent of the first significant digit. -/
def leadingExponent (s : Span) : Int :=
  if s.unit ≤ s.value then (Binary64.digitCount (s.value / s.unit) : Int) - 1
  else -(Binary64.digitCount ((s.unit - 1) / s.value) : Int)

/-- The decimal `d · 10 ^ k` lies in the interval. -/
def holds (s : Span) (k : Int) (d : Nat) : Bool :=
  let point := d * tenTo k.toNat * s.unit
  let scale := tenTo (-k).toNat
  if s.closed then decide (s.low * scale ≤ point) && decide (point ≤ s.high * scale)
  else decide (s.low * scale < point) && decide (point < s.high * scale)

/-- The `d` for which `d · 10 ^ k` lies in the interval, nearest to the double. -/
def nearestOnGrid (tie : Tie) (s : Span) (k : Int) : Option Nat :=
  let target := s.value * tenTo (-k).toNat
  let step := tenTo k.toNat * s.unit
  -- Only the two points of the grid around the double can be nearest to it.
  let d := target / step
  match s.holds k d, s.holds k (d + 1) with
  | false, false => none
  | true, false => some d
  | false, true => some (d + 1)
  | true, true =>
      match compare (2 * target) ((2 * d + 1) * step) with
      | .lt => some d
      | .gt => some (d + 1)
      | .eq =>
          match tie with
          | .up => some (d + 1)
          | .toEven => if d % 2 = 0 then some d else some (d + 1)

/-- Tries the grid `10 ^ k` and then finer ones, `more` of them at most. -/
def search (tie : Tie) (s : Span) : (more : Nat) → (k : Int) → Nat × Int
  | 0, k => ((s.nearestOnGrid tie k).getD 0, k)
  | more + 1, k =>
      match s.nearestOnGrid tie k with
      | some d => (d, k)
      | none => search tie s more (k - 1)

end Span

/-- The shortest decimal `d · 10 ^ k` of the positive double `m · 2 ^ q`, as the pair of `d` and
`k`. -/
def shortest (tie : Tie) (m : Nat) (q : Int) : Nat × Int :=
  let s := Span.ofDouble m q
  s.search tie 16 s.leadingExponent

end Backtester
