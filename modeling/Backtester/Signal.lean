import Backtester.Condition
import Backtester.Frame
import Backtester.Number.Reading

/-!
# Signals

A condition holds or fails at each row of a frame.

* A comparison with not-a-number fails.
* `==` holds when the operands are less than `10 ^ -9` apart.
* A crossing looks at the row before and fails at the first row.
* A column that the frame lacks is read as the number its name writes, else as not-a-number.

`Frame.holds` evaluates one condition, `Frame.allHold` the conjunction of several; no condition at
all never holds.
-/

namespace Backtester

variable {α : Type} [Scalar α]

/-- The distance below which two values count as equal. -/
def equalityDistance : α := Scalar.ofDecimal false 1 (-9)

/-- Each value together with the one before it. -/
def withPrevious {β : Type} (rows : List β) : List (Option β × β) :=
  (none :: rows.map some).zip rows

/-- A comparator on the values of one row and of the row before. -/
def Comparator.holds (comparator : Comparator) (previous : Option (α × α)) (row : α × α) : Bool :=
  match comparator, previous with
  | .gt, _ => decide (row.2 < row.1)
  | .lt, _ => decide (row.1 < row.2)
  | .ge, _ => decide (row.2 ≤ row.1)
  | .le, _ => decide (row.1 ≤ row.2)
  | .eq, _ => decide (Scalar.magnitude (row.1 - row.2) < equalityDistance)
  | .crossesAbove, some before => decide (before.1 ≤ before.2) && decide (row.2 < row.1)
  | .crossesBelow, some before => decide (before.2 ≤ before.1) && decide (row.1 < row.2)
  | .crossesAbove, none => false
  | .crossesBelow, none => false

namespace Frame

/-- The number that a name writes, else not-a-number. -/
def literalOfName (name : String) : α :=
  ((readNumber (trim name.toList)).map NumberLiteral.value).getD Scalar.nan

/-- The values of an operand at the rows of a frame. -/
def valuesOf (f : Frame α) : Operand α → List α
  | .column name => (f.get? name).getD (List.replicate f.length (literalOfName name))
  | .literal value => List.replicate f.length value

/-- Where a condition holds. -/
def holds (f : Frame α) (c : Condition α) : List Bool :=
  (withPrevious ((f.valuesOf c.left).zip (f.valuesOf c.right))).map fun rows =>
    c.comparator.holds rows.1 rows.2

/-- Where all of the conditions hold; nowhere if there is none. -/
def allHold (f : Frame α) (conditions : List (Condition α)) : List Bool :=
  if conditions.isEmpty then List.replicate f.length false
  else
    conditions.foldl (fun all c => List.zipWith (· && ·) all (f.holds c))
      (List.replicate f.length true)

end Frame

end Backtester
