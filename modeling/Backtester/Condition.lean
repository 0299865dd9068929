import Backtester.Number.Notation
import Backtester.Text.Blank
import Backtester.Text.LowerCase

/-!
# Conditions

A condition compares two operands, each a column of the run's frame or a number.

* `Operand`, `Comparator`, `Condition` — the three parts of the language of rules.
* `Comparator.ofToken?` — reads a comparator that stands alone.
* `Condition.columns` — the columns that a condition reads, left before right.
* `Condition.text` — the printed form, which reads back.
-/

namespace Backtester

/-- One side of a comparison. -/
inductive Operand (α : Type) where
  /-- The value of a column at each row. -/
  | column (name : String)
  /-- The same number at each row. -/
  | literal (value : α)

/-- How two operands are compared. -/
inductive Comparator where
  /-- Strictly above. -/
  | gt
  /-- Strictly below. -/
  | lt
  /-- Above or equal. -/
  | ge
  /-- Below or equal. -/
  | le
  /-- Equal up to a small distance. -/
  | eq
  /-- Not above on the row before, above on this one. -/
  | crossesAbove
  /-- Not below on the row before, below on this one. -/
  | crossesBelow
deriving DecidableEq

/-- A comparison of two operands. -/
structure Condition (α : Type) where
  /-- The left operand. -/
  left : Operand α
  /-- The comparator. -/
  comparator : Comparator
  /-- The right operand. -/
  right : Operand α

namespace Operand

/-- The column an operand reads, if it reads one. -/
def column? {α : Type} : Operand α → Option String
  | column name => some name
  | literal _ => none

/-- The printed form: the column's name or the number. -/
def text : Operand Float → String
  | column name => name
  | literal value => NumberStyle.display.write value

end Operand

namespace Comparator

/-- The printed form. -/
def symbol : Comparator → String
  | gt => ">"
  | lt => "<"
  | ge => ">="
  | le => "<="
  | eq => "=="
  | crossesAbove => "crosses_above"
  | crossesBelow => "crosses_below"

/-- Reads a comparator that stands alone, in any letter case and with blanks around it. -/
def ofToken? (token : String) : Option Comparator :=
  match lowered (trimmed token) with
  | ">" => some gt
  | "<" => some lt
  | ">=" => some ge
  | "<=" => some le
  | "==" => some eq
  | "=" => some eq
  | "crosses_above" => some crossesAbove
  | "crosses_below" => some crossesBelow
  | _ => none

end Comparator

namespace Condition

/-- The comparison of two columns. -/
def ofColumns {α : Type} (left : String) (comparator : Comparator) (right : String) : Condition α :=
  ⟨.column left, comparator, .column right⟩

/-- The columns a condition reads, left before right. -/
def columns {α : Type} (c : Condition α) : List String :=
  [c.left, c.right].filterMap Operand.column?

/-- The printed form. -/
def text (c : Condition Float) : String :=
  c.left.text ++ " " ++ c.comparator.symbol ++ " " ++ c.right.text

end Condition

end Backtester
