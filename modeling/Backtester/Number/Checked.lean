import Backtester.Number.Reading

/-!
# Checked arithmetic

A sum or a difference of two integers of 64 bits may be none.  No other number stands in for it:
the operation ends in an overflow.

* `FitsInt64` — the integers of 64 bits.
* `Overflow` — the operations that can leave them.
* `addInt64`, `subInt64` — sum and difference, where there is one.
-/

namespace Backtester

/-- An integer of 64 bits. -/
def FitsInt64 (n : Int) : Prop := minInt64 ≤ n ∧ n ≤ maxInt64

instance (n : Int) : Decidable (FitsInt64 n) :=
  inferInstanceAs (Decidable (minInt64 ≤ n ∧ n ≤ maxInt64))

/-- An operation whose result is no integer of 64 bits. -/
inductive Overflow where
  /-- A sum. -/
  | addition
  /-- A difference. -/
  | subtraction
deriving DecidableEq

/-- The overflow in words. -/
def Overflow.message : Overflow → String
  | addition => "attempt to add with overflow"
  | subtraction => "attempt to subtract with overflow"

/-- The sum of two integers of 64 bits. -/
def addInt64 (m n : Int) : Except Overflow Int :=
  if FitsInt64 (m + n) then .ok (m + n) else .error .addition

/-- The difference of two integers of 64 bits. -/
def subInt64 (m n : Int) : Except Overflow Int :=
  if FitsInt64 (m - n) then .ok (m - n) else .error .subtraction

end Backtester
