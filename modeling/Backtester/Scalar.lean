/-!
# Scalars

Prices, fractions and ratios are values of a scalar type.  Everything the replay engine does to a
number is an operation of `Scalar`, so the same definitions read both as double arithmetic, which is
what runs, and as exact arithmetic.

* `Scalar` — the operations: arithmetic, comparison, square root, rounding to a whole number, and
  the special values of a number line that has them.
* `Scalar.sum` — adds from left to right, starting from negative zero, the one start that leaves
  every first term as it is.
* `Scalar.larger`, `Scalar.smaller` — the maximum and minimum that pass over a value that is not a
  number.
* `Scalar.powerOfTen` — powers of ten by repeated squaring.
-/

namespace Backtester

/-- The number operations the engine is written in. -/
class Scalar (α : Type) extends Add α, Sub α, Mul α, Div α, Neg α, LT α, LE α, BEq α where
  /-- Strict order can be tested. -/
  decLt : DecidableRel (fun a b : α => a < b)
  /-- Order can be tested. -/
  decLe : DecidableRel (fun a b : α => a ≤ b)
  /-- The square root. -/
  sqrt : α → α
  /-- The magnitude. -/
  magnitude : α → α
  /-- The nearest whole number, a half going away from zero. -/
  roundWhole : α → α
  /-- The value is not a number. -/
  isNaN : α → Bool
  /-- The value is neither infinite nor not-a-number. -/
  isFinite : α → Bool
  /-- The value that is not a number. -/
  nan : α
  /-- Positive or negative infinity. -/
  infinite : (negative : Bool) → α
  /-- The scalar nearest to `± digits · 10 ^ exponent`. -/
  ofDecimal : (negative : Bool) → (digits : Nat) → (exponent : Int) → α

namespace Scalar

variable {α : Type} [Scalar α]

instance (a b : α) : Decidable (a < b) := Scalar.decLt a b

instance (a b : α) : Decidable (a ≤ b) := Scalar.decLe a b

/-- The scalar nearest to a natural number. -/
def ofNat (n : Nat) : α := ofDecimal false n 0

/-- The scalar nearest to an integer. -/
def ofInt (n : Int) : α := ofDecimal (decide (n < 0)) n.natAbs 0

instance (priority := low) (n : Nat) : OfNat α n := ⟨Scalar.ofNat n⟩

/-- The sum from left to right, starting from negative zero. -/
def sum (xs : List α) : α := xs.foldl (· + ·) (-(0 : α))

/-- The sum divided by the number of terms. -/
def mean (xs : List α) : α := sum xs / ofNat xs.length

/-- The larger of two values; a value that is not a number gives way to the other. -/
def larger (a b : α) : α := if isNaN a then b else if a < b then b else a

/-- The smaller of two values; a value that is not a number gives way to the other. -/
def smaller (a b : α) : α := if isNaN a then b else if b < a then b else a

/-- Repeated squaring: `acc · base ^ n`. -/
def powerBySquaring (acc base : α) (n : Nat) : α :=
  if n = 0 then acc
  else
    let acc := if n % 2 = 1 then acc * base else acc
    if n / 2 = 0 then acc else powerBySquaring acc (base * base) (n / 2)
termination_by n

/-- `10 ^ places`; for negative `places` the reciprocal of `10 ^ |places|`. -/
def powerOfTen (places : Int) : α :=
  let power := powerBySquaring 1 10 places.natAbs
  if places < 0 then 1 / power else power

end Scalar

end Backtester
