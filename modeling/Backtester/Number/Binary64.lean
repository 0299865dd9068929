import Backtester.Scalar

/-!
# Doubles as exact numbers

A finite double is `± m · 2 ^ q` with a whole `m < 2 ^ 53`.  `Binary64.ofFloat` reads these three
parts off the bits, and everything exact — printing, rounding to a whole number — is done on them in
`Nat` and `Int`.

* `Binary64.ofFloat` — the exact content of a double.
* `roundWhole` — the nearest whole double, a half going away from zero.
* `ofDecimal` — the double nearest to a decimal.
* The instance `Scalar Float` — double arithmetic as a scalar type.
-/

namespace Backtester

/-- The power of two. -/
def twoTo (n : Nat) : Nat := Nat.pow 2 n

/-- The power of ten. -/
def tenTo (n : Nat) : Nat := Nat.pow 10 n

/-- The exact content of a double. -/
inductive Binary64 where
  /-- Not a number. -/
  | nan
  /-- Positive or negative infinity. -/
  | infinite (negative : Bool)
  /-- The number `± m · 2 ^ q`. -/
  | finite (negative : Bool) (m : Nat) (q : Int)
deriving DecidableEq

namespace Binary64

/-- Reads sign, significand and exponent off the bits. -/
def ofFloat (x : Float) : Binary64 :=
  let bits : Nat := x.toBits.toNat
  let negative := decide (twoTo 63 ≤ bits)
  let exponent : Nat := bits / twoTo 52 % twoTo 11
  let fraction : Nat := bits % twoTo 52
  -- The largest exponent is kept for infinities and not-a-number, the smallest for the doubles whose
  -- significand has no leading one.
  if exponent = 2047 then
    if fraction = 0 then infinite negative else nan
  else if exponent = 0 then finite negative fraction (-1074)
  else finite negative (twoTo 52 + fraction) ((exponent : Int) - 1075)

/-- The whole number nearest to `m · 2 ^ q`, a half going up. -/
def roundHalfUp (m : Nat) (q : Int) : Nat :=
  let unit := twoTo (-q).toNat
  (2 * (m * twoTo q.toNat) + unit) / (2 * unit)

/-- Puts a sign on a magnitude. -/
def signed (negative : Bool) (x : Float) : Float := if negative then -x else x

/-- The nearest whole double, a half going away from zero.  Infinities and not-a-number stay. -/
def roundWhole (x : Float) : Float :=
  match ofFloat x with
  | .finite negative m q => signed negative (Float.ofNat (roundHalfUp m q))
  | _ => x

/-- Number of decimal digits; zero has none. -/
def digitCount (n : Nat) : Nat :=
  if n = 0 then 0 else digitCount (n / 10) + 1
termination_by n

/-- Positive infinity. -/
def infinity : Float := Float.ofBits 0x7FF0000000000000

/-- The one not-a-number value. -/
def notANumber : Float := Float.ofBits 0x7FF8000000000000

/-- The double nearest to `± digits · 10 ^ exponent`.  A magnitude of at least `10 ^ 310` is beyond
all doubles and one below `10 ^ -330` is nearer to zero than to any other, so neither is
computed. -/
def ofDecimal (negative : Bool) (digits : Nat) (exponent : Int) : Float :=
  let size := (digitCount digits : Int) + exponent
  signed negative <|
    if digits = 0 then 0
    else if 310 < size then infinity
    else if size < -330 then 0
    else if 0 ≤ exponent then Float.ofScientific digits false exponent.toNat
    else Float.ofScientific digits true (-exponent).toNat

end Binary64

/-- Doubles with their own rounded arithmetic. -/
instance : Scalar Float where
  decLt := fun a b => inferInstanceAs (Decidable (a < b))
  decLe := fun a b => inferInstanceAs (Decidable (a ≤ b))
  sqrt := Float.sqrt
  magnitude := Float.abs
  roundWhole := Binary64.roundWhole
  isNaN := Float.isNaN
  isFinite := Float.isFinite
  nan := Binary64.notANumber
  infinite := fun negative => Binary64.signed negative Binary64.infinity
  ofDecimal := Binary64.ofDecimal

end Backtester
