import Backtester.Number.Shortest

/-!
# Writing doubles

How a double is written is a value of `NumberStyle`; two styles are in use.

* `NumberStyle.display` — conditions, candle tables and messages: always positional, a whole number
  without a point.
* `NumberStyle.document` — reports: a whole number keeps `.0`, and numbers from `10 ^ 16` on and
  below `10 ^ -5` take an exponent.
* `fixedPlaces` — the run summary: the exact value to a fixed number of places, a half going to the
  even neighbour.
-/

namespace Backtester

/-- The digits of a natural number in base ten. -/
def decimalDigits (n : Nat) : List Char := Nat.toDigits 10 n

/-- The text of a natural number. -/
def natText (n : Nat) : String := String.ofList (decimalDigits n)

/-- The text of an integer. -/
def intText (n : Int) : String :=
  if n < 0 then "-" ++ natText n.natAbs else natText n.natAbs

/-- Drops the zeros at the end of a digit list. -/
def dropTrailingZeros (digits : List Char) : List Char :=
  (digits.reverse.dropWhile (· == '0')).reverse

/-- Significant digits without the zeros at the end, and the exponent of the first one. -/
structure Significand where
  /-- The digits, the first one not zero. -/
  digits : List Char
  /-- The power of ten of the first digit. -/
  exponent : Int

namespace Significand

/-- The significant digits of `d · 10 ^ k`. -/
def ofScaled (d : Nat) (k : Int) : Significand :=
  let digits := decimalDigits d
  { digits := dropTrailingZeros digits, exponent := k + digits.length - 1 }

/-- The digits written out around a decimal point; a whole number has none. -/
def positional (s : Significand) : List Char :=
  if s.exponent < 0 then
    '0' :: '.' :: (List.replicate (-s.exponent - 1).toNat '0' ++ s.digits)
  else
    let whole := s.exponent.toNat + 1
    if s.digits.length ≤ whole then s.digits ++ List.replicate (whole - s.digits.length) '0'
    else s.digits.take whole ++ '.' :: s.digits.drop whole

/-- One digit before the point and the power of ten after an `e`. -/
def scientific (s : Significand) : List Char :=
  let mantissa :=
    match s.digits with
    | first :: second :: rest => first :: '.' :: second :: rest
    | short => short
  let sign := if s.exponent < 0 then '-' else '+'
  mantissa ++ 'e' :: sign :: decimalDigits s.exponent.natAbs

end Significand

/-- The choices in writing a double. -/
structure NumberStyle where
  /-- Which of two equally near shortest decimals is written. -/
  tie : Tie
  /-- A whole number ends in `.0`. -/
  marksWhole : Bool
  /-- The exponents of the first digit that are written positionally. -/
  positionalAt : Int → Bool

namespace NumberStyle

/-- Always positional, whole numbers without a point. -/
def display : NumberStyle := ⟨.up, false, fun _ => true⟩

/-- Positional from `10 ^ -5` to below `10 ^ 16`, whole numbers with `.0`. -/
def document : NumberStyle := ⟨.toEven, true, fun e => decide (-5 ≤ e) && decide (e < 16)⟩

/-- Appends `.0` to a positional text without a point, in a style that asks for it. -/
def mark (style : NumberStyle) (text : List Char) : List Char :=
  if style.marksWhole && !text.contains '.' then text ++ ['.', '0'] else text

/-- The text of the magnitude `m · 2 ^ q`. -/
def magnitudeText (style : NumberStyle) (m : Nat) (q : Int) : List Char :=
  if m = 0 then style.mark ['0']
  else
    let (d, k) := shortest style.tie m q
    let s := Significand.ofScaled d k
    if style.positionalAt s.exponent then style.mark s.positional else s.scientific

/-- Puts a minus sign before a text. -/
def signedText (negative : Bool) (text : List Char) : String :=
  String.ofList (if negative then '-' :: text else text)

/-- The text of a double. -/
def write (style : NumberStyle) (x : Float) : String :=
  match Binary64.ofFloat x with
  | .nan => "NaN"
  | .infinite negative => signedText negative ['i', 'n', 'f']
  | .finite negative m q => signedText negative (style.magnitudeText m q)

end NumberStyle

/-- The quotient rounded to the nearest whole number, a half going to the even neighbour. -/
def divHalfEven (numerator denominator : Nat) : Nat :=
  let floor := numerator / denominator
  match compare (2 * (numerator % denominator)) denominator with
  | .lt => floor
  | .gt => floor + 1
  | .eq => if floor % 2 = 0 then floor else floor + 1

/-- The magnitude `m · 2 ^ q` with `places` digits after the point. -/
def fixedMagnitude (places m : Nat) (q : Int) : List Char :=
  let scaled := divHalfEven (m * twoTo q.toNat * tenTo places) (twoTo (-q).toNat)
  let digits := decimalDigits scaled
  -- At least one digit stays before the point.
  let padded := List.replicate (places + 1 - digits.length) '0' ++ digits
  let whole := padded.length - places
  padded.take whole ++ (if places = 0 then [] else '.' :: padded.drop whole)

/-- The exact value of a double with `places` digits after the point. -/
def fixedPlaces (places : Nat) (x : Float) : String :=
  match Binary64.ofFloat x with
  | .nan => "NaN"
  | .infinite negative => NumberStyle.signedText negative ['i', 'n', 'f']
  | .finite negative m q => NumberStyle.signedText negative (fixedMagnitude places m q)

end Backtester
