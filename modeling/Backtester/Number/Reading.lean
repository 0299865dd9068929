import Backtester.Scalar

/-!
# Reading numbers

Number texts are read in two steps: a grammar that finds the parts of the text, and the value of the
parts.

* `NumberLiteral` — what a number text says: a decimal, an infinity, or not a number.
* `readNumber` — accepts an optional sign, then `inf`, `infinity` or `nan` in any case, or digits
  with at most one point and at least one digit, then an optional exponent.
* `readInteger`, `readNatural` — accept an optional sign and at least one digit; a natural number
  takes no minus sign.
-/

namespace Backtester

/-- The character is one of the ten ASCII digits. -/
def isDigit (c : Char) : Bool := decide ('0' ≤ c) && decide (c ≤ '9')

/-- The value of a digit. -/
def digitValue (c : Char) : Nat := c.toNat - '0'.toNat

/-- The number that a digit list writes in base ten. -/
def digitsValue (digits : List Char) : Nat := digits.foldl (fun n c => 10 * n + digitValue c) 0

/-- The lower case of an ASCII letter; any other character stays. -/
def asciiLower (c : Char) : Char :=
  if decide ('A' ≤ c) && decide (c ≤ 'Z') then Char.ofNat (c.toNat + 32) else c

/-- What a number text says. -/
inductive NumberLiteral where
  /-- Not a number. -/
  | nan
  /-- Positive or negative infinity. -/
  | infinite (negative : Bool)
  /-- The decimal `± digits · 10 ^ exponent`. -/
  | decimal (negative : Bool) (digits : Nat) (exponent : Int)
deriving DecidableEq

/-- The scalar that a literal stands for. -/
def NumberLiteral.value {α : Type} [Scalar α] : NumberLiteral → α
  | nan => Scalar.nan
  | infinite negative => Scalar.infinite negative
  | decimal negative digits exponent => Scalar.ofDecimal negative digits exponent

/-- Splits a leading sign off. -/
def takeSign : List Char → Bool × List Char
  | '-' :: rest => (true, rest)
  | '+' :: rest => (false, rest)
  | text => (false, text)

/-- Digits with at most one point among them: the digits before it, those after it, and what
follows. -/
def takeDecimal (text : List Char) : List Char × List Char × List Char :=
  let whole := text.takeWhile isDigit
  match text.dropWhile isDigit with
  | '.' :: rest => (whole, rest.takeWhile isDigit, rest.dropWhile isDigit)
  | rest => (whole, [], rest)

/-- The exponent after an `e`, up to the end of the text; no text is the exponent zero. -/
def readExponent : List Char → Option Int
  | [] => some 0
  | e :: text =>
      if asciiLower e = 'e' then
        let (negative, digits) := takeSign text
        if !digits.isEmpty && digits.all isDigit then
          some (if negative then -(digitsValue digits : Int) else digitsValue digits)
        else none
      else none

/-- Reads a whole text as a number. -/
def readNumber (text : List Char) : Option NumberLiteral :=
  let (negative, body) := takeSign text
  match String.ofList (body.map asciiLower) with
  | "inf" | "infinity" => some (.infinite negative)
  | "nan" => some .nan
  | _ =>
      let (whole, fraction, rest) := takeDecimal body
      if whole.isEmpty && fraction.isEmpty then none
      else
        (readExponent rest).map fun exponent =>
          .decimal negative (digitsValue (whole ++ fraction)) (exponent - fraction.length)

/-- The scalar that a text writes. -/
def readScalar {α : Type} [Scalar α] (text : String) : Option α :=
  (readNumber text.toList).map NumberLiteral.value

/-- The largest value of a signed 64-bit word. -/
def maxInt64 : Int := 9223372036854775807

/-- The smallest value of a signed 64-bit word. -/
def minInt64 : Int := -9223372036854775808

/-- The largest value of an unsigned 64-bit word. -/
def maxNat64 : Nat := 18446744073709551615

/-- Reads a whole text as an integer of 64 bits. -/
def readInteger (text : List Char) : Option Int :=
  let (negative, digits) := takeSign text
  if !digits.isEmpty && digits.all isDigit then
    let value : Int := if negative then -(digitsValue digits : Int) else digitsValue digits
    if minInt64 ≤ value ∧ value ≤ maxInt64 then some value else none
  else none

/-- Reads a whole text as a natural number of 64 bits.  A plus sign may stand before it. -/
def readNatural (text : List Char) : Option Nat :=
  let digits := if text.head? = some '+' then text.tail else text
  if !digits.isEmpty && digits.all isDigit then
    if digitsValue digits ≤ maxNat64 then some (digitsValue digits) else none
  else none

end Backtester
