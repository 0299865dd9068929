import Backtester.Text.LetterRanges

/-!
# Letters and numbers

* `isAlphabetic`, `isNumeric` — the Unicode properties `Alphabetic` and `Number`.
* `isWordChar` — a character that may continue a name: a letter, a number or an underscore.
-/

namespace Backtester

/-- The code point lies in one of the ascending ranges. -/
def inRanges : List (Nat × Nat) → Nat → Bool
  | [], _ => false
  | (first, last) :: rest, n =>
      if n < first then false else if n ≤ last then true else inRanges rest n

/-- The character is a letter. -/
def isAlphabetic (c : Char) : Bool := inRanges alphabeticRanges c.toNat

/-- The character is a digit or another number. -/
def isNumeric (c : Char) : Bool := inRanges numericRanges c.toNat

/-- The character may continue a name. -/
def isWordChar (c : Char) : Bool := isAlphabetic c || isNumeric c || c == '_'

end Backtester
