/-!
# Blank characters

A blank is a character with the Unicode property `White_Space`: U+0009 to U+000D, U+0020, U+0085,
U+00A0, U+1680, U+2000 to U+200A, U+2028, U+2029, U+202F, U+205F and U+3000.

* `isBlank` — the class.
* `trimStart`, `trimEnd`, `trim` — drop the blanks at the ends of a text.
-/

namespace Backtester

/-- The character has the property `White_Space`. -/
def isBlank (c : Char) : Bool :=
  let n := c.toNat
  (decide (0x09 ≤ n) && decide (n ≤ 0x0D)) || n == 0x20 || n == 0x85 || n == 0xA0 || n == 0x1680 ||
    (decide (0x2000 ≤ n) && decide (n ≤ 0x200A)) || n == 0x2028 || n == 0x2029 || n == 0x202F ||
    n == 0x205F || n == 0x3000

/-- Drops the blanks before a text. -/
def trimStart (text : List Char) : List Char := text.dropWhile isBlank

/-- Drops the blanks after a text. -/
def trimEnd (text : List Char) : List Char := (text.reverse.dropWhile isBlank).reverse

/-- Drops the blanks on both sides of a text. -/
def trim (text : List Char) : List Char := trimEnd (trimStart text)

/-- The string without the blanks on both sides. -/
def trimmed (text : String) : String := String.ofList (trim text.toList)

end Backtester
