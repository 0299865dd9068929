import Backtester.Json
import Backtester.Number.Notation

/-!
# Writing JSON

* `quoted` — a string between quotes, with escapes for the quote, the backslash and control
  characters.
* `Json.compact` — a value on one line without blanks.
* `Json.pretty` — a value over several lines, two spaces of indentation per level; an empty array or
  object stays on one line.
-/

namespace Backtester

/-- The hexadecimal digit of a number below sixteen. -/
def hexDigit (n : Nat) : Char := if n < 10 then Char.ofNat (48 + n) else Char.ofNat (87 + n)

/-- A character of a string as written. -/
def escapeChar (c : Char) : List Char :=
  match c with
  | '"' => ['\\', '"']
  | '\\' => ['\\', '\\']
  | '\x08' => ['\\', 'b']
  | '\x0c' => ['\\', 'f']
  | '\n' => ['\\', 'n']
  | '\r' => ['\\', 'r']
  | '\t' => ['\\', 't']
  | c =>
      if c.toNat < 0x20 then
        ['\\', 'u', '0', '0', hexDigit (c.toNat / 16), hexDigit (c.toNat % 16)]
      else [c]

/-- A string between quotes. -/
def quoted (text : String) : List Char := '"' :: text.toList.flatMap escapeChar ++ ['"']

/-- A number as written. -/
def JsonNumber.text : JsonNumber → String
  | natural n => natText n
  | negative n => "-" ++ natText n
  | float x => NumberStyle.document.write x

/-- A line break and the indentation of a level. -/
def lineBreak (level : Nat) : List Char := '\n' :: List.replicate (2 * level) ' '

mutual

/-- The characters of a value on one line. -/
def Json.compactChars : Json → List Char
  | .null => "null".toList
  | .bool true => "true".toList
  | .bool false => "false".toList
  | .number n => n.text.toList
  | .string text => quoted text
  | .array items => '[' :: Json.compactItems items ++ [']']
  | .object members => '\x7b' :: Json.compactMembers members ++ ['\x7d']

/-- Items with commas between them. -/
def Json.compactItems : List Json → List Char
  | [] => []
  | [value] => value.compactChars
  | value :: rest => value.compactChars ++ ',' :: Json.compactItems rest

/-- Members with commas between them. -/
def Json.compactMembers : List (String × Json) → List Char
  | [] => []
  | [(key, value)] => quoted key ++ ':' :: value.compactChars
  | (key, value) :: rest => quoted key ++ ':' :: value.compactChars ++ ',' :: Json.compactMembers rest

end

mutual

/-- The characters of a value that starts on a line of indentation `level`. -/
def Json.prettyChars (level : Nat) : Json → List Char
  | .null => "null".toList
  | .bool true => "true".toList
  | .bool false => "false".toList
  | .number n => n.text.toList
  | .string text => quoted text
  | .array [] => ['[', ']']
  | .array (value :: rest) =>
      '[' :: lineBreak (level + 1) ++ Json.prettyItems (level + 1) (value :: rest) ++
        lineBreak level ++ [']']
  | .object [] => ['\x7b', '\x7d']
  | .object (member :: rest) =>
      '\x7b' :: lineBreak (level + 1) ++ Json.prettyMembers (level + 1) (member :: rest) ++
        lineBreak level ++ ['\x7d']

/-- Items on lines of their own with commas between them. -/
def Json.prettyItems (level : Nat) : List Json → List Char
  | [] => []
  | [value] => value.prettyChars level
  | value :: rest => value.prettyChars level ++ ',' :: lineBreak level ++ Json.prettyItems level rest

/-- Members on lines of their own with commas between them. -/
def Json.prettyMembers (level : Nat) : List (String × Json) → List Char
  | [] => []
  | [(key, value)] => quoted key ++ ':' :: ' ' :: value.prettyChars level
  | (key, value) :: rest =>
      quoted key ++ ':' :: ' ' :: value.prettyChars level ++
        ',' :: lineBreak level ++ Json.prettyMembers level rest

end

/-- A value on one line. -/
def Json.compact (value : Json) : String := String.ofList value.compactChars

/-- A value over several lines. -/
def Json.pretty (value : Json) : String := String.ofList (value.prettyChars 0)

end Backtester
