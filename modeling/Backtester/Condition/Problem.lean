import Backtester.Text.ByteSize

/-!
# Problems in condition texts

* `TextCause` — what is wrong: mostly that something else stands where a part was wanted.
* `TextProblem` — a cause with the byte position where reading stopped.
* `TextProblem.message`, `TextProblem.display`, `TextProblem.withContext` — its three texts.
-/

namespace Backtester

/-- Why a condition text cannot be read. -/
inductive TextCause where
  /-- There is nothing but blanks. -/
  | empty
  /-- Another character, or none, stands where `wanted` belongs. -/
  | wantedChar (wanted : Char) (found : Option Char)
  /-- No comparator stands after the left operand. -/
  | wantedComparator (found : String)
  /-- Neither a number nor a name stands where an operand belongs. -/
  | wantedOperand (found : String)
  /-- A sign or a point without a digit. -/
  | wantedNumber
  /-- Something follows the last condition. -/
  | leftover (found : String)
deriving DecidableEq

/-- A problem at a byte position of a condition text. -/
structure TextProblem where
  /-- What is wrong. -/
  cause : TextCause
  /-- The number of bytes before the place. -/
  position : Nat
deriving DecidableEq

namespace TextProblem

/-- What is wrong, in words. -/
def message (p : TextProblem) : String :=
  match p.cause with
  | .empty => "empty condition"
  | .wantedChar wanted (some found) =>
      "expected '" ++ wanted.toString ++ "', found '" ++ found.toString ++ "'"
  | .wantedChar wanted none => "expected '" ++ wanted.toString ++ "', found end of input"
  | .wantedComparator found => "expected comparator, found '" ++ found ++ "'"
  | .wantedOperand found => "expected operand, found '" ++ found ++ "'"
  | .wantedNumber => "expected number"
  | .leftover found => "unexpected '" ++ found ++ "'"

/-- The position and what is wrong there. -/
def display (p : TextProblem) : String :=
  "parse error at position " ++ toString p.position ++ ": " ++ p.message

/-- The text, a caret below it as many columns in as the position says, and the problem. -/
def withContext (p : TextProblem) (text : String) : String :=
  text ++ "\n" ++ String.ofList (List.replicate p.position ' ') ++ "^\n" ++ p.display

end TextProblem

end Backtester
