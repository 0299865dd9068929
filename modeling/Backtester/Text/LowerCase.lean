import Backtester.Text.CaseRanges
import Backtester.Text.Letter

/-!
# Lower case

Full lower case of a text.  Each character is mapped on its own, but a capital sigma becomes the
final form `ς` where a word ends: a cased character stands before it and none after it, characters
that case ignores being passed over on both sides.

* `lowerChar` — the lower case of one character; `İ` has two characters.
* `lowerText`, `lowered` — the lower case of a text.
-/

namespace Backtester

/-- The lower case of a code point in a run, if it is in one. -/
def lookupRun : List (Nat × Nat × Nat × Nat) → Nat → Option Nat
  | [], _ => none
  | (first, last, step, target) :: rest, n =>
      if n < first then none
      else if n ≤ last then
        if (n - first) % step = 0 then some (target + (n - first)) else lookupRun rest n
      else lookupRun rest n

/-- The lower case of one character. -/
def lowerChar (c : Char) : List Char :=
  if c = 'İ' then ['i', '\u0307']
  else
    match lookupRun lowerRuns c.toNat with
    | some n => [Char.ofNat n]
    | none => [c]

/-- The first character that case does not ignore is a cased one. -/
def startsCased (text : List Char) : Bool :=
  match text.dropWhile (fun c => inRanges caseIgnorableRanges c.toNat) with
  | c :: _ => inRanges casedRanges c.toNat
  | [] => false

/-- The lower case of a text, after the characters `before` in reverse order. -/
def lowerAfter : (before : List Char) → List Char → List Char
  | _, [] => []
  | before, c :: rest =>
      let lower :=
        if c = 'Σ' then if startsCased before && !startsCased rest then ['ς'] else ['σ']
        else lowerChar c
      lower ++ lowerAfter (c :: before) rest

/-- The lower case of a text. -/
def lowerText (text : List Char) : List Char := lowerAfter [] text

/-- The lower case of a string. -/
def lowered (text : String) : String := String.ofList (lowerText text.toList)

/-- A character whose upper case is written in ASCII letters, in that upper case.  All others stay:
no text with one of them has an upper case in ASCII letters. -/
def upperLetters (c : Char) : List Char :=
  if decide ('a' ≤ c) && decide (c ≤ 'z') then [Char.ofNat (c.toNat - 32)]
  else
    match c with
    | 'ß' => ['S', 'S']
    | 'ı' => ['I']
    | 'ſ' => ['S']
    | 'ﬀ' => ['F', 'F']
    | 'ﬁ' => ['F', 'I']
    | 'ﬂ' => ['F', 'L']
    | 'ﬃ' => ['F', 'F', 'I']
    | 'ﬄ' => ['F', 'F', 'L']
    | 'ﬅ' => ['S', 'T']
    | 'ﬆ' => ['S', 'T']
    | _ => [c]

/-- A string in upper case, as far as that upper case is in ASCII letters. -/
def upperKey (text : String) : String := String.ofList (text.toList.flatMap upperLetters)

end Backtester
