import Backtester.Calendar
import Backtester.Number.Reading
import Backtester.Text.Blank

/-!
# Reading times

A time in a candle table is, in this order of trial:

* an integer: seconds, or milliseconds above `10 ^ 11`;
* a date and time with an offset: `2024-01-01T00:00:00Z`, `2024-01-01 02:00:00.5+02:00`;
* a date and time in universal time: `2024-01-01 00:00:00`, `2024-01-01T00:00:00`;
* a date: `2024-01-01`, the start of that day.

The form with an offset has a fixed number of digits in each part.  The others allow fewer digits,
blanks before each number and a sign before the year.  Fractions of a second are dropped.
-/

namespace Backtester

/-- Reads at least `least` and at most `most` digits. -/
def takeDigits (least most : Nat) (text : List Char) : Option (Nat × List Char) :=
  let digits := (text.take most).takeWhile isDigit
  if digits.length < least then none else some (digitsValue digits, text.drop digits.length)

/-- Passes over one given character. -/
def passChar (wanted : Char) : List Char → Option (List Char)
  | c :: rest => if c = wanted then some rest else none
  | [] => none

/-- Reads a number of one or two digits after optional blanks. -/
def takeLoose (text : List Char) : Option (Nat × List Char) := takeDigits 1 2 (trimStart text)

/-- Reads a year: up to four digits, or any number of digits after a sign. -/
def takeYear (text : List Char) : Option (Int × List Char) :=
  match trimStart text with
  | '-' :: rest => (takeDigits 1 rest.length rest).map fun (n, behind) => (-(n : Int), behind)
  | '+' :: rest => (takeDigits 1 rest.length rest).map fun (n, behind) => ((n : Int), behind)
  | rest => (takeDigits 1 4 rest).map fun (n, behind) => ((n : Int), behind)

/-- Reads year, month and day in the loose form. -/
def takeLooseDate (text : List Char) : Option (Date × List Char) := do
  let (year, text) ← takeYear text
  let text ← passChar '-' text
  let (month, text) ← takeLoose text
  let text ← passChar '-' text
  let (day, text) ← takeLoose text
  return (⟨year, month, day⟩, text)

/-- Reads hour, minute and second with the given reader of numbers. -/
def takeClock (number : List Char → Option (Nat × List Char)) (text : List Char) :
    Option ((Nat × Nat × Nat) × List Char) := do
  let (hour, text) ← number text
  let text ← passChar ':' text
  let (minute, text) ← number text
  let text ← passChar ':' text
  let (second, text) ← number text
  return ((hour, minute, second), text)

/-- Passes over a point and digits, if a point follows. -/
def passFraction : List Char → Option (List Char)
  | '.' :: rest => if (rest.head?).any isDigit then some (rest.dropWhile isDigit) else none
  | text => some text

/-- Reads an offset in seconds: `Z`, or a sign, hours and minutes below a day. -/
def takeOffset : List Char → Option (Int × List Char)
  | [] => none
  | sign :: rest =>
      if sign = 'Z' ∨ sign = 'z' then some (0, rest)
      else if sign = '+' ∨ sign = '-' ∨ sign = '−' then do
        let (hours, text) ← takeDigits 2 2 rest
        let text ← passChar ':' text
        let (minutes, text) ← takeDigits 2 2 text
        if hours ≤ 23 ∧ minutes ≤ 59 then
          let size : Int := (hours * 3600 + minutes * 60 : Nat)
          return (if sign = '+' then size else -size, text)
        else none
      else none

/-- Reads a whole text as a date and time with an offset. -/
def readOffsetTime (text : List Char) : Option Int := do
  let (year, text) ← takeDigits 4 4 text
  let text ← passChar '-' text
  let (month, text) ← takeDigits 2 2 text
  let text ← passChar '-' text
  let (day, text) ← takeDigits 2 2 text
  let text ← passChar 'T' text <|> passChar 't' text <|> passChar ' ' text
  let ((hour, minute, second), text) ← takeClock (takeDigits 2 2) text
  let text ← passFraction text
  let (offset, text) ← takeOffset text
  if text.isEmpty then
    let time ← clockTime ⟨year, month, day⟩ hour minute second
    return time - offset
  else none

/-- Reads a whole text as a date and time in universal time, with `pass` between the two. -/
def readUniversalTime (pass : List Char → Option (List Char)) (text : List Char) : Option Int := do
  let (date, text) ← takeLooseDate text
  let text ← pass text
  let ((hour, minute, second), text) ← takeClock takeLoose text
  if text.isEmpty then clockTime date hour minute second else none

/-- Reads a whole text as a date. -/
def readDay (text : List Char) : Option Int := do
  let (date, text) ← takeLooseDate text
  if text.isEmpty then clockTime date 0 0 0 else none

/-- Integers above this are milliseconds. -/
def largestSeconds : Int := 100000000000

/-- Reads a time. -/
def readTime (text : List Char) : Option Int :=
  let text := trim text
  match readInteger text with
  | some n => some (if largestSeconds < n then n / 1000 else n)
  | none =>
      readOffsetTime text <|> readUniversalTime (fun t => some (trimStart t)) text <|>
        readUniversalTime (passChar 'T') text <|> readDay text

end Backtester
