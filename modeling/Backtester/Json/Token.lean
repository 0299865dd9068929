import Backtester.Json

/-!
# JSON tokens

A JSON text is a sequence of tokens with blanks between them; the blanks are the space, the tab, the
line feed and the carriage return.

* `NumberLexeme` — a number as written; `NumberLexeme.value?` is its value, unless it is beyond all
  doubles.
* `StringUnit` — a character of a string as written, or half of a character from an escape.
  `joinUnits` joins the halves, which must come in pairs.
* `tokens?` — the tokens of a text.
-/

namespace Backtester

/-- A number as written. -/
structure NumberLexeme where
  /-- There is a minus sign. -/
  negative : Bool
  /-- All digits before the exponent, as one number. -/
  digits : Nat
  /-- The power of ten that the last digit counts. -/
  exponent : Int
  /-- There is neither a point nor an exponent. -/
  integral : Bool
deriving DecidableEq

namespace NumberLexeme

/-- The double nearest to the number, unless it is beyond all doubles. -/
def float? (n : NumberLexeme) : Option Float :=
  let x : Float := Scalar.ofDecimal n.negative n.digits n.exponent
  if x.isFinite then some x else none

/-- The value of a number as written.  The integer `-0` is the double negative zero. -/
def value? (n : NumberLexeme) : Option JsonNumber :=
  if n.integral ∧ n.negative = false ∧ n.digits ≤ maxNat64 then some (.natural n.digits)
  else if n.integral ∧ n.negative = true ∧ 0 < n.digits ∧ n.digits ≤ minInt64.natAbs then
    some (.negative n.digits)
  else n.float?.map .float

end NumberLexeme

/-- A part of a string as written. -/
inductive StringUnit where
  /-- A whole character. -/
  | char (c : Char)
  /-- The first half of a character, from an escape. -/
  | high (n : Nat)
  /-- The second half of a character, from an escape. -/
  | low (n : Nat)
deriving DecidableEq

/-- The unit that an escape of four hexadecimal digits stands for. -/
def StringUnit.ofCode (n : Nat) : StringUnit :=
  if 0xD800 ≤ n ∧ n < 0xDC00 then high (n - 0xD800)
  else if 0xDC00 ≤ n ∧ n < 0xE000 then low (n - 0xDC00)
  else char (Char.ofNat n)

/-- Joins the halves of characters; `none` if a half has no partner. -/
def joinUnits : List StringUnit → Option (List Char)
  | [] => some []
  | .char c :: rest => (joinUnits rest).map (c :: ·)
  | .high h :: .low l :: rest => (joinUnits rest).map (Char.ofNat (0x10000 + h * 0x400 + l) :: ·)
  | _ => none

/-- The value of a hexadecimal digit. -/
def hexValue (c : Char) : Option Nat :=
  if decide ('0' ≤ c) && decide (c ≤ '9') then some (c.toNat - '0'.toNat)
  else if decide ('a' ≤ c) && decide (c ≤ 'f') then some (c.toNat - 'a'.toNat + 10)
  else if decide ('A' ≤ c) && decide (c ≤ 'F') then some (c.toNat - 'A'.toNat + 10)
  else none

/-- The value of four hexadecimal digits. -/
def hexCode (a b c d : Char) : Option Nat := do
  let a ← hexValue a
  let b ← hexValue b
  let c ← hexValue c
  let d ← hexValue d
  return ((a * 16 + b) * 16 + c) * 16 + d

/-- The character that a one-letter escape stands for. -/
def shortEscape : Char → Option Char
  | '"' => some '"'
  | '\\' => some '\\'
  | '/' => some '/'
  | 'b' => some '\x08'
  | 'f' => some '\x0c'
  | 'n' => some '\n'
  | 'r' => some '\r'
  | 't' => some '\t'
  | _ => none

/-- Reads the inside of a string up to its closing quote: the units and the text behind the
quote. -/
def scanString : List Char → Option (List StringUnit × List Char)
  | [] => none
  | '"' :: rest => some ([], rest)
  | '\\' :: 'u' :: a :: b :: c :: d :: rest =>
      match hexCode a b c d with
      | none => none
      | some n => (scanString rest).map fun (units, behind) => (.ofCode n :: units, behind)
  | '\\' :: e :: rest =>
      match shortEscape e with
      | none => none
      | some c => (scanString rest).map fun (units, behind) => (.char c :: units, behind)
  | c :: rest =>
      if c.toNat < 0x20 ∨ c = '\\' then none
      else (scanString rest).map fun (units, behind) => (.char c :: units, behind)

/-- Reads the exponent of a number, if there is one: its value and the text behind it. -/
def scanExponent : List Char → Option (Option Int × List Char)
  | e :: rest =>
      if e = 'e' ∨ e = 'E' then
        let (negative, text) := takeSign rest
        let digits := text.takeWhile isDigit
        if digits.isEmpty then none
        else
          let size : Int := digitsValue digits
          some (some (if negative then -size else size), text.dropWhile isDigit)
      else some (none, e :: rest)
  | [] => some (none, [])

/-- Reads the digits after the point of a number, if there is a point: the digits and the text
behind. -/
def scanFraction : List Char → Option (Option (List Char) × List Char)
  | '.' :: rest =>
      let digits := rest.takeWhile isDigit
      if digits.isEmpty then none else some (some digits, rest.dropWhile isDigit)
  | text => some (none, text)

/-- Reads a number: a minus sign, digits that start with a zero only if it is the only one, a
fraction and an exponent. -/
def scanNumberLexeme (text : List Char) : Option (NumberLexeme × List Char) := do
  let (negative, body) := if text.head? = some '-' then (true, text.tail) else (false, text)
  let whole := body.takeWhile isDigit
  if whole.isEmpty || (whole.head? == some '0' && whole.length != 1) then none
  else
    let (fraction, text) ← scanFraction (body.dropWhile isDigit)
    let (exponent, text) ← scanExponent text
    let places := fraction.getD []
    return ({ negative := negative
              digits := digitsValue (whole ++ places)
              exponent := exponent.getD 0 - places.length
              integral := fraction.isNone && exponent.isNone }, text)

/-- A token of a JSON text. -/
inductive JsonToken where
  /-- An opening brace. -/
  | openObject
  /-- A closing brace. -/
  | closeObject
  /-- An opening bracket. -/
  | openArray
  /-- A closing bracket. -/
  | closeArray
  /-- A comma. -/
  | comma
  /-- A colon. -/
  | colon
  /-- The word `null`. -/
  | null
  /-- The word `true` or `false`. -/
  | bool (value : Bool)
  /-- A number. -/
  | number (lexeme : NumberLexeme)
  /-- A string; `none` if half a character stands in it alone. -/
  | string (text : Option String)
deriving DecidableEq

/-- The token at the start of a text without a blank there, and the text behind it. -/
def scanToken : List Char → Option (JsonToken × List Char)
  | '\x7b' :: rest => some (.openObject, rest)
  | '\x7d' :: rest => some (.closeObject, rest)
  | '[' :: rest => some (.openArray, rest)
  | ']' :: rest => some (.closeArray, rest)
  | ',' :: rest => some (.comma, rest)
  | ':' :: rest => some (.colon, rest)
  | 'n' :: 'u' :: 'l' :: 'l' :: rest => some (.null, rest)
  | 't' :: 'r' :: 'u' :: 'e' :: rest => some (.bool true, rest)
  | 'f' :: 'a' :: 'l' :: 's' :: 'e' :: rest => some (.bool false, rest)
  | '"' :: rest =>
      (scanString rest).map fun (units, behind) =>
        (.string ((joinUnits units).map String.ofList), behind)
  | text => (scanNumberLexeme text).map fun (lexeme, behind) => (.number lexeme, behind)

/-- A blank of a JSON text. -/
def isJsonBlank (c : Char) : Bool := c == ' ' || c == '\t' || c == '\n' || c == '\r'

section Progress

theorem scanString_length_le (text : List Char) (units : List StringUnit) (behind : List Char)
    (h : scanString text = some (units, behind)) : behind.length ≤ text.length := by
  fun_induction scanString text generalizing units behind with
  | case1 => cases h
  | case2 rest =>
      injection h with h
      injection h with _ hb
      subst hb
      simp
  | case3 => cases h
  | case4 a b c d rest n hcode ih =>
      obtain ⟨⟨u, v⟩, hscan, heq⟩ := Option.map_eq_some_iff.mp h
      injection heq with _ hb
      subst hb
      have := ih _ _ hscan
      simp only [List.length_cons]
      omega
  | case5 => cases h
  | case6 e rest hne c hesc ih =>
      obtain ⟨⟨u, v⟩, hscan, heq⟩ := Option.map_eq_some_iff.mp h
      injection heq with _ hb
      subst hb
      have := ih _ _ hscan
      simp only [List.length_cons]
      omega
  | case7 => cases h
  | case8 c rest h1 h2 h3 h4 ih =>
      obtain ⟨⟨u, v⟩, hscan, heq⟩ := Option.map_eq_some_iff.mp h
      injection heq with _ hb
      subst hb
      have := ih _ _ hscan
      simp only [List.length_cons]
      omega

theorem length_dropWhile_le {β : Type} (p : β → Bool) (xs : List β) :
    (xs.dropWhile p).length ≤ xs.length :=
  List.Sublist.length_le (List.dropWhile_sublist p)

theorem takeSign_length_le (text : List Char) : (takeSign text).2.length ≤ text.length := by
  unfold takeSign
  split <;> simp

theorem scanExponent_length_le {text behind : List Char} {exponent : Option Int}
    (h : scanExponent text = some (exponent, behind)) : behind.length ≤ text.length := by
  unfold scanExponent at h
  split at h
  · next e rest =>
      split at h
      · simp only at h
        split at h
        · cases h
        · injection h with h
          injection h with _ hb
          subst hb
          have hsign := takeSign_length_le rest
          have hdrop := length_dropWhile_le isDigit (takeSign rest).2
          simp only [List.length_cons]
          omega
      · injection h with h
        injection h with _ hb
        subst hb
        exact Nat.le_refl _
  · injection h with h
    injection h with _ hb
    subst hb
    exact Nat.le_refl _

theorem scanFraction_length_le {text behind : List Char} {fraction : Option (List Char)}
    (h : scanFraction text = some (fraction, behind)) : behind.length ≤ text.length := by
  unfold scanFraction at h
  split at h
  · next rest =>
      simp only at h
      split at h
      · cases h
      · injection h with h
        injection h with _ hb
        subst hb
        have hdrop := length_dropWhile_le isDigit rest
        simp only [List.length_cons]
        omega
  · injection h with h
    injection h with _ hb
    subst hb
    exact Nat.le_refl _

theorem length_dropWhile_lt {β : Type} {p : β → Bool} {xs : List β}
    (h : (xs.takeWhile p).isEmpty = false) : (xs.dropWhile p).length < xs.length := by
  have hsplit := congrArg List.length (List.takeWhile_append_dropWhile (p := p) (l := xs))
  rw [List.length_append] at hsplit
  cases htake : xs.takeWhile p with
  | nil => simp [htake] at h
  | cons x rest =>
      rw [htake, List.length_cons] at hsplit
      omega

theorem scanNumberLexeme_shortens {text behind : List Char} {lexeme : NumberLexeme}
    (h : scanNumberLexeme text = some (lexeme, behind)) : behind.length < text.length := by
  unfold scanNumberLexeme at h
  generalize hbody : (if text.head? = some '-' then (true, text.tail) else (false, text)) = pair at h
  obtain ⟨negative, body⟩ := pair
  have hle : body.length ≤ text.length := by
    split at hbody <;> cases hbody <;> simp
  simp only at h
  split at h
  · cases h
  · next hwhole =>
      obtain ⟨⟨fraction, afterFraction⟩, hfraction, h⟩ := Option.bind_eq_some_iff.mp h
      obtain ⟨⟨exponent, afterExponent⟩, hexponent, h⟩ := Option.bind_eq_some_iff.mp h
      injection h with h
      injection h with _ hb
      subst hb
      have hempty : (body.takeWhile isDigit).isEmpty = false := by
        cases hcase : (body.takeWhile isDigit).isEmpty with
        | false => rfl
        | true => simp [hcase] at hwhole
      have hdrop := length_dropWhile_lt hempty
      have h1 : afterFraction.length ≤ (body.dropWhile isDigit).length :=
        scanFraction_length_le hfraction
      have h2 : afterExponent.length ≤ afterFraction.length := scanExponent_length_le hexponent
      show afterExponent.length < text.length
      omega

theorem scanToken_shortens {text behind : List Char} {token : JsonToken}
    (h : scanToken text = some (token, behind)) : behind.length < text.length := by
  unfold scanToken at h
  split at h
  case h_10 rest =>
    obtain ⟨⟨units, inner⟩, hscan, heq⟩ := Option.map_eq_some_iff.mp h
    injection heq with _ hb
    subst hb
    have := scanString_length_le _ _ _ hscan
    simp only [List.length_cons]
    omega
  case h_11 =>
    obtain ⟨⟨lexeme, inner⟩, hscan, heq⟩ := Option.map_eq_some_iff.mp h
    injection heq with _ hb
    subst hb
    exact scanNumberLexeme_shortens hscan
  all_goals
    injection h with h
    injection h with _ hb
    subst hb
    simp only [List.length_cons]
    omega

end Progress

set_option linter.unusedVariables false in
/-- The tokens of a text; `none` if it has a part that is no token. -/
def tokens? (text : List Char) : Option (List JsonToken) :=
  match hstart : text.dropWhile isJsonBlank with
  | [] => some []
  | first :: rest =>
      match hscan : scanToken (first :: rest) with
      | none => none
      | some (token, behind) => (tokens? behind).map (token :: ·)
termination_by text.length
decreasing_by
  have hle := length_dropWhile_le isJsonBlank text
  rw [hstart] at hle
  have hlt := scanToken_shortens hscan
  omega

end Backtester
