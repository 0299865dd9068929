import Backtester.Condition
import Backtester.Condition.Problem
import Backtester.Number.Reading

/-!
# Reading condition texts

The grammar, with optional blanks between tokens:

* rule: condition, then `and` or `&&` and another condition, any number of times;
* condition: `name ( operand , operand )` with one of the names `crosses_above`, `crosses_below`,
  `above`, `below` and `equals`, or operand comparator operand;
* comparator: `>`, `<`, `>=`, `<=`, `==`, `=`, `crosses_above` or `crosses_below`;
* operand: a number, that is an optional minus sign and digits with at most one point, or a name,
  which starts with a letter or an underscore and is read in lower case.

Words of the grammar are read in any ASCII letter case and never as the beginning of a longer name.

A `Cursor` holds the text in two parts, the characters passed and those to come, so a position is
always a boundary between characters, and readers only ever move characters from the second part to
the first.
-/

namespace Backtester

/-- A place in a text: the characters before it and those after it. -/
structure Cursor where
  /-- The characters before the place. -/
  passed : List Char
  /-- The characters after the place. -/
  rest : List Char

namespace Cursor

/-- The place before a text. -/
def start (text : List Char) : Cursor := ⟨[], text⟩

/-- The number of bytes before the place. -/
def position (c : Cursor) : Nat := byteSize c.passed

/-- Moves over the next `n` characters. -/
def advance (c : Cursor) (n : Nat) : Cursor := ⟨c.passed ++ c.rest.take n, c.rest.drop n⟩

/-- Moves over the longest run of characters of a class. -/
def skipWhile (c : Cursor) (p : Char → Bool) : Cursor :=
  ⟨c.passed ++ c.rest.takeWhile p, c.rest.dropWhile p⟩

/-- Moves over blanks. -/
def skipBlanks (c : Cursor) : Cursor := c.skipWhile isBlank

/-- A problem at the place. -/
def problem (c : Cursor) (cause : TextCause) : TextProblem := ⟨cause, c.position⟩

/-- The longest name, else the single character, else the end that follows the place. -/
def peekWord (c : Cursor) : String :=
  match c.rest.takeWhile isWordChar, c.rest with
  | [], [] => "end of input"
  | [], next :: _ => next.toString
  | word, _ => String.ofList word

end Cursor

/-- Two texts agree when ASCII letter case does not count. -/
def equalIgnoringCase (a b : List Char) : Bool := a.map asciiLower == b.map asciiLower

/-- A word of the grammar follows the cursor and no character of a longer name follows the word. -/
def startsWithKeyword (keyword : List Char) (c : Cursor) : Bool :=
  equalIgnoringCase (c.rest.take keyword.length) keyword &&
    !((c.rest.drop keyword.length).head?.any isWordChar)

/-- A word of the grammar follows the cursor, then an opening parenthesis. -/
def startsWithCall (name : List Char) (c : Cursor) : Bool :=
  startsWithKeyword name c && (trimStart (c.rest.drop name.length)).head? == some '('

/-- Reads one given character after optional blanks. -/
def expectChar (wanted : Char) (c : Cursor) : Except TextProblem Cursor :=
  let c := c.skipBlanks
  match c.rest with
  | next :: _ =>
      if next = wanted then .ok (c.advance 1)
      else .error (c.problem (.wantedChar wanted (some next)))
  | [] => .error (c.problem (.wantedChar wanted none))

/-- The parts of a number at the start of a text: the sign, the digits before and after the point,
and the text behind it. -/
def scanNumber (text : List Char) : Bool × List Char × List Char × List Char :=
  match text with
  | '-' :: body => (true, takeDecimal body)
  | body => (false, takeDecimal body)

/-- Reads a number at the cursor. -/
def readLiteral {α : Type} [Scalar α] (c : Cursor) : Except TextProblem (Operand α × Cursor) :=
  match scanNumber c.rest with
  | (negative, whole, fraction, behind) =>
      if whole.isEmpty && fraction.isEmpty then .error (c.problem .wantedNumber)
      else
        .ok (.literal (Scalar.ofDecimal negative (digitsValue (whole ++ fraction)) (-fraction.length)),
          c.advance (c.rest.length - behind.length))

/-- Reads a number or a name after optional blanks. -/
def readOperand {α : Type} [Scalar α] (c : Cursor) : Except TextProblem (Operand α × Cursor) :=
  let c := c.skipBlanks
  match c.rest with
  | next :: _ =>
      -- A sign or a point always starts a number, even where no digit follows.
      if isDigit next || next == '-' || next == '.' then readLiteral c
      else if isAlphabetic next || next == '_' then
        .ok (.column (String.ofList (lowerText (c.rest.takeWhile isWordChar))), c.skipWhile isWordChar)
      else .error (c.problem (.wantedOperand c.peekWord))
  | [] => .error (c.problem (.wantedOperand c.peekWord))

/-- The comparators written in signs, longer ones first. -/
def comparatorSigns : List (List Char × Comparator) :=
  [(['>', '='], .ge), (['<', '='], .le), (['=', '='], .eq), (['>'], .gt), (['<'], .lt), (['='], .eq)]

/-- The comparators written as words. -/
def comparatorWords : List (List Char × Comparator) :=
  [("crosses_above".toList, .crossesAbove), ("crosses_below".toList, .crossesBelow)]

/-- The names of comparisons in call form. -/
def callNames : List (List Char × Comparator) :=
  [("crosses_above".toList, .crossesAbove), ("crosses_below".toList, .crossesBelow),
    ("above".toList, .gt), ("below".toList, .lt), ("equals".toList, .eq)]

/-- Reads a comparator after optional blanks. -/
def readComparator (c : Cursor) : Except TextProblem (Comparator × Cursor) :=
  let c := c.skipBlanks
  match comparatorSigns.find? (fun (sign, _) => sign.isPrefixOf c.rest) with
  | some (sign, comparator) => .ok (comparator, c.advance sign.length)
  | none =>
      match comparatorWords.find? (fun (word, _) => startsWithKeyword word c) with
      | some (word, comparator) => .ok (comparator, c.advance word.length)
      | none => .error (c.problem (.wantedComparator c.peekWord))

/-- Reads the parenthesised operands of a comparison in call form. -/
def readArguments {α : Type} [Scalar α] (comparator : Comparator) (c : Cursor) :
    Except TextProblem (Condition α × Cursor) := do
  let c ← expectChar '(' c
  let (left, c) ← readOperand c
  let c ← expectChar ',' c
  let (right, c) ← readOperand c
  let c ← expectChar ')' c
  return (⟨left, comparator, right⟩, c)

/-- Reads operand, comparator and operand. -/
def readComparison {α : Type} [Scalar α] (c : Cursor) :
    Except TextProblem (Condition α × Cursor) := do
  let (left, c) ← readOperand c
  let (comparator, c) ← readComparator c
  let (right, c) ← readOperand c
  return (⟨left, comparator, right⟩, c)

/-- Reads one condition after optional blanks. -/
def readCondition {α : Type} [Scalar α] (c : Cursor) : Except TextProblem (Condition α × Cursor) :=
  let c := c.skipBlanks
  match callNames.find? (fun (name, _) => startsWithCall name c) with
  | some (name, comparator) => readArguments comparator (c.advance name.length)
  | none => readComparison c

/-- Moves over `and` or `&&` after optional blanks, if one of them follows. -/
def skipConjunction (c : Cursor) : Option Cursor :=
  let c := c.skipBlanks
  if startsWithKeyword "and".toList c then some (c.advance 3)
  else if ['&', '&'].isPrefixOf c.rest then some (c.advance 2)
  else none

section Progress

theorem rest_advance_length (c : Cursor) (n : Nat) :
    (c.advance n).rest.length = c.rest.length - n := by
  simp [Cursor.advance]

theorem rest_skipWhile_length_le (c : Cursor) (p : Char → Bool) :
    (c.skipWhile p).rest.length ≤ c.rest.length :=
  List.Sublist.length_le (List.dropWhile_sublist p)

theorem rest_skipBlanks_length_le (c : Cursor) : c.skipBlanks.rest.length ≤ c.rest.length :=
  rest_skipWhile_length_le c isBlank

/-- A reader that is a sequence of two succeeds exactly when both do. -/
theorem bind_eq_ok {ε β γ : Type} {first : Except ε β} {second : β → Except ε γ}
    {value : γ} :
    (first >>= second) = .ok value ↔ ∃ x, first = .ok x ∧ second x = .ok value := by
  cases first with
  | error e => simp [bind, Except.bind]
  | ok x => simp [bind, Except.bind]

theorem expectChar_shortens {wanted : Char} {c c' : Cursor} (h : expectChar wanted c = .ok c') :
    c'.rest.length < c.rest.length := by
  have hle := rest_skipBlanks_length_le c
  unfold expectChar at h
  cases hrest : c.skipBlanks.rest with
  | nil => simp [hrest] at h
  | cons next rest =>
      simp only [hrest] at h
      split at h
      · injection h with h
        subst h
        rw [rest_advance_length, hrest]
        rw [hrest] at hle
        simp at hle ⊢
        omega
      · cases h

theorem takeDecimal_length_le (text : List Char) :
    (takeDecimal text).2.2.length + (takeDecimal text).1.length + (takeDecimal text).2.1.length
      ≤ text.length := by
  have hsplit : text.takeWhile isDigit ++ text.dropWhile isDigit = text :=
    List.takeWhile_append_dropWhile
  have hlength := congrArg List.length hsplit
  simp only [List.length_append] at hlength
  unfold takeDecimal
  split
  · next rest hrest =>
      have hinner : rest.takeWhile isDigit ++ rest.dropWhile isDigit = rest :=
        List.takeWhile_append_dropWhile
      have hinnerLength := congrArg List.length hinner
      simp only [List.length_append] at hinnerLength
      rw [hrest] at hlength
      simp only [List.length_cons] at hlength ⊢
      omega
  · simp only [List.length_nil]
    omega

theorem scanNumber_length_le (text : List Char) :
    (scanNumber text).2.2.2.length + (scanNumber text).2.1.length + (scanNumber text).2.2.1.length
      ≤ text.length := by
  unfold scanNumber
  split
  · next body =>
      have hbody := takeDecimal_length_le body
      simp only [List.length_cons]
      omega
  · exact takeDecimal_length_le text

theorem readLiteral_shortens {α : Type} [Scalar α] {c c' : Cursor} {x : Operand α}
    (h : readLiteral c = .ok (x, c')) : c'.rest.length < c.rest.length := by
  have hle := scanNumber_length_le c.rest
  unfold readLiteral at h
  split at h
  next negative whole fraction behind hscan =>
    rw [hscan] at hle
    simp only at hle
    split at h
    · cases h
    · next hdigits =>
        injection h with h
        injection h with _ hc
        subst hc
        rw [rest_advance_length]
        have hpositive : 0 < whole.length + fraction.length := by
          cases whole with
          | cons d ds => simp only [List.length_cons]; omega
          | nil =>
              cases fraction with
              | cons d ds => simp only [List.length_cons]; omega
              | nil => simp at hdigits
        omega

theorem isWordChar_of_isAlphabetic {next : Char} (h : (isAlphabetic next || next == '_') = true) :
    isWordChar next = true := by
  unfold isWordChar
  cases ha : isAlphabetic next <;> simp_all

theorem readOperand_shortens {α : Type} [Scalar α] {c c' : Cursor} {x : Operand α}
    (h : readOperand c = .ok (x, c')) : c'.rest.length < c.rest.length := by
  have hle := rest_skipBlanks_length_le c
  unfold readOperand at h
  cases hrest : c.skipBlanks.rest with
  | nil => simp [hrest] at h
  | cons next rest =>
      simp only [hrest] at h
      split at h
      · exact Nat.lt_of_lt_of_le (readLiteral_shortens h) hle
      · split at h
        · next hname =>
            injection h with h
            injection h with _ hc
            subst hc
            have hword := isWordChar_of_isAlphabetic hname
            have htail := List.Sublist.length_le (List.dropWhile_sublist (l := rest) isWordChar)
            rw [hrest] at hle
            simp only [Cursor.skipWhile, hrest, List.dropWhile_cons, hword, if_true, List.length_cons]
              at hle ⊢
            omega
        · cases h

theorem readComparator_length_le {c c' : Cursor} {x : Comparator}
    (h : readComparator c = .ok (x, c')) : c'.rest.length ≤ c.rest.length := by
  have hle := rest_skipBlanks_length_le c
  unfold readComparator at h
  simp only at h
  split at h
  · injection h with h
    injection h with _ hc
    subst hc
    rw [rest_advance_length]
    omega
  · split at h
    · injection h with h
      injection h with _ hc
      subst hc
      rw [rest_advance_length]
      omega
    · cases h

theorem readArguments_shortens {α : Type} [Scalar α] {comparator : Comparator} {c c' : Cursor}
    {x : Condition α} (h : readArguments comparator c = .ok (x, c')) :
    c'.rest.length < c.rest.length := by
  unfold readArguments at h
  obtain ⟨c1, h1, h⟩ := bind_eq_ok.mp h
  obtain ⟨⟨left, c2⟩, h2, h⟩ := bind_eq_ok.mp h
  obtain ⟨c3, h3, h⟩ := bind_eq_ok.mp h
  obtain ⟨⟨right, c4⟩, h4, h⟩ := bind_eq_ok.mp h
  obtain ⟨c5, h5, h⟩ := bind_eq_ok.mp h
  injection h with h
  injection h with _ hc
  subst hc
  have s1 := expectChar_shortens h1
  have s2 := readOperand_shortens h2
  have s3 := expectChar_shortens h3
  have s4 := readOperand_shortens h4
  have s5 := expectChar_shortens h5
  omega

theorem readComparison_shortens {α : Type} [Scalar α] {c c' : Cursor} {x : Condition α}
    (h : readComparison c = .ok (x, c')) : c'.rest.length < c.rest.length := by
  unfold readComparison at h
  obtain ⟨⟨left, c1⟩, h1, h⟩ := bind_eq_ok.mp h
  obtain ⟨⟨comparator, c2⟩, h2, h⟩ := bind_eq_ok.mp h
  obtain ⟨⟨right, c3⟩, h3, h⟩ := bind_eq_ok.mp h
  injection h with h
  injection h with _ hc
  subst hc
  have s1 := readOperand_shortens h1
  have s2 := readComparator_length_le h2
  have s3 := readOperand_shortens h3
  omega

theorem readCondition_shortens {α : Type} [Scalar α] {c c' : Cursor} {x : Condition α}
    (h : readCondition c = .ok (x, c')) : c'.rest.length < c.rest.length := by
  have hle := rest_skipBlanks_length_le c
  unfold readCondition at h
  simp only at h
  split at h
  · have s := readArguments_shortens h
    rw [rest_advance_length] at s
    omega
  · have s := readComparison_shortens h
    omega

theorem skipConjunction_length_le {c c' : Cursor} (h : skipConjunction c = some c') :
    c'.rest.length ≤ c.rest.length := by
  have hle := rest_skipBlanks_length_le c
  unfold skipConjunction at h
  simp only at h
  split at h
  · injection h with hc
    subst hc
    rw [rest_advance_length]
    omega
  · split at h
    · injection h with hc
      subst hc
      rw [rest_advance_length]
      omega
    · cases h

end Progress

set_option linter.unusedVariables false in
/-- Reads conditions as long as `and` or `&&` joins another one. -/
def readConditions {α : Type} [Scalar α] (c : Cursor) :
    Except TextProblem (List (Condition α) × Cursor) :=
  match hfirst : readCondition c with
  | .error e => .error e
  | .ok (x, c1) =>
      match hnext : skipConjunction c1 with
      | none => .ok ([x], c1)
      | some c2 =>
          match readConditions c2 with
          | .error e => .error e
          | .ok (xs, c3) => .ok (x :: xs, c3)
termination_by c.rest.length
decreasing_by
  have s1 := readCondition_shortens hfirst
  have s2 := skipConjunction_length_le hnext
  omega

/-- Reads a whole text as conditions joined by `and`. -/
def readRule {α : Type} [Scalar α] (text : List Char) : Except TextProblem (List (Condition α)) :=
  let c := (Cursor.start text).skipBlanks
  if c.rest.isEmpty then .error (c.problem .empty)
  else
    match readConditions c with
    | .error e => .error e
    | .ok (conditions, c) =>
        let c := c.skipBlanks
        if c.rest.isEmpty then .ok conditions else .error (c.problem (.leftover c.peekWord))

/-- The conditions of a rule text. -/
def Condition.ofText? {α : Type} [Scalar α] (text : String) :
    Except TextProblem (List (Condition α)) :=
  readRule text.toList

end Backtester
