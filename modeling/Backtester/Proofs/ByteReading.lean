import Backtester.Condition.Reading
import Mathlib.Data.List.Basic

/-!
# Reading by byte positions

The reader of condition texts once more, over one byte position in a text that stays whole.  Every
look at the text is a slice from the position, which exists only between two characters, and every
move adds a number of bytes to the position.  What can go wrong here and not with a `Cursor` stops
the reader: a slice inside a character, a loop that goes on for more rounds than the text has
characters, and digits that are no number.

* `dropBytes?`, `takeBytes?` — slices by bytes.
* `ByteReader` — readers that note every position they move to.
* `ByteReader.remaining`, `ByteReader.advance`, `ByteReader.skipWhile` — a look, a move and a loop.
* `ByteReader.peekKeyword`, `ByteReader.peekCall`, `ByteReader.peekWord` — what stands at the
  position.
* `ByteReader.readOperand`, `ByteReader.readComparator`, `ByteReader.readCondition`,
  `ByteReader.readRule` — the grammar.
-/

namespace Backtester

/-! ## Slices by bytes -/

/-- The text behind a number of bytes, unless these end inside a character. -/
def dropBytes? : List Char → Nat → Option (List Char)
  | text, 0 => some text
  | [], _ + 1 => none
  | c :: rest, n + 1 => if n + 1 < c.utf8Size then none else dropBytes? rest (n + 1 - c.utf8Size)

/-- The first bytes of a text, unless these end inside a character. -/
def takeBytes? : List Char → Nat → Option (List Char)
  | _, 0 => some []
  | [], _ + 1 => none
  | c :: rest, n + 1 =>
      if n + 1 < c.utf8Size then none else (takeBytes? rest (n + 1 - c.utf8Size)).map (c :: ·)

/-! ## Readers -/

/-- Why a reader stops. -/
inductive ByteStop where
  /-- A slice would begin or end inside a character. -/
  | split
  /-- A loop goes on for more rounds than the text has characters. -/
  | endless
  /-- The characters of a number are no number. -/
  | badNumber
  /-- The text does not follow the grammar. -/
  | problem (p : TextProblem)

/-- A reader takes the positions that were visited, the newest one first, and adds to them. -/
def ByteReader (β : Type) : Type := List Nat → Except ByteStop β × List Nat

namespace ByteReader

/-- Reads on behind a reader, from the positions it leaves. -/
protected def bind {β γ : Type} (first : ByteReader β) (second : β → ByteReader γ) :
    ByteReader γ := fun visited =>
  match first visited with
  | (.ok x, visited) => second x visited
  | (.error reason, visited) => (.error reason, visited)

instance : Monad ByteReader where
  pure x := fun visited => (.ok x, visited)
  bind := ByteReader.bind

/-- The newest position. -/
def position : ByteReader Nat := fun visited => (.ok (visited.headD 0), visited)

/-- Moves over some bytes. -/
def moveBy (bytes : Nat) : ByteReader Unit := fun visited =>
  (.ok (), (visited.headD 0 + bytes) :: visited)

/-- Stops. -/
def stop {β : Type} (reason : ByteStop) : ByteReader β := fun visited => (.error reason, visited)

/-- Stops with a problem at a position. -/
def problemAt {β : Type} (place : Nat) (cause : TextCause) : ByteReader β :=
  stop (.problem ⟨cause, place⟩)

/-- Takes a slice, or stops if it would split a character. -/
def slice (part : Option (List Char)) : ByteReader (List Char) :=
  match part with
  | some part => pure part
  | none => stop .split

section

variable (text : List Char)

/-- The text behind the position. -/
def remaining : ByteReader (List Char) := do slice (dropBytes? text (← position))

/-- The text from an earlier position up to the position. -/
def sliceFrom (start : Nat) : ByteReader (List Char) := do
  let behind ← slice (dropBytes? text start)
  slice (takeBytes? behind ((← position) - start))

/-- The character at the position. -/
def peek : ByteReader (Option Char) := return (← remaining text).head?

/-- Moves over the character at the position. -/
def advance : ByteReader Unit := do
  match ← peek text with
  | some next => moveBy next.utf8Size
  | none => return ()

/-- Moves over characters of a class. -/
def skipWhile (p : Char → Bool) : (rounds : Nat) → ByteReader Unit
  | 0 => stop .endless
  | rounds + 1 => do
      match ← peek text with
      | some next =>
          if p next then
            advance text
            skipWhile p rounds
          else return ()
      | none => return ()

/-- Moves over blanks. -/
def skipBlanks : ByteReader Unit := skipWhile text isBlank (text.length + 1)

/-- Nothing but blanks is left. -/
def atEnd : ByteReader Bool := do
  skipBlanks text
  return decide (byteSize text ≤ (← position))

/-- Reads one given character after optional blanks. -/
def expectChar (wanted : Char) : ByteReader Unit := do
  skipBlanks text
  match ← peek text with
  | some next =>
      if next = wanted then advance text
      else problemAt (← position) (.wantedChar wanted (some next))
  | none => problemAt (← position) (.wantedChar wanted none)

/-- A word of the grammar stands at the position, and no character of a longer name behind it. -/
def peekKeyword (keyword : List Char) : ByteReader Bool := do
  let rest ← remaining text
  match takeBytes? rest (byteSize keyword) with
  | some first =>
      if equalIgnoringCase first keyword then
        let behind ← slice (dropBytes? rest (byteSize keyword))
        return !behind.head?.any isWordChar
      else return false
  | none => return false

/-- A sign stands at the position. -/
def peekSign (sign : List Char) : ByteReader Bool := return sign.isPrefixOf (← remaining text)

/-- The longest name, else the single character, else the end at the position. -/
def peekWord : ByteReader String := do
  let word := (← remaining text).takeWhile isWordChar
  if word.isEmpty then
    match ← peek text with
    | some next => return next.toString
    | none => return "end of input"
  else return String.ofList word

/-- A word of the grammar stands at the position, then an opening parenthesis. -/
def peekCall (name : List Char) : ByteReader Bool := do
  if ← peekKeyword text name then
    let behind ← slice (dropBytes? (← remaining text) (byteSize name))
    return (trimStart behind).head? == some '('
  else return false

end

/-- Moves over a token, if it stands at the position. -/
def consume (peekToken : List Char → ByteReader Bool) (token : List Char) : ByteReader Bool := do
  if ← peekToken token then
    moveBy (byteSize token)
    return true
  else return false

/-- Moves over the first token of some entries that stands at the position, for its comparator. -/
def consumeFirst (peekToken : List Char → ByteReader Bool) :
    List (List Char × Comparator) → ByteReader (Option Comparator)
  | [] => return none
  | (token, comparator) :: rest => do
      if ← consume peekToken token then return some comparator
      else consumeFirst peekToken rest

section

variable (text : List Char)

/-! ## The grammar -/

/-- Moves over digits with at most one point among them and counts the digits. -/
def countDigits : (rounds : Nat) → (pointed : Bool) → (digits : Nat) → ByteReader Nat
  | 0, _, _ => stop .endless
  | rounds + 1, pointed, digits => do
      match ← peek text with
      | some next =>
          if isDigit next then
            advance text
            countDigits rounds pointed (digits + 1)
          else if next == '.' && !pointed then
            advance text
            countDigits rounds true digits
          else return digits
      | none => return digits

/-- Moves over a minus sign, if one stands at the position. -/
def skipSign : ByteReader Unit := do
  if (← peek text) == some '-' then advance text else return ()

variable {α : Type} [Scalar α]

/-- Reads a number. -/
def readLiteral : ByteReader (Operand α) := do
  skipBlanks text
  let start ← position
  skipSign text
  if (← countDigits text (text.length + 1) false 0) = 0 then problemAt start .wantedNumber
  else
    match readNumber (← sliceFrom text start) with
    | some number => return .literal number.value
    | none => stop .badNumber

/-- Reads a number or a name. -/
def readOperand : ByteReader (Operand α) := do
  skipBlanks text
  match ← peek text with
  | some next =>
      if isDigit next || next == '-' || next == '.' then readLiteral text
      else if isAlphabetic next || next == '_' then
        let word ← peekWord text
        moveBy (byteSize word.toList)
        return .column (lowered word)
      else problemAt (← position) (.wantedOperand (← peekWord text))
  | none => problemAt (← position) (.wantedOperand (← peekWord text))

/-- Reads a comparator. -/
def readComparator : ByteReader Comparator := do
  skipBlanks text
  match ← consumeFirst (peekSign text) comparatorSigns with
  | some comparator => return comparator
  | none =>
      match ← consumeFirst (peekKeyword text) comparatorWords with
      | some comparator => return comparator
      | none => problemAt (← position) (.wantedComparator (← peekWord text))

/-- Reads the parenthesised operands of a comparison in call form. -/
def readArguments (comparator : Comparator) : ByteReader (Condition α) := do
  expectChar text '('
  let left ← readOperand text
  expectChar text ','
  let right ← readOperand text
  expectChar text ')'
  return ⟨left, comparator, right⟩

/-- Reads operand, comparator and operand. -/
def readComparison : ByteReader (Condition α) := do
  let left ← readOperand text
  let comparator ← readComparator text
  let right ← readOperand text
  return ⟨left, comparator, right⟩

/-- Reads one condition. -/
def readCondition : ByteReader (Condition α) := do
  skipBlanks text
  match ← consumeFirst (peekCall text) callNames with
  | some comparator => readArguments text comparator
  | none => readComparison text

/-- Moves over `and` or `&&`, if one of them stands at the position. -/
def consumeConjunction : ByteReader Bool := do
  if ← consume (peekKeyword text) "and".toList then return true
  else consume (peekSign text) ['&', '&']

/-- Reads further conditions, as long as `and` or `&&` joins another one. -/
def readMore : (rounds : Nat) → ByteReader (List (Condition α))
  | 0 => stop .endless
  | rounds + 1 => do
      skipBlanks text
      if ← consumeConjunction text then
        let c ← readCondition text
        let rest ← readMore rounds
        return c :: rest
      else return []

/-- Reads a whole text as conditions joined by `and`. -/
def readRule : ByteReader (List (Condition α)) := do
  if ← atEnd text then problemAt (← position) .empty
  else
    let c ← readCondition text
    let rest ← readMore text (text.length + 1)
    if ← atEnd text then return c :: rest
    else problemAt (← position) (.leftover (← peekWord text))

end

end ByteReader

end Backtester
