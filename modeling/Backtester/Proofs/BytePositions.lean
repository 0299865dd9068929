import Backtester.Proofs.ByteReading
import Mathlib.Tactic.IntervalCases

/-!
# Byte positions and cursors

A position of a `ByteReader` belongs to a `Cursor` when its number of bytes is the size of the
characters passed.  From there a slice by bytes is a cut between characters, and each reader over
bytes ends as the reader over cursors does: with the same result and the position of the same
cursor, or with the same problem.

* `dropBytes?_append`, `takeBytes?_append` — slices that end between characters.
* `Describes`, `TextProblem.Honest` — what a problem says of the text at its position.
* `ByteReader.IsBoundary`, `ByteReader.Trail` — positions between characters, in ascending order.
* `ByteReader.At`, `ByteReader.Ends`, `ByteReader.Simulates` — the correspondence.
* `ByteReader.Simulates.bind`, `ByteReader.Simulates.andThen` — one reader after another.
* `ByteReader.simulates_moveBy` — a move by the bytes of the characters that come next, on which
  all others rest.
* `ByteReader.simulates_peekKeyword` — a slice of the size of a word may end inside a character,
  and then it is not taken.
-/

namespace Backtester

/-! ## Sizes and slices -/

@[simp] theorem byteSize_append (xs ys : List Char) :
    byteSize (xs ++ ys) = byteSize xs + byteSize ys := by
  induction xs with
  | nil => simp [byteSize]
  | cons c rest ih => rw [List.cons_append, byteSize, byteSize, ih, Nat.add_assoc]

theorem byteSize_cons_pos (c : Char) (rest : List Char) : 0 < byteSize (c :: rest) :=
  Nat.lt_of_lt_of_le c.utf8Size_pos (Nat.le_add_right _ _)

theorem byteSize_eq_zero_iff {text : List Char} : byteSize text = 0 ↔ text = [] := by
  cases text with
  | nil => simp [byteSize]
  | cons c rest => simp [Nat.ne_of_gt (byteSize_cons_pos c rest)]

theorem byteSize_toList (text : String) : byteSize text.toList = text.utf8ByteSize := by
  have hofList (chars : List Char) : (String.ofList chars).utf8ByteSize = byteSize chars := by
    induction chars with
    | nil => rfl
    | cons c rest ih =>
        rw [← List.singleton_append, String.ofList_append, String.utf8ByteSize_append, ih]
        simp [byteSize]
  rw [← hofList, String.ofList_toList]

/-- The bytes of a text with a first character, as a slice takes them. -/
theorem exists_byteSize_cons (c : Char) (rest : List Char) :
    ∃ n, byteSize (c :: rest) = n + 1 ∧ n + 1 - c.utf8Size = byteSize rest ∧
      ¬n + 1 < c.utf8Size := by
  obtain ⟨n, hn⟩ := Nat.exists_eq_add_one.mpr (byteSize_cons_pos c rest)
  have hsize : byteSize (c :: rest) = c.utf8Size + byteSize rest := rfl
  exact ⟨n, hn, by omega, by omega⟩

theorem dropBytes?_append (before after : List Char) :
    dropBytes? (before ++ after) (byteSize before) = some after := by
  induction before with
  | nil => cases after <;> rfl
  | cons c rest ih =>
      obtain ⟨n, hn, hrest, hfits⟩ := exists_byteSize_cons c rest
      rw [hn, List.cons_append, dropBytes?, if_neg hfits, hrest, ih]

theorem takeBytes?_append (before after : List Char) :
    takeBytes? (before ++ after) (byteSize before) = some before := by
  induction before with
  | nil => cases after <;> rfl
  | cons c rest ih =>
      obtain ⟨n, hn, hrest, hfits⟩ := exists_byteSize_cons c rest
      rw [hn, List.cons_append, takeBytes?, if_neg hfits, hrest, ih, Option.map_some]

/-- The first bytes of a text are the bytes of its first characters. -/
theorem exists_of_takeBytes? {text part : List Char} {n : Nat} (h : takeBytes? text n = some part) :
    ∃ behind, text = part ++ behind ∧ byteSize part = n := by
  induction text generalizing part n with
  | nil =>
      cases n with
      | zero =>
          obtain rfl := Option.some.inj h
          exact ⟨[], rfl, rfl⟩
      | succ n => cases h
  | cons c rest ih =>
      cases n with
      | zero =>
          obtain rfl := Option.some.inj h
          exact ⟨c :: rest, rfl, rfl⟩
      | succ n =>
          rw [takeBytes?] at h
          split at h
          · cases h
          · next hfits =>
              obtain ⟨part, hpart, rfl⟩ := Option.map_eq_some_iff.mp h
              obtain ⟨behind, rfl, hsize⟩ := ih hpart
              refine ⟨behind, rfl, ?_⟩
              rw [byteSize, hsize]
              omega

theorem utf8Size_asciiLower (c : Char) : (asciiLower c).utf8Size = c.utf8Size := by
  unfold asciiLower
  split
  · next hupper =>
      rw [Bool.and_eq_true, decide_eq_true_iff, decide_eq_true_iff] at hupper
      have hfirst : 0x41 ≤ c.toNat := hupper.1
      have hlast : c.toNat ≤ 0x5A := hupper.2
      rw [← Char.ofNat_toNat c]
      generalize c.toNat = n at hfirst hlast
      interval_cases n <;> rfl
  · rfl

theorem byteSize_map_asciiLower (text : List Char) :
    byteSize (text.map asciiLower) = byteSize text := by
  induction text with
  | nil => rfl
  | cons c rest ih => rw [List.map_cons, byteSize, byteSize, utf8Size_asciiLower, ih]

/-- Texts that agree but for letter case have the same size. -/
theorem sizes_of_equalIgnoringCase {a b : List Char} (h : equalIgnoringCase a b = true) :
    a.length = b.length ∧ byteSize a = byteSize b := by
  have hmap : a.map asciiLower = b.map asciiLower := beq_iff_eq.mp h
  constructor
  · rw [← List.length_map, hmap, List.length_map]
  · rw [← byteSize_map_asciiLower, hmap, byteSize_map_asciiLower]

theorem takeBytes?_of_equalIgnoringCase {rest keyword : List Char}
    (h : equalIgnoringCase (rest.take keyword.length) keyword = true) :
    takeBytes? rest (byteSize keyword) = some (rest.take keyword.length) := by
  have htake := takeBytes?_append (rest.take keyword.length) (rest.drop keyword.length)
  rwa [List.take_append_drop, (sizes_of_equalIgnoringCase h).2] at htake

/-! ## What a problem says of its place -/

/-- The longest name at the start of a text, else its first character, else its end. -/
inductive Quotes : List Char → String → Prop
  | name {word behind : List Char} (hsome : word ≠ [])
      (hword : ∀ c ∈ word, isWordChar c = true)
      (hbehind : ∀ c ∈ behind.head?, isWordChar c = false) :
      Quotes (word ++ behind) (String.ofList word)
  | character {c : Char} {behind : List Char} (hc : isWordChar c = false) :
      Quotes (c :: behind) c.toString
  | ended : Quotes [] "end of input"

/-- What a problem says is so of the text behind its position. -/
inductive Describes : List Char → TextCause → Prop
  | empty : Describes [] .empty
  | character {wanted c : Char} {behind : List Char} (hother : c ≠ wanted) :
      Describes (c :: behind) (.wantedChar wanted (some c))
  | noCharacter {wanted : Char} : Describes [] (.wantedChar wanted none)
  | comparator {rest : List Char} {found : String} (hfound : Quotes rest found) :
      Describes rest (.wantedComparator found)
  | operand {rest : List Char} {found : String} (hfound : Quotes rest found) :
      Describes rest (.wantedOperand found)
  | number {rest : List Char} : Describes rest .wantedNumber
  | leftover {rest : List Char} {found : String} (hsome : rest ≠ []) (hfound : Quotes rest found) :
      Describes rest (.leftover found)

/-- A problem has a position between characters of a text and says what stands there. -/
def TextProblem.Honest (text : List Char) (p : TextProblem) : Prop :=
  ∃ before after, text = before ++ after ∧ byteSize before = p.position ∧ Describes after p.cause

namespace ByteReader

/-! ## Positions that were visited -/

/-- A number of bytes that ends between two characters of a text, or at one of its ends. -/
def IsBoundary (text : List Char) (n : Nat) : Prop :=
  ∃ before after, text = before ++ after ∧ byteSize before = n

/-- All positions are boundaries, and none is before an earlier one; the newest comes first. -/
structure Trail (text : List Char) (visited : List Nat) : Prop where
  boundaries : ∀ n ∈ visited, IsBoundary text n
  ascending : visited.Pairwise fun later earlier => earlier ≤ later

/-- The newest position is that of a cursor in the text. -/
structure At (text : List Char) (visited : List Nat) (c : Cursor) : Prop extends
    Trail text visited where
  whole : c.passed ++ c.rest = text
  newest : visited.head? = some c.position

/-- A reader over bytes ends as a reader over cursors does. -/
inductive Ends {β : Type} (text : List Char) :
    Except ByteStop β × List Nat → Except TextProblem (β × Cursor) → Prop
  | ok {x : β} {visited : List Nat} {c : Cursor} (hat : At text visited c) :
      Ends text (.ok x, visited) (.ok (x, c))
  | problem {p : TextProblem} {visited : List Nat} (htrail : Trail text visited)
      (hhonest : p.Honest text) : Ends text (.error (.problem p), visited) (.error p)

/-- A number of bytes that ends between characters is not more than there are. -/
theorem IsBoundary.le {text : List Char} {n : Nat} (h : IsBoundary text n) : n ≤ byteSize text := by
  obtain ⟨before, after, rfl, rfl⟩ := h
  rw [byteSize_append]
  exact Nat.le_add_right _ _

section

variable {β : Type} {text : List Char} {outcome : Except ByteStop β × List Nat}
  {expected : Except TextProblem (β × Cursor)}

theorem Ends.trail (h : Ends text outcome expected) : Trail text outcome.2 := by
  cases h with
  | ok hat => exact hat.toTrail
  | problem htrail _ => exact htrail

/-- A reader over bytes stops for problems of the text alone. -/
theorem Ends.fst_eq (h : Ends text outcome expected) :
    outcome.1 = (expected.map Prod.fst).mapError ByteStop.problem := by
  cases h with
  | ok => rfl
  | problem => rfl

theorem Ends.honest {p : TextProblem} (h : Ends text outcome (.error p)) : p.Honest text := by
  cases h with
  | problem _ hhonest => exact hhonest

end

/-- From every trail to a cursor, a reader over bytes does what is expected of it. -/
def Simulates {β : Type} (text : List Char) (reader : ByteReader β) (c : Cursor)
    (expected : Except TextProblem (β × Cursor)) : Prop :=
  ∀ visited, At text visited c → Ends text (reader visited) expected

section

variable {β γ : Type} {text : List Char} {c c' : Cursor}

theorem At.headD {visited : List Nat} (h : At text visited c) : visited.headD 0 = c.position := by
  rw [List.headD_eq_head?_getD, h.newest, Option.getD_some]

/-- The newest position is the last one in the text. -/
theorem At.le {visited : List Nat} (h : At text visited c) : ∀ n ∈ visited, n ≤ c.position := by
  obtain ⟨earlier, rfl⟩ := List.head?_eq_some_iff.mp h.newest
  rintro n (_ | ⟨_, hn⟩)
  · exact Nat.le_refl _
  · exact (List.pairwise_cons.mp h.ascending).1 n hn

theorem Simulates.bind {first : ByteReader β} {second : β → ByteReader γ}
    {expected : Except TextProblem (β × Cursor)}
    {next : β × Cursor → Except TextProblem (γ × Cursor)} (hfirst : Simulates text first c expected)
    (hsecond : ∀ x c', expected = .ok (x, c') → Simulates text (second x) c' (next (x, c'))) :
    Simulates text (first >>= second) c (expected >>= next) := by
  intro visited hat
  have hends := hfirst visited hat
  show Ends text (ByteReader.bind first second visited) (expected >>= next)
  unfold ByteReader.bind
  generalize first visited = outcome at hends
  cases hends with
  | ok hat' => exact hsecond _ _ rfl _ hat'
  | problem htrail hhonest => exact .problem htrail hhonest

/-- A step without a result, expected to move a cursor. -/
theorem Simulates.bind_unit {first : ByteReader Unit} {second : Unit → ByteReader γ}
    {expected : Except TextProblem Cursor} {next : Cursor → Except TextProblem (γ × Cursor)}
    (hfirst : Simulates text first c (expected.map fun c' => ((), c')))
    (hsecond : ∀ c', expected = .ok c' → Simulates text (second ()) c' (next c')) :
    Simulates text (first >>= second) c (expected >>= next) := by
  have hboth : Simulates text (first >>= second) c
      ((expected.map fun c' => ((), c')) >>= fun step => next step.2) := by
    refine hfirst.bind fun x c' hexpected => ?_
    cases expected with
    | error p => cases hexpected
    | ok c'' =>
        obtain ⟨-, rfl⟩ := Prod.mk.inj (Except.ok.inj hexpected)
        exact hsecond _ rfl
  cases expected with
  | error p => exact hboth
  | ok c'' => exact hboth

/-- A step that succeeds hands on to the next one. -/
theorem Simulates.andThen {first : ByteReader β} {second : β → ByteReader γ} {x : β}
    {expected : Except TextProblem (γ × Cursor)} (hfirst : Simulates text first c (.ok (x, c')))
    (hsecond : Simulates text (second x) c' expected) :
    Simulates text (first >>= second) c expected := by
  show Simulates text (first >>= second) c (Except.ok (x, c') >>= fun _ => expected)
  refine hfirst.bind ?_
  rintro _ _ ⟨⟩
  exact hsecond

theorem simulates_pure (x : β) : Simulates text (pure x) c (.ok (x, c)) :=
  fun _ hat => .ok hat

/-- A cursor that is reached has the whole text around it. -/
theorem Simulates.of_whole {reader : ByteReader β} {expected : Except TextProblem (β × Cursor)}
    (h : c.passed ++ c.rest = text → Simulates text reader c expected) :
    Simulates text reader c expected :=
  fun visited hat => h hat.whole visited hat

theorem simulates_position : Simulates text position c (.ok (c.position, c)) := by
  intro visited hat
  rw [← hat.headD]
  exact .ok hat

theorem simulates_problemAt {place : Cursor} {cause : TextCause}
    (hwhole : place.passed ++ place.rest = text) (hcause : Describes place.rest cause) :
    Simulates (β := β) text (problemAt place.position cause) c (.error (place.problem cause)) :=
  fun _ hat => .problem hat.toTrail ⟨place.passed, place.rest, hwhole.symm, rfl, hcause⟩

theorem simulates_slice {part : Option (List Char)} {chars : List Char} (h : part = some chars) :
    Simulates text (slice part) c (.ok (chars, c)) := by
  rw [h]
  exact simulates_pure chars

theorem simulates_remaining : Simulates text (remaining text) c (.ok (c.rest, c)) := by
  refine .of_whole fun hwhole => simulates_position.andThen (simulates_slice ?_)
  rw [← hwhole]
  exact dropBytes?_append c.passed c.rest

/-- From an earlier place in the text, the characters up to the position are cut out. -/
theorem simulates_sliceFrom {start : Cursor} (hwhole : start.passed ++ start.rest = text)
    {word : List Char} (hrest : start.rest = word ++ c.rest)
    (hpassed : c.passed = start.passed ++ word) :
    Simulates text (sliceFrom text start.position) c (.ok (word, c)) := by
  have hbehind : dropBytes? text start.position = some start.rest := by
    rw [← hwhole]
    exact dropBytes?_append start.passed start.rest
  have hsize : c.position - start.position = byteSize word := by
    rw [Cursor.position, Cursor.position, hpassed, byteSize_append, Nat.add_sub_cancel_left]
  have hword : takeBytes? start.rest (c.position - start.position) = some word := by
    rw [hsize, hrest, takeBytes?_append]
  exact (simulates_slice hbehind).andThen (simulates_position.andThen (simulates_slice hword))

theorem simulates_peek : Simulates text (peek text) c (.ok (c.rest.head?, c)) :=
  simulates_remaining.andThen (simulates_pure _)

/-- A move over the bytes of the characters that come next. -/
theorem simulates_moveBy {word rest : List Char} (hrest : c.rest = word ++ rest) :
    Simulates text (moveBy (byteSize word)) c (.ok ((), ⟨c.passed ++ word, rest⟩)) := by
  intro visited hat
  have hposition : visited.headD 0 + byteSize word = byteSize (c.passed ++ word) := by
    rw [hat.headD, byteSize_append]
    rfl
  have hwhole : c.passed ++ word ++ rest = text := by
    rw [List.append_assoc, ← hrest, hat.whole]
  show Ends text (.ok (), (visited.headD 0 + byteSize word) :: visited) _
  rw [hposition]
  refine .ok ⟨⟨?_, ?_⟩, hwhole, rfl⟩
  · rintro n (_ | ⟨_, hn⟩)
    · exact ⟨c.passed ++ word, rest, hwhole.symm, rfl⟩
    · exact hat.boundaries n hn
  · refine List.Pairwise.cons (fun n hn => ?_) hat.ascending
    rw [byteSize_append]
    exact Nat.le_add_right_of_le (hat.le n hn)

theorem simulates_advance {next : Char} {rest : List Char} (hrest : c.rest = next :: rest) :
    Simulates text (advance text) c (.ok ((), ⟨c.passed ++ [next], rest⟩)) := by
  have hmove : Simulates text (moveBy (byteSize [next])) c (.ok ((), ⟨c.passed ++ [next], rest⟩)) :=
    simulates_moveBy hrest
  refine simulates_peek.andThen ?_
  rw [hrest]
  exact hmove

/-! ## Loops -/

/-- A loop over characters of a class ends, given more rounds than characters are left. -/
theorem simulates_skipWhile (p : Char → Bool) {rounds : Nat} (hrounds : c.rest.length < rounds) :
    Simulates text (skipWhile text p rounds) c (.ok ((), c.skipWhile p)) := by
  induction rounds generalizing c with
  | zero => omega
  | succ rounds ih =>
      refine simulates_peek.andThen ?_
      obtain ⟨passed, rest⟩ := c
      cases rest with
      | nil => simpa [Cursor.skipWhile] using simulates_pure ()
      | cons next rest =>
          show Simulates text (if p next then _ else _) _ _
          by_cases hp : p next = true
          · rw [if_pos hp]
            refine (simulates_advance rfl).andThen ?_
            have hloop := ih (c := ⟨passed ++ [next], rest⟩) (by simpa using hrounds)
            simpa [Cursor.skipWhile, hp] using hloop
          · rw [if_neg hp]
            simpa [Cursor.skipWhile, hp] using simulates_pure ()

theorem simulates_skipBlanks : Simulates text (skipBlanks text) c (.ok ((), c.skipBlanks)) := by
  refine .of_whole fun hwhole => simulates_skipWhile isBlank ?_
  rw [← hwhole, List.length_append]
  omega

theorem simulates_atEnd :
    Simulates text (atEnd text) c (.ok (c.skipBlanks.rest.isEmpty, c.skipBlanks)) := by
  refine simulates_skipBlanks.andThen (.of_whole fun hwhole => ?_)
  have hend : decide (byteSize text ≤ c.skipBlanks.position) = c.skipBlanks.rest.isEmpty := by
    have hempty : byteSize c.skipBlanks.rest = 0 ↔ c.skipBlanks.rest = [] := byteSize_eq_zero_iff
    rw [Bool.eq_iff_iff, decide_eq_true_iff, List.isEmpty_iff, ← hempty, ← hwhole,
      byteSize_append, Cursor.position]
    omega
  rw [← hend]
  exact simulates_position.andThen (simulates_pure _)

/-! ## What stands at the position -/

/-- A word of the grammar is seen as by a cursor, for letter case does not change its size. -/
theorem simulates_peekKeyword (keyword : List Char) :
    Simulates text (peekKeyword text keyword) c (.ok (startsWithKeyword keyword c, c)) := by
  have hother (hdifferent : ¬equalIgnoringCase (c.rest.take keyword.length) keyword = true) :
      Simulates text (pure false) c (.ok (startsWithKeyword keyword c, c)) := by
    rw [startsWithKeyword, Bool.eq_false_of_not_eq_true hdifferent, Bool.false_and]
    exact simulates_pure false
  refine simulates_remaining.andThen ?_
  cases hfirst : takeBytes? c.rest (byteSize keyword) with
  | none =>
      refine hother fun hsame => ?_
      rw [takeBytes?_of_equalIgnoringCase hsame] at hfirst
      cases hfirst
  | some first =>
      show Simulates text (if equalIgnoringCase first keyword then _ else _) _ _
      by_cases hsame : equalIgnoringCase first keyword = true
      · obtain ⟨behind, hrest, hsize⟩ := exists_of_takeBytes? hfirst
        have hlength := (sizes_of_equalIgnoringCase hsame).1
        have hbehind : dropBytes? c.rest (byteSize keyword) = some behind := by
          rw [hrest, ← hsize, dropBytes?_append]
        rw [if_pos hsame, startsWithKeyword, hrest, ← hlength, List.take_left, List.drop_left,
          hsame, Bool.true_and, ← hrest]
        exact (simulates_slice hbehind).andThen (simulates_pure _)
      · rw [if_neg hsame]
        refine hother fun hsame' => ?_
        rw [takeBytes?_of_equalIgnoringCase hsame', Option.some.injEq] at hfirst
        rw [hfirst] at hsame'
        exact hsame hsame'

theorem simulates_peekWord : Simulates text (peekWord text) c (.ok (c.peekWord, c)) := by
  refine simulates_remaining.andThen ?_
  show Simulates text (if (c.rest.takeWhile isWordChar).isEmpty then _ else _) _ _
  unfold Cursor.peekWord
  cases hword : c.rest.takeWhile isWordChar with
  | nil =>
      rw [List.isEmpty_nil, if_pos rfl]
      refine simulates_peek.andThen ?_
      cases c.rest with
      | nil => exact simulates_pure _
      | cons next rest => exact simulates_pure _
  | cons first word =>
      rw [List.isEmpty_cons, if_neg Bool.false_ne_true]
      exact simulates_pure _

theorem simulates_peekCall (name : List Char) :
    Simulates text (peekCall text name) c (.ok (startsWithCall name c, c)) := by
  refine (simulates_peekKeyword name).andThen ?_
  unfold startsWithCall
  by_cases hkeyword : startsWithKeyword name c = true
  · have hsame : equalIgnoringCase (c.rest.take name.length) name = true := by
      unfold startsWithKeyword at hkeyword
      exact (Bool.and_eq_true_iff.mp hkeyword).1
    have hbehind : dropBytes? c.rest (byteSize name) = some (c.rest.drop name.length) := by
      have hdrop := dropBytes?_append (c.rest.take name.length) (c.rest.drop name.length)
      rwa [List.take_append_drop, (sizes_of_equalIgnoringCase hsame).2] at hdrop
    rw [if_pos hkeyword, hkeyword, Bool.true_and]
    exact simulates_remaining.andThen ((simulates_slice hbehind).andThen (simulates_pure _))
  · rw [if_neg hkeyword, Bool.eq_false_of_not_eq_true hkeyword, Bool.false_and]
    exact simulates_pure _

end

end ByteReader

end Backtester
