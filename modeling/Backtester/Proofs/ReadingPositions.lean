import Backtester.Number.Binary64
import Backtester.Proofs.BytePositions
import Backtester.Proofs.Grammar

/-!
# Positions while reading

Every reader of the grammar over byte positions does what the reader over cursors does, so a whole
text is read to the same end: no slice splits a character, no loop runs out of rounds, and the
digits that are counted always form a number.

* `quotes_peekWord` — the word that a problem names is what stands at its position.
* `ByteReader.Sees` — looks at the position that are exact in the bytes of the token they see.
* `ByteReader.simulates_countDigits`, `ByteReader.simulates_readLiteral` — a number is scanned one
  character at a time, with the slice of its characters read as a whole.
* `ByteReader.simulates_readMore` — the loop over conditions, whose rounds are bounded by the
  characters that are left.
* `ByteReader.lt_of_readCondition` — every condition takes at least one byte.
* `eq_nil_of_reportsEnd` — the end is only reported where nothing is left.
* `reading_keeps_to_boundaries` — positions and problems for every text.
-/

namespace Backtester

open Grammar

/-! ## Cursors -/

/-- A cursor moved over some characters. -/
theorem advance_of_append {c : Cursor} {word rest : List Char} (hrest : c.rest = word ++ rest) :
    c.advance (c.rest.length - rest.length) = ⟨c.passed ++ word, rest⟩ := by
  have hlength : c.rest.length - rest.length = word.length := by
    rw [hrest, List.length_append, Nat.add_sub_cancel]
  rw [hlength, Cursor.advance, hrest, List.take_left, List.drop_left]

theorem skipBlanks_skipBlanks (c : Cursor) : c.skipBlanks.skipBlanks = c.skipBlanks := by
  have hsplit := List.takeWhile_append_dropWhile (p := isBlank) (l := c.rest.dropWhile isBlank)
  rw [List.dropWhile_idempotent, List.append_left_eq_self] at hsplit
  unfold Cursor.skipBlanks Cursor.skipWhile
  dsimp only
  rw [hsplit, List.append_nil, List.dropWhile_idempotent]

/-- What reading on passes in a text. -/
theorem position_lt_of_rest_lt {text : List Char} {c c' : Cursor}
    (hwhole : c.passed ++ c.rest = text) (hwhole' : c'.passed ++ c'.rest = text)
    (hshorter : c'.rest.length < c.rest.length) : c.position < c'.position := by
  have hlengths : c.passed.length + c.rest.length = c'.passed.length + c'.rest.length := by
    rw [← List.length_append, ← List.length_append, hwhole, hwhole']
  obtain ⟨word, hword⟩ : c.passed <+: c'.passed :=
    List.prefix_of_prefix_length_le ⟨c.rest, hwhole⟩ ⟨c'.rest, hwhole'⟩ (by omega)
  rw [← hword, List.length_append] at hlengths
  obtain ⟨first, tail, rfl⟩ : ∃ first tail, word = first :: tail :=
    List.exists_cons_of_length_pos (by omega)
  have hpos := byteSize_cons_pos first tail
  unfold Cursor.position
  rw [← hword, byteSize_append]
  omega

/-- The word that a problem names is what stands at the cursor. -/
theorem quotes_peekWord (c : Cursor) : Quotes c.rest c.peekWord := by
  unfold Cursor.peekWord
  have hsplit := List.takeWhile_append_dropWhile (p := isWordChar) (l := c.rest)
  cases hword : c.rest.takeWhile isWordChar with
  | nil =>
      cases hrest : c.rest with
      | nil => exact .ended
      | cons next rest =>
          rw [hrest] at hword
          refine .character ?_
          by_contra hnext
          simp [hnext] at hword
  | cons first word =>
      rw [hword] at hsplit
      rw [← hsplit]
      refine .name (List.cons_ne_nil first word) ?_ ?_
      · intro x hx
        rw [← hword] at hx
        exact List.mem_takeWhile_imp hx
      · intro x hx
        have hnext := List.head?_dropWhile_not isWordChar c.rest
        rw [hx] at hnext
        exact hnext

namespace ByteReader

variable {text : List Char} {c c' : Cursor}

/-! ## One token -/

theorem simulates_expectChar (wanted : Char) :
    Simulates text (expectChar text wanted) c
      ((Backtester.expectChar wanted c).map fun c' => ((), c')) := by
  refine simulates_skipBlanks.andThen (.of_whole fun hwhole => simulates_peek.andThen ?_)
  unfold Backtester.expectChar
  dsimp only
  cases hrest : c.skipBlanks.rest with
  | nil =>
      refine simulates_position.andThen (simulates_problemAt hwhole ?_)
      rw [hrest]
      exact .noCharacter
  | cons next rest =>
      dsimp only [List.head?_cons]
      by_cases hnext : next = wanted
      · rw [if_pos hnext, if_pos hnext, Cursor.advance, hrest]
        exact simulates_advance hrest
      · rw [if_neg hnext, if_neg hnext]
        refine simulates_position.andThen (simulates_problemAt hwhole ?_)
        rw [hrest]
        exact .character hnext

/-- A look at the position sees a token as a cursor does, and then the bytes of the token. -/
structure Sees (text : List Char) (peekToken : List Char → ByteReader Bool)
    (sees : List Char → Cursor → Bool) : Prop where
  simulates : ∀ token c, Simulates text (peekToken token) c (.ok (sees token c, c))
  size : ∀ token c, sees token c = true → byteSize (c.rest.take token.length) = byteSize token

theorem sees_keyword : Sees text (peekKeyword text) startsWithKeyword := by
  refine ⟨fun keyword _ => simulates_peekKeyword keyword, fun keyword c h => ?_⟩
  unfold startsWithKeyword at h
  exact (sizes_of_equalIgnoringCase (Bool.and_eq_true_iff.mp h).1).2

theorem sees_call : Sees text (peekCall text) startsWithCall := by
  refine ⟨fun name _ => simulates_peekCall name, fun name c h => ?_⟩
  unfold startsWithCall at h
  have hsees : Sees text (peekKeyword text) startsWithKeyword := sees_keyword
  exact hsees.size name c (Bool.and_eq_true_iff.mp h).1

theorem sees_sign : Sees text (peekSign text) fun sign c => sign.isPrefixOf c.rest := by
  refine ⟨fun _ _ => simulates_remaining.andThen (simulates_pure _), fun sign c h => ?_⟩
  obtain ⟨rest, hrest⟩ := List.isPrefixOf_iff_prefix.mp h
  rw [← hrest, List.take_left]

variable {peekToken : List Char → ByteReader Bool} {sees : List Char → Cursor → Bool}

/-- A token that is seen is moved over. -/
theorem Sees.consume (h : Sees text peekToken sees) (token : List Char) :
    Simulates text (ByteReader.consume peekToken token) c
      (.ok (sees token c, if sees token c then c.advance token.length else c)) := by
  refine (h.simulates token c).andThen ?_
  cases hsees : sees token c with
  | false => exact simulates_pure false
  | true =>
      have hmove : Simulates text (moveBy (byteSize (c.rest.take token.length))) c
          (.ok ((), c.advance token.length)) :=
        simulates_moveBy (List.take_append_drop token.length c.rest).symm
      rw [h.size token c hsees] at hmove
      exact hmove.andThen (simulates_pure true)

theorem Sees.consumeFirst (h : Sees text peekToken sees)
    (entries : List (List Char × Comparator)) :
    Simulates text (ByteReader.consumeFirst peekToken entries) c
      (.ok (match entries.find? fun entry => sees entry.1 c with
        | some entry => (some entry.2, c.advance entry.1.length)
        | none => (none, c))) := by
  induction entries with
  | nil => exact simulates_pure none
  | cons entry rest ih =>
      refine (h.consume entry.1).andThen ?_
      cases hsees : sees entry.1 c with
      | true =>
          simp only [List.find?_cons, hsees]
          exact simulates_pure _
      | false =>
          simp only [List.find?_cons, hsees]
          exact ih

theorem simulates_readComparator :
    Simulates text (readComparator text) c (Backtester.readComparator c) := by
  refine simulates_skipBlanks.andThen ((sees_sign.consumeFirst comparatorSigns).andThen ?_)
  unfold Backtester.readComparator
  dsimp only
  cases comparatorSigns.find? fun entry => entry.1.isPrefixOf c.skipBlanks.rest with
  | some entry => exact simulates_pure entry.2
  | none =>
      refine (sees_keyword.consumeFirst comparatorWords).andThen ?_
      cases comparatorWords.find? fun entry => startsWithKeyword entry.1 c.skipBlanks with
      | some entry => exact simulates_pure entry.2
      | none =>
          refine .of_whole fun hwhole => simulates_position.andThen (simulates_peekWord.andThen ?_)
          exact simulates_problemAt hwhole (.comparator (quotes_peekWord c.skipBlanks))

/-! ## Operands -/

/-- A sign is passed, and the scan of the number goes on behind it. -/
theorem exists_skipSign (c : Cursor) : ∃ negative body, c.rest = minus negative ++ body ∧
    scanNumber c.rest = (negative, takeDecimal body) ∧
    Simulates text (skipSign text) c (.ok ((), ⟨c.passed ++ minus negative, body⟩)) := by
  obtain ⟨passed, rest⟩ := c
  by_cases hsign : rest.head? = some '-'
  · obtain ⟨body, rfl⟩ := List.head?_eq_some_iff.mp hsign
    exact ⟨true, body, rfl, rfl, simulates_peek.andThen (simulates_advance rfl)⟩
  · refine ⟨false, rest, rfl, scanNumber_of_head_ne hsign, simulates_peek.andThen ?_⟩
    show Simulates text (if (rest.head? == some '-') = true then _ else _) _ _
    rw [if_neg (by simpa using hsign)]
    simpa [minus] using simulates_pure ()

/-- Behind the point, the digits that come next are counted. -/
theorem simulates_countDigits_pointed {rounds : Nat} (hrounds : c.rest.length < rounds)
    (digits : Nat) :
    Simulates text (countDigits text rounds true digits) c
      (.ok (digits + (c.rest.takeWhile isDigit).length, c.skipWhile isDigit)) := by
  induction rounds generalizing c digits with
  | zero => omega
  | succ rounds ih =>
      refine simulates_peek.andThen ?_
      obtain ⟨passed, rest⟩ := c
      cases rest with
      | nil => simpa [Cursor.skipWhile] using simulates_pure digits
      | cons next rest =>
          show Simulates text (if isDigit next then _ else _) _ _
          by_cases hdigit : isDigit next = true
          · rw [if_pos hdigit]
            refine (simulates_advance rfl).andThen ?_
            have hloop := ih (c := ⟨passed ++ [next], rest⟩) (by simpa using hrounds) (digits + 1)
            have hcount : digits + 1 + (rest.takeWhile isDigit).length =
                digits + ((rest.takeWhile isDigit).length + 1) := by omega
            rw [hcount] at hloop
            simpa [Cursor.skipWhile, hdigit] using hloop
          · rw [if_neg hdigit, Bool.not_true, Bool.and_false, if_neg Bool.false_ne_true]
            simpa [Cursor.skipWhile, hdigit] using simulates_pure digits

theorem takeDecimal_digit {d : Char} (hdigit : isDigit d = true) (rest : List Char) :
    takeDecimal (d :: rest) = (d :: (takeDecimal rest).1, (takeDecimal rest).2) := by
  unfold takeDecimal
  rw [List.takeWhile_cons_of_pos hdigit, List.dropWhile_cons_of_pos hdigit]
  split
  · rfl
  · rfl

theorem takeDecimal_point (rest : List Char) :
    takeDecimal ('.' :: rest) = ([], rest.takeWhile isDigit, rest.dropWhile isDigit) :=
  rfl

theorem takeDecimal_other {next : Char} (hdigit : ¬isDigit next = true) (hpoint : next ≠ '.')
    (rest : List Char) : takeDecimal (next :: rest) = ([], [], next :: rest) := by
  unfold takeDecimal
  rw [List.takeWhile_cons_of_neg hdigit, List.dropWhile_cons_of_neg hdigit]
  split
  · next heq => exact absurd (List.cons.inj heq).1 hpoint
  · rfl

/-- The digits of a decimal are counted, and its characters are passed. -/
theorem simulates_countDigits {rounds : Nat} (hrounds : c.rest.length < rounds) (digits : Nat)
    {word : List Char} (hword : c.rest = word ++ (takeDecimal c.rest).2.2) :
    Simulates text (countDigits text rounds false digits) c
      (.ok (digits + ((takeDecimal c.rest).1 ++ (takeDecimal c.rest).2.1).length,
        ⟨c.passed ++ word, (takeDecimal c.rest).2.2⟩)) := by
  induction rounds generalizing c digits word with
  | zero => omega
  | succ rounds ih =>
      refine simulates_peek.andThen ?_
      obtain ⟨passed, rest⟩ := c
      cases rest with
      | nil =>
          obtain rfl : [] = word := by simpa [takeDecimal] using hword
          simpa [takeDecimal] using simulates_pure digits
      | cons next rest =>
          dsimp only at hword hrounds ⊢
          show Simulates text (if isDigit next then _ else _) _ _
          by_cases hdigit : isDigit next = true
          · rw [if_pos hdigit]
            refine (simulates_advance rfl).andThen ?_
            rw [takeDecimal_digit hdigit] at hword ⊢
            obtain ⟨tail, htail, -⟩ := exists_takeDecimal false rest
            have hloop := ih (c := ⟨passed ++ [next], rest⟩) (by simpa using hrounds) (digits + 1)
              htail
            -- The first digit and those of the rest are the word.
            obtain rfl : next :: tail = word := by
              apply List.append_cancel_right
              rw [← hword, List.cons_append, ← htail]
              rfl
            have hcount (n : Nat) : digits + 1 + n = digits + (n + 1) := by omega
            simpa [hcount] using hloop
          · rw [if_neg hdigit]
            by_cases hpoint : next = '.'
            · subst hpoint
              refine (simulates_advance rfl).andThen ?_
              rw [takeDecimal_point] at hword ⊢
              obtain rfl : '.' :: rest.takeWhile isDigit = word := by
                apply List.append_cancel_right
                rw [← hword, List.cons_append, List.takeWhile_append_dropWhile]
              have hloop : Simulates text (countDigits text rounds true digits)
                  ⟨passed ++ ['.'], rest⟩ _ :=
                simulates_countDigits_pointed (by simpa using hrounds) digits
              simpa [Cursor.skipWhile] using hloop
            · rw [takeDecimal_other hdigit hpoint] at hword ⊢
              obtain rfl : [] = word := by simpa using hword
              simpa [hpoint] using simulates_pure digits

variable {α : Type} [Scalar α]

theorem simulates_readLiteral :
    Simulates text (readLiteral text : ByteReader (Operand α)) c
      (Backtester.readLiteral c.skipBlanks) := by
  refine simulates_skipBlanks.andThen (.of_whole fun hwhole => simulates_position.andThen ?_)
  generalize c.skipBlanks = start at hwhole ⊢
  obtain ⟨negative, body, hbody, hscan, hsign⟩ := @exists_skipSign text start
  obtain ⟨tail, htail⟩ : ∃ tail, body = tail ++ (takeDecimal body).2.2 := by
    obtain ⟨tail, htail, -⟩ := exists_takeDecimal false body
    exact ⟨tail, htail⟩
  have hrounds : body.length < text.length + 1 := by
    rw [← hwhole, hbody, List.length_append, List.length_append]
    omega
  have hcount : Simulates text (countDigits text (text.length + 1) false 0)
      ⟨start.passed ++ minus negative, body⟩ _ :=
    simulates_countDigits hrounds 0 htail
  refine hsign.andThen (hcount.andThen ?_)
  unfold Backtester.readLiteral
  rw [hscan]
  dsimp only
  generalize takeDecimal body = parts at hscan htail ⊢
  obtain ⟨whole, fraction, behind⟩ := parts
  dsimp only at htail ⊢
  obtain ⟨word, hword, hnumber⟩ := exists_word_of_scanNumber hscan
  obtain rfl : minus negative ++ tail = word := by
    apply List.append_cancel_right
    rw [← hword, hbody, List.append_assoc, ← htail]
  by_cases hnone : whole ++ fraction = []
  · have hempty : (whole.isEmpty && fraction.isEmpty) = true := by simpa using hnone
    rw [if_pos (by rw [hnone]; rfl), if_pos hempty]
    exact simulates_problemAt hwhole .number
  · have hnotEmpty : ¬(whole.isEmpty && fraction.isEmpty) = true := by simpa using hnone
    rw [if_neg (by simpa using hnone), if_neg hnotEmpty, advance_of_append hword,
      ← List.append_assoc]
    refine (simulates_sliceFrom hwhole hword (by rw [List.append_assoc])).andThen ?_
    rw [readNumber_of_isNumber (hnumber hnone)]
    exact simulates_pure _

omit [Scalar α] in
/-- A name is passed with the bytes of its characters. -/
theorem simulates_name {next : Char} {rest : List Char} (hrest : c.rest = next :: rest)
    (hname : isWordChar next = true) :
    Simulates text (do
        let word ← peekWord text
        moveBy (byteSize word.toList)
        return Operand.column (lowered word) : ByteReader (Operand α)) c
      (.ok (.column (String.ofList (lowerText (c.rest.takeWhile isWordChar))),
        c.skipWhile isWordChar)) := by
  have hword : c.peekWord = String.ofList (c.rest.takeWhile isWordChar) := by
    rw [Cursor.peekWord, hrest, List.takeWhile_cons_of_pos hname]
  have hmove : Simulates text (moveBy (byteSize (c.rest.takeWhile isWordChar))) c
      (.ok ((), c.skipWhile isWordChar)) :=
    simulates_moveBy List.takeWhile_append_dropWhile.symm
  refine simulates_peekWord.andThen ?_
  rw [hword, lowered, String.toList_ofList]
  exact hmove.andThen (simulates_pure _)

theorem simulates_readOperand :
    Simulates text (readOperand text : ByteReader (Operand α)) c (Backtester.readOperand c) := by
  refine simulates_skipBlanks.andThen (.of_whole fun hwhole => simulates_peek.andThen ?_)
  unfold Backtester.readOperand
  have hproblem : Simulates text
      (do problemAt (← position) (.wantedOperand (← peekWord text)) : ByteReader (Operand α))
      c.skipBlanks
      (.error (c.skipBlanks.problem (.wantedOperand c.skipBlanks.peekWord))) :=
    simulates_position.andThen (simulates_peekWord.andThen
      (simulates_problemAt hwhole (.operand (quotes_peekWord c.skipBlanks))))
  cases hrest : c.skipBlanks.rest with
  | nil =>
      dsimp only
      rw [hrest]
      exact hproblem
  | cons next rest =>
      dsimp only [List.head?_cons]
      rw [hrest]
      dsimp only
      split
      · have hliteral : Simulates text (readLiteral text : ByteReader (Operand α)) c.skipBlanks
            (Backtester.readLiteral c.skipBlanks.skipBlanks) := simulates_readLiteral
        rwa [skipBlanks_skipBlanks] at hliteral
      · split
        · next hstart =>
            rw [← hrest]
            exact simulates_name hrest (isWordChar_of_isAlphabetic hstart)
        · exact hproblem

/-! ## Conditions -/

theorem simulates_readArguments (comparator : Comparator) :
    Simulates text (readArguments text comparator : ByteReader (Condition α)) c
      (Backtester.readArguments comparator c) := by
  unfold readArguments Backtester.readArguments
  refine (simulates_expectChar '(').bind_unit fun c _ => ?_
  refine simulates_readOperand.bind fun left c _ => ?_
  refine (simulates_expectChar ',').bind_unit fun c _ => ?_
  refine simulates_readOperand.bind fun right c _ => ?_
  refine (simulates_expectChar ')').bind_unit fun c _ => ?_
  exact simulates_pure _

theorem simulates_readComparison :
    Simulates text (readComparison text : ByteReader (Condition α)) c
      (Backtester.readComparison c) := by
  unfold readComparison Backtester.readComparison
  refine simulates_readOperand.bind fun left c _ => ?_
  refine simulates_readComparator.bind fun comparator c _ => ?_
  refine simulates_readOperand.bind fun right c _ => ?_
  exact simulates_pure _

theorem simulates_readCondition :
    Simulates text (readCondition text : ByteReader (Condition α)) c
      (Backtester.readCondition c) := by
  refine simulates_skipBlanks.andThen ((sees_call.consumeFirst callNames).andThen ?_)
  unfold Backtester.readCondition
  dsimp only
  cases callNames.find? fun entry => startsWithCall entry.1 c.skipBlanks with
  | some entry => exact simulates_readArguments entry.2
  | none => exact simulates_readComparison

/-! ## Rules -/

theorem simulates_consumeConjunction :
    Simulates text (consumeConjunction text) c.skipBlanks
      (.ok (match skipConjunction c with
        | some c' => (true, c')
        | none => (false, c.skipBlanks))) := by
  refine (sees_keyword.consume "and".toList).andThen ?_
  unfold skipConjunction
  dsimp only
  cases startsWithKeyword "and".toList c.skipBlanks with
  | true => exact simulates_pure true
  | false =>
      have hsign : Simulates text (consume (peekSign text) ['&', '&']) c.skipBlanks _ :=
        sees_sign.consume ['&', '&']
      rw [if_neg Bool.false_ne_true, if_neg Bool.false_ne_true]
      cases hfollows : ['&', '&'].isPrefixOf c.skipBlanks.rest with
      | true =>
          rw [hfollows] at hsign
          exact hsign
      | false =>
          rw [hfollows] at hsign
          exact hsign

/-- The conditions that follow one, up to the blanks behind them. -/
def moreConditions (c : Cursor) : Except TextProblem (List (Condition α) × Cursor) :=
  match skipConjunction c with
  | none => .ok ([], c.skipBlanks)
  | some c' => (readConditions c').map (Prod.map id Cursor.skipBlanks)

/-- The reading of conditions, cut behind the first one as a loop does it. -/
theorem readConditions_eq (c : Cursor) :
    (readConditions c : Except TextProblem (List (Condition α) × Cursor)).map
        (Prod.map id Cursor.skipBlanks) = do
      let (x, c) ← Backtester.readCondition c
      let (rest, c) ← moreConditions c
      return (x :: rest, c) := by
  rw [readConditions]
  split
  · next p hfirst =>
      rw [hfirst]
      rfl
  · next x c₁ hfirst =>
      rw [hfirst]
      show _ = (moreConditions c₁ >>= fun step => pure (x :: step.1, step.2))
      unfold moreConditions
      split
      · next hnext =>
          rw [hnext]
          rfl
      · next c₂ hnext =>
          rw [hnext]
          dsimp only
          cases readConditions (α := α) c₂ with
          | error p => rfl
          | ok step => rfl

theorem simulates_readMore {rounds : Nat} (hrounds : c.rest.length < rounds) :
    Simulates text (readMore text rounds : ByteReader (List (Condition α))) c
      (moreConditions c) := by
  induction rounds generalizing c with
  | zero => omega
  | succ rounds ih =>
      have hconjunction : Simulates text (consumeConjunction text) c.skipBlanks _ :=
        simulates_consumeConjunction
      unfold moreConditions
      cases hnext : skipConjunction c with
      | none =>
          rw [hnext] at hconjunction
          exact simulates_skipBlanks.andThen (hconjunction.andThen (simulates_pure []))
      | some c' =>
          rw [hnext] at hconjunction
          dsimp only
          rw [readConditions_eq]
          refine simulates_skipBlanks.andThen (hconjunction.andThen ?_)
          refine simulates_readCondition.bind fun x c₁ hfirst => ?_
          -- The condition that was read leaves fewer characters for the next round.
          have hshorter := readCondition_shortens hfirst
          have hle := skipConjunction_length_le hnext
          exact (ih (by omega)).bind fun rest c₂ _ => simulates_pure _

/-- Conditions that were read are the rule, if nothing but blanks is left behind them. -/
def finishRule (conditions : List (Condition α)) (c : Cursor) :
    Except TextProblem (List (Condition α) × Cursor) :=
  let c := c.skipBlanks
  if c.rest.isEmpty then .ok (conditions, c) else .error (c.problem (.leftover c.peekWord))

/-- The conditions of a rule with the place where the reading of them ends. -/
def ruleWithEnd (text : List Char) : Except TextProblem (List (Condition α) × Cursor) :=
  let c := (Cursor.start text).skipBlanks
  if c.rest.isEmpty then .error (c.problem .empty)
  else do
    let (x, c) ← Backtester.readCondition c
    let (rest, c) ← moreConditions c
    finishRule (x :: rest) c

theorem map_ruleWithEnd (text : List Char) :
    (ruleWithEnd text : Except TextProblem (List (Condition α) × Cursor)).map Prod.fst =
      Backtester.readRule text := by
  unfold ruleWithEnd Backtester.readRule
  dsimp only
  split
  · rfl
  · generalize (Cursor.start text).skipBlanks = c
    have hread : (do
        let (x, c) ← Backtester.readCondition c
        let (rest, c) ← moreConditions c
        finishRule (x :: rest) c : Except TextProblem (List (Condition α) × Cursor)) =
        (readConditions c).map (Prod.map id Cursor.skipBlanks) >>= fun step =>
          finishRule step.1 step.2 := by
      rw [readConditions_eq, bind_assoc]
      simp only [bind_assoc, pure_bind]
    rw [hread]
    cases readConditions (α := α) c with
    | error p => rfl
    | ok step =>
        show (finishRule step.1 step.2.skipBlanks).map Prod.fst = _
        unfold finishRule
        rw [skipBlanks_skipBlanks]
        dsimp only
        split
        · rfl
        · rfl

theorem simulates_readRule :
    Simulates text (readRule text : ByteReader (List (Condition α))) (Cursor.start text)
      (ruleWithEnd text) := by
  refine simulates_atEnd.andThen (.of_whole fun hwhole => ?_)
  unfold ruleWithEnd
  dsimp only
  generalize (Cursor.start text).skipBlanks = first at hwhole ⊢
  by_cases hempty : first.rest.isEmpty = true
  · rw [if_pos hempty, if_pos hempty]
    refine simulates_position.andThen (simulates_problemAt hwhole ?_)
    rw [List.isEmpty_iff.mp hempty]
    exact .empty
  · rw [if_neg hempty, if_neg hempty]
    refine simulates_readCondition.bind fun x c₁ _ => .of_whole fun hwhole₁ => ?_
    have hrounds : c₁.rest.length < text.length + 1 := by
      rw [← hwhole₁, List.length_append]
      omega
    refine (simulates_readMore hrounds).bind fun rest c₂ _ => ?_
    refine simulates_atEnd.andThen (.of_whole fun hwhole₂ => ?_)
    unfold finishRule
    dsimp only
    generalize c₂.skipBlanks = last at hwhole₂ ⊢
    by_cases hended : last.rest.isEmpty = true
    · rw [if_pos hended, if_pos hended]
      exact simulates_pure _
    · rw [if_neg hended, if_neg hended]
      refine simulates_position.andThen (simulates_peekWord.andThen ?_)
      refine simulates_problemAt hwhole₂ (.leftover ?_ (quotes_peekWord last))
      exact fun h => hended (List.isEmpty_iff.mpr h)

theorem ends_readRule (text : List Char) :
    Ends text ((readRule text : ByteReader (List (Condition α))) [0]) (ruleWithEnd text) := by
  refine simulates_readRule [0] ⟨⟨?_, List.pairwise_singleton _ 0⟩, rfl, rfl⟩
  intro n hn
  exact ⟨[], text, rfl, (List.mem_singleton.mp hn).symm⟩

/-- Reading a condition from a boundary moves on by at least one byte. -/
theorem lt_of_readCondition {visited visited' : List Nat} {x : Condition α}
    (htrail : Trail text visited) (hsome : visited ≠ [])
    (hread : readCondition text visited = (.ok x, visited')) :
    visited.headD 0 < visited'.headD 0 := by
  obtain ⟨place, earlier, rfl⟩ := List.exists_cons_of_ne_nil hsome
  obtain ⟨before, after, hwhole, rfl⟩ := htrail.boundaries _ List.mem_cons_self
  have hat : At text (byteSize before :: earlier) ⟨before, after⟩ := ⟨htrail, hwhole.symm, rfl⟩
  have hends := simulates_readCondition (α := α) _ hat
  rw [hread] at hends
  generalize hexpected : Backtester.readCondition (α := α) ⟨before, after⟩ = expected at hends
  cases hends with
  | ok hat' =>
      rw [hat.headD, hat'.headD]
      exact position_lt_of_rest_lt hat.whole hat'.whole (readCondition_shortens hexpected)

end ByteReader

/-! ## Problems -/

/-- The end of the text stands where something else was wanted. -/
def TextCause.ReportsEnd : TextCause → Prop
  | .wantedChar _ found => found = none
  | .wantedComparator found => found = "end of input"
  | .wantedOperand found => found = "end of input"
  | .leftover found => found = "end of input"
  | .empty => False
  | .wantedNumber => False

/-- No name and no single character reads as the words for the end. -/
theorem eq_nil_of_quotes {rest : List Char} (h : Quotes rest "end of input") : rest = [] := by
  generalize hfound : "end of input" = found at h
  have hchars := congrArg String.toList hfound
  cases h with
  | ended => rfl
  | @character c behind hc =>
      have hlength := congrArg List.length hchars
      simp at hlength
  | @name word behind hsome hword hbehind =>
      have hblank : ' ' ∈ word := by
        rw [← hchars.trans String.toList_ofList]
        decide
      have hother := not_isWordChar_of_isBlank (c := ' ') (by decide)
      rw [hword _ hblank] at hother
      cases hother

theorem eq_nil_of_reportsEnd {rest : List Char} {cause : TextCause} (h : Describes rest cause)
    (hend : cause.ReportsEnd) : rest = [] := by
  cases h with
  | empty => rfl
  | character => cases hend
  | noCharacter => rfl
  | number => cases hend
  | comparator hfound | operand hfound | leftover _ hfound =>
      obtain rfl : _ = "end of input" := hend
      exact eq_nil_of_quotes hfound

theorem TextProblem.Honest.isBoundary {text : List Char} {p : TextProblem} (h : p.Honest text) :
    ByteReader.IsBoundary text p.position := by
  obtain ⟨before, after, htext, hposition, -⟩ := h
  exact ⟨before, after, htext, hposition⟩

theorem TextProblem.Honest.position_eq {text : List Char} {p : TextProblem} (h : p.Honest text)
    (hend : p.cause.ReportsEnd) : p.position = byteSize text := by
  obtain ⟨before, after, rfl, hposition, hdescribes⟩ := h
  obtain rfl := eq_nil_of_reportsEnd hdescribes hend
  rw [← hposition, List.append_nil]

/-- Over byte positions a text is read as it is read over characters, so no slice splits a
character and no loop goes on for ever.  All positions on the way are boundaries in ascending order,
every condition takes at least one byte, and a problem says what stands at its position. -/
theorem reading_keeps_to_boundaries {α : Type} [Scalar α] (text : String) :
    let run := (ByteReader.readRule text.toList : ByteReader (List (Condition α))) [0]
    run.1 = (Condition.ofText? text).mapError ByteStop.problem ∧
      (∀ place ∈ run.2, ByteReader.IsBoundary text.toList place ∧ place ≤ text.utf8ByteSize) ∧
      run.2.Pairwise (fun later earlier => earlier ≤ later) ∧
      (∀ (x : Condition α) (visited visited' : List Nat),
        ByteReader.Trail text.toList visited → visited ≠ [] →
        ByteReader.readCondition text.toList visited = (.ok x, visited') →
        visited.headD 0 < visited'.headD 0) ∧
      ∀ p, (Condition.ofText? text : Except TextProblem (List (Condition α))) = .error p →
        p.Honest text.toList ∧ p.position ≤ text.utf8ByteSize ∧
        (p.cause.ReportsEnd → p.position = text.utf8ByteSize) := by
  intro run
  have hends := ByteReader.ends_readRule (α := α) text.toList
  have hread := ByteReader.map_ruleWithEnd (α := α) text.toList
  rw [← byteSize_toList]
  refine ⟨?_, fun place hplace => ?_, hends.trail.ascending, fun x visited visited' => ?_,
    fun p hp => ?_⟩
  · rw [Condition.ofText?, ← hread]
    exact hends.fst_eq
  · have hboundary := hends.trail.boundaries place hplace
    exact ⟨hboundary, hboundary.le⟩
  · exact ByteReader.lt_of_readCondition
  · rw [Condition.ofText?, ← hread] at hp
    have hhonest : p.Honest text.toList := by
      cases hend : ByteReader.ruleWithEnd (α := α) text.toList with
      | ok step =>
          rw [hend] at hp
          cases hp
      | error p' =>
          rw [hend] at hp hends
          obtain rfl := Except.error.inj hp
          exact hends.honest
    exact ⟨hhonest, hhonest.isBoundary.le, hhonest.position_eq⟩

/-- The name is passed over in two bytes, and the last position is that of the other sign. -/
example :
    let run := (ByteReader.readRule "π < 1 €".toList : ByteReader (List (Condition Float))) [0]
    run.2 = [7, 6, 5, 4, 3, 2, 0] := by
  decide +kernel

end Backtester
