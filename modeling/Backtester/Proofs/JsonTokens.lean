import Backtester.Json.Token
import Backtester.Json.Writing
import Backtester.Proofs.NumberTexts

/-!
# The tokens of written JSON

Every part of a JSON text that is written is read as one token, whatever follows it; only a number
must not be followed by another part of a number.

* `scanString_escaped` — the escapes of a string are undone.
* `scanNumberLexeme_parts` — the parts of a number text.
* `JsonNumber.lexeme`, `JsonNumber.value?_lexeme` — a written number and the value that it is read
  as.
* `tokens?_quoted`, `tokens?_number`, … — the token at the start of a text.
-/

namespace Backtester

/-! ## Strings -/

theorem hexCode_control {n : ℕ} (hn : n < 0x20) :
    hexCode '0' '0' (hexDigit (n / 16)) (hexDigit (n % 16)) = some n := by
  revert n
  decide

/-- The escape of a character is read as the character. -/
theorem scanString_escapeChar (c : Char) (rest : List Char) :
    scanString (escapeChar c ++ rest) =
      (scanString rest).map fun (units, behind) => (.char c :: units, behind) := by
  unfold escapeChar
  split
  all_goals try rfl
  next hquote hslash _ _ _ _ _ =>
    split
    · next hcontrol =>
        have hunit : StringUnit.ofCode c.toNat = .char c := by
          rw [StringUnit.ofCode, if_neg (by omega), if_neg (by omega), Char.ofNat_toNat]
        simp only [List.cons_append, List.nil_append]
        rw [scanString, hexCode_control hcontrol]
        dsimp only
        rw [hunit]
    · next hplain =>
        simp only [List.cons_append, List.nil_append]
        rw [scanString.eq_def]
        split
        all_goals simp_all

theorem scanString_escaped (text rest : List Char) :
    scanString (text.flatMap escapeChar ++ '"' :: rest) = some (text.map .char, rest) := by
  induction text with
  | nil => rfl
  | cons c text ih => simp [scanString_escapeChar, ih]

theorem joinUnits_char (text : List Char) : joinUnits (text.map .char) = some text := by
  induction text with
  | nil => rfl
  | cons c text ih => simp [joinUnits, ih]

/-! ## Numbers -/

/-- A text that does not go on with a number. -/
def EndsNumber (rest : List Char) : Prop :=
  ∀ c, rest.head? = some c → isDigit c = false ∧ c ≠ '.' ∧ c ≠ 'e' ∧ c ≠ 'E'

theorem takeWhile_digits {digits rest : List Char} (hdigits : AllDigits digits)
    (hrest : ∀ c, rest.head? = some c → isDigit c = false) :
    (digits ++ rest).takeWhile isDigit = digits ∧ (digits ++ rest).dropWhile isDigit = rest := by
  rw [List.takeWhile_append_of_pos hdigits, List.dropWhile_append_of_pos hdigits]
  cases rest with
  | nil => simp
  | cons c rest =>
      have hc := hrest c rfl
      simp [hc]

theorem scanExponent_exponentText (exponent : Option ℤ) {rest : List Char}
    (hrest : EndsNumber rest) :
    scanExponent (NumberParts.exponentText exponent ++ rest) = some (exponent, rest) := by
  cases exponent with
  | none =>
      cases rest with
      | nil => rfl
      | cons c rest =>
          obtain ⟨-, -, hlower, hupper⟩ := hrest c rfl
          simp [NumberParts.exponentText, scanExponent, hlower, hupper]
  | some e =>
      obtain ⟨htake, hdrop⟩ := takeWhile_digits (allDigits_decimalDigits e.natAbs)
        fun c hc => (hrest c hc).1
      have hne := decimalDigits_ne_nil e.natAbs
      have hvalue := digitsValue_decimalDigits e.natAbs
      unfold NumberParts.exponentText scanExponent
      by_cases he : e < 0
      · simp [he, takeSign, htake, hdrop, hne, hvalue, abs_of_neg he]
      · simp [he, takeSign, htake, hdrop, hne, hvalue, abs_of_nonneg (not_lt.mp he)]

/-- The text of a fraction with its point. -/
def fractionText (fraction : List Char) : List Char :=
  if fraction = [] then [] else '.' :: fraction

theorem scanFraction_fractionText {fraction rest : List Char} (hfraction : AllDigits fraction)
    (hrest : ∀ c, rest.head? = some c → isDigit c = false ∧ c ≠ '.') :
    scanFraction (fractionText fraction ++ rest) =
      some (if fraction = [] then none else some fraction, rest) := by
  unfold fractionText
  by_cases hnone : fraction = []
  · cases rest with
    | nil => simp [hnone, scanFraction]
    | cons c rest =>
        obtain ⟨-, hpoint⟩ := hrest c rfl
        simp only [hnone, if_true, List.nil_append]
        rw [scanFraction.eq_def]
        split
        · simp_all
        · rfl
  · obtain ⟨htake, hdrop⟩ := takeWhile_digits hfraction fun c hc => (hrest c hc).1
    simp [hnone, scanFraction, htake, hdrop]

theorem head?_exponentText (exponent : Option ℤ) {rest : List Char} (hrest : EndsNumber rest) :
    ∀ c, (NumberParts.exponentText exponent ++ rest).head? = some c →
      isDigit c = false ∧ c ≠ '.' := by
  intro c hc
  cases exponent with
  | none => exact ⟨(hrest c hc).1, (hrest c hc).2.1⟩
  | some e =>
      cases hc
      exact ⟨rfl, by decide⟩

theorem head?_fractionText (fraction : List Char) {rest : List Char}
    (hrest : ∀ c, rest.head? = some c → isDigit c = false) :
    ∀ c, (fractionText fraction ++ rest).head? = some c → isDigit c = false := by
  intro c hc
  unfold fractionText at hc
  split at hc
  · exact hrest c hc
  · cases hc
    rfl

theorem splitMinus (negative : Bool) {body : List Char} (h : body.head? ≠ some '-') :
    (if (if negative then '-' :: body else body).head? = some '-'
      then (true, (if negative then '-' :: body else body).tail)
      else (false, if negative then '-' :: body else body)) = (negative, body) := by
  cases negative with
  | true => rfl
  | false => simp [h]

/-- A number text is read to its end, with all its parts. -/
theorem scanNumberLexeme_parts (negative : Bool) {p : NumberParts} (hp : p.WellFormed)
    {rest : List Char} (hrest : EndsNumber rest) :
    scanNumberLexeme ((if negative then '-' :: p.text else p.text) ++ rest) =
      some (⟨negative, p.digits, p.place, p.fraction.isEmpty && p.exponent.isNone⟩, rest) := by
  obtain ⟨whole, fraction, exponent⟩ := p
  obtain ⟨hne, hall, hleading, hfraction⟩ := hp
  dsimp only at hne hall hleading hfraction ⊢
  have htext : NumberParts.text ⟨whole, fraction, exponent⟩ ++ rest =
      whole ++ (fractionText fraction ++ (NumberParts.exponentText exponent ++ rest)) := by
    simp [NumberParts.text, fractionText]
  obtain ⟨first, others, hwhole⟩ := List.exists_cons_of_ne_nil hne
  have hsign : first ≠ '-' := by
    rintro rfl
    exact absurd (hall '-' (by simp [hwhole])) (by decide)
  have hhead : (NumberParts.text ⟨whole, fraction, exponent⟩ ++ rest).head? ≠ some '-' := by
    rw [htext, hwhole]
    simpa using hsign
  have hbody : (if negative then '-' :: NumberParts.text ⟨whole, fraction, exponent⟩
      else NumberParts.text ⟨whole, fraction, exponent⟩) ++ rest =
      if negative then '-' :: (NumberParts.text ⟨whole, fraction, exponent⟩ ++ rest)
      else NumberParts.text ⟨whole, fraction, exponent⟩ ++ rest := by
    cases negative <;> rfl
  have hfractionEnd := head?_exponentText exponent hrest
  obtain ⟨htake, hdrop⟩ := takeWhile_digits hall
    (head?_fractionText fraction fun c hc => (hfractionEnd c hc).1)
  have hlead : (whole.isEmpty || (whole.head? == some '0' && whole.length != 1)) = false := by
    rw [hwhole] at hleading ⊢
    by_cases hzero : first = '0'
    · simp [hleading (by simp [hzero])]
    · simp [hzero]
  unfold scanNumberLexeme
  rw [hbody, splitMinus negative hhead]
  dsimp only
  rw [htext, htake, hdrop, hlead, if_neg Bool.false_ne_true,
    scanFraction_fractionText hfraction hfractionEnd]
  simp only [Option.bind_eq_bind, Option.bind_some, scanExponent_exponentText exponent hrest]
  by_cases hnone : fraction = []
  · simp [hnone, NumberParts.digits, NumberParts.place]
  · simp [hnone, NumberParts.digits, NumberParts.place]

namespace JsonNumber

/-- A number that JSON can hold: of 64 bits, or a finite double. -/
def Plain : JsonNumber → Prop
  | natural n => n ≤ maxNat64
  | negative n => 0 < n ∧ n ≤ minInt64.natAbs
  | float x => x.isFinite = true

/-- A number as its text writes it. -/
def lexeme (n : JsonNumber) : NumberLexeme :=
  match scanNumberLexeme n.text.toList with
  | some (lexeme, _) => lexeme
  | none => ⟨false, 0, 0, true⟩

/-- The parts of a natural number. -/
theorem decimalDigits_wellFormed (n : ℕ) :
    NumberParts.WellFormed ⟨decimalDigits n, [], none⟩ := by
  refine ⟨decimalDigits_ne_nil n, allDigits_decimalDigits n, fun hzero => ?_, by simp [AllDigits]⟩
  rcases Nat.eq_zero_or_pos n with rfl | hn
  · rfl
  · exact absurd hzero (head?_decimalDigits hn)

theorem scanNumberLexeme_decimalDigits (negative : Bool) (n : ℕ) {rest : List Char}
    (hrest : EndsNumber rest) :
    scanNumberLexeme ((if negative then '-' :: decimalDigits n else decimalDigits n) ++ rest) =
      some (⟨negative, n, 0, true⟩, rest) := by
  have hscan := scanNumberLexeme_parts negative (decimalDigits_wellFormed n) hrest
  simpa [NumberParts.text, NumberParts.exponentText, NumberParts.digits, NumberParts.place,
    digitsValue_decimalDigits] using hscan

/-- The text of a number is read as a lexeme with the value of the number. -/
theorem exists_lexeme {n : JsonNumber} (hn : n.Plain) :
    ∃ lexeme : NumberLexeme, lexeme.value? = some n ∧ ∀ rest, EndsNumber rest →
      scanNumberLexeme (n.text.toList ++ rest) = some (lexeme, rest) := by
  cases n with
  | natural n =>
      refine ⟨⟨false, n, 0, true⟩, if_pos ⟨rfl, rfl, hn⟩, fun rest hrest => ?_⟩
      simpa [text, natText] using scanNumberLexeme_decimalDigits false n hrest
  | negative n =>
      refine ⟨⟨true, n, 0, true⟩, ?_, fun rest hrest => ?_⟩
      · rw [NumberLexeme.value?, if_neg (by simp), if_pos ⟨rfl, rfl, hn⟩]
      · simpa [text, natText] using scanNumberLexeme_decimalDigits true n hrest
  | float x =>
      obtain ⟨negative, p, htext, hp, hmarks, -, hread⟩ :=
        NumberStyle.document.exists_write_parts hn
      refine ⟨⟨negative, p.digits, p.place, p.fraction.isEmpty && p.exponent.isNone⟩, ?_,
        fun rest hrest => ?_⟩
      · have hnotWhole : (p.fraction.isEmpty && p.exponent.isNone) = false := by
          rcases hmarks rfl with hfraction | hexponent
          · simp [hfraction]
          · simp [Option.ne_none_iff_isSome.mp hexponent]
        have hfinite : x.isFinite = true := hn
        have hvalue : (Scalar.ofDecimal negative p.digits p.place : Float) = x := hread
        rw [hnotWhole]
        simp [NumberLexeme.value?, NumberLexeme.float?, hvalue, hfinite]
      · have hscan := scanNumberLexeme_parts negative hp hrest
        rwa [text, htext, NumberStyle.signedText, String.toList_ofList]

theorem scanNumberLexeme_text {n : JsonNumber} (hn : n.Plain) {rest : List Char}
    (hrest : EndsNumber rest) :
    scanNumberLexeme (n.text.toList ++ rest) = some (n.lexeme, rest) := by
  obtain ⟨written, -, hscan⟩ := exists_lexeme hn
  have hend := hscan [] (by simp [EndsNumber])
  rw [List.append_nil] at hend
  rw [hscan rest hrest, lexeme, hend]

/-- A written number is read as the number. -/
theorem value?_lexeme {n : JsonNumber} (hn : n.Plain) : n.lexeme.value? = some n := by
  obtain ⟨written, hvalue, hscan⟩ := exists_lexeme hn
  have hend := hscan [] (by simp [EndsNumber])
  rw [List.append_nil] at hend
  rw [lexeme, hend]
  exact hvalue

end JsonNumber

/-! ## Tokens -/

theorem tokens?_eq (text : List Char) :
    tokens? text =
      match text.dropWhile isJsonBlank with
      | [] => some []
      | first :: rest =>
          (scanToken (first :: rest)).bind fun (token, behind) =>
            (tokens? behind).map (token :: ·) := by
  rw [tokens?]
  split
  · next hnone => rw [hnone]
  · next first rest hsome =>
      rw [hsome]
      dsimp only
      split
      · next hscan => rw [hscan]; rfl
      · next token behind hscan => rw [hscan]; rfl

/-- Blanks before a token are passed over. -/
theorem tokens?_blanks {blanks : List Char} (h : ∀ c ∈ blanks, isJsonBlank c = true)
    (rest : List Char) : tokens? (blanks ++ rest) = tokens? rest := by
  rw [tokens?_eq (blanks ++ rest), tokens?_eq rest, List.dropWhile_append_of_pos h]

theorem tokens?_lineBreak (level : ℕ) (rest : List Char) :
    tokens? (lineBreak level ++ rest) = tokens? rest := by
  refine tokens?_blanks ?_ rest
  simp [lineBreak, isJsonBlank]

/-- The token at the start of a text. -/
theorem tokens?_of_scanToken {first : Char} {rest behind : List Char} {token : JsonToken}
    (hblank : isJsonBlank first = false) (hscan : scanToken (first :: rest) = some (token, behind)) :
    tokens? (first :: rest) = (tokens? behind).map (token :: ·) := by
  rw [tokens?_eq, List.dropWhile_cons_of_neg (by simp [hblank])]
  dsimp only
  rw [hscan]
  rfl

theorem tokens?_quoted (text : String) (rest : List Char) :
    tokens? (quoted text ++ rest) = (tokens? rest).map (.string (some text) :: ·) := by
  refine tokens?_of_scanToken rfl ?_
  show scanToken ('"' :: (text.toList.flatMap escapeChar ++ ['"'] ++ rest)) = _
  rw [List.append_assoc, List.singleton_append, scanToken, scanString_escaped]
  simp [joinUnits_char]

theorem scanToken_number {c : Char} (hc : isDigit c = true ∨ c = '-') (rest : List Char) :
    scanToken (c :: rest) =
      (scanNumberLexeme (c :: rest)).map fun (lexeme, behind) => (.number lexeme, behind) := by
  rw [scanToken.eq_def]
  split
  all_goals try rfl
  all_goals
    next heq =>
      cases heq
      exact absurd hc (by decide)

/-- A number starts with a digit or a minus sign. -/
theorem exists_cons_of_scanNumberLexeme {text behind : List Char} {lexeme : NumberLexeme}
    (h : scanNumberLexeme text = some (lexeme, behind)) :
    ∃ c rest, text = c :: rest ∧ (isDigit c = true ∨ c = '-') := by
  cases text with
  | nil => simp [scanNumberLexeme] at h
  | cons c rest =>
      refine ⟨c, rest, rfl, ?_⟩
      by_contra hnone
      obtain ⟨hdigit, hminus⟩ := not_or.mp hnone
      simp [scanNumberLexeme, hdigit, hminus] at h

theorem tokens?_number {n : JsonNumber} (hn : n.Plain) {rest : List Char} (hrest : EndsNumber rest) :
    tokens? (n.text.toList ++ rest) = (tokens? rest).map (.number n.lexeme :: ·) := by
  have hscan := JsonNumber.scanNumberLexeme_text hn hrest
  obtain ⟨c, others, htext, hc⟩ := exists_cons_of_scanNumberLexeme hscan
  have hblank : isJsonBlank c = false := by
    by_contra hblank
    simp only [isJsonBlank, Bool.or_eq_true, beq_iff_eq, Bool.not_eq_false] at hblank
    rcases hblank with ((rfl | rfl) | rfl) | rfl <;> exact absurd hc (by decide)
  rw [htext] at hscan ⊢
  refine tokens?_of_scanToken hblank ?_
  rw [scanToken_number hc, hscan]
  rfl

end Backtester
