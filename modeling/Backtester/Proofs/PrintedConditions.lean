import Backtester.Proofs.Acceptance
import Backtester.Proofs.NumberTexts

/-!
# Printed conditions read back

A condition is printed as three tokens with a space between them.  No token has a blank in it, so
the spaces alone decide where tokens end, also where a column has the name of a comparator, of a
call or of the conjunction.

* `IsToken.forall_not_isBlank`, `longestToken_of_blank` — a token before a blank is a longest one.
* `Operand.Printable`, `Condition.Printable` — what the printed form can carry.
* `isOperand_text`, `isComparator_symbol` — the printed parts stand for what was printed.
* `splits_text` — the tokens of a printed condition.
* `ofText_intercalate_text` — printed conditions joined by `and` are read as these conditions.
-/

namespace Backtester
namespace Grammar

/-! ## Tokens have no blanks -/

theorem IsName.forall_not_isBlank {word : List Char} (h : IsName word) :
    ∀ c ∈ word, isBlank c = false := by
  obtain ⟨first, rest, rfl, hfirst, hrest⟩ := h
  intro c hc
  have hword : isWordChar c = true := by
    rcases List.mem_cons.mp hc with rfl | hc
    · exact isWordChar_of_startsName hfirst
    · exact hrest c hc
  by_contra hblank
  rw [Bool.not_eq_false] at hblank
  rw [not_isWordChar_of_isBlank hblank] at hword
  cases hword

theorem IsNumber.forall_not_isBlank {word whole fraction : List Char} {negative : Bool}
    (h : IsNumber word negative whole fraction) : ∀ c ∈ word, isBlank c = false := by
  obtain ⟨body, rfl, hbody, -⟩ := h.exists_body
  intro c hc
  rcases List.mem_append.mp hc with hminus | hfigure
  · cases negative with
    | true =>
        obtain rfl := List.mem_singleton.mp hminus
        rfl
    | false => cases hminus
  · rcases hbody c hfigure with hdigit | rfl
    · exact not_isBlank_of_isDigit hdigit
    · rfl

theorem IsToken.forall_not_isBlank {word : List Char} (h : IsToken word) :
    ∀ c ∈ word, isBlank c = false := by
  rcases h with hname | ⟨negative, whole, fraction, hnumber⟩ | hsymbol
  · exact hname.forall_not_isBlank
  · exact hnumber.forall_not_isBlank
  · have hsymbols : ∀ symbol ∈ symbols, symbol.all (fun c => !isBlank c) = true := by decide
    simpa using hsymbols word hsymbol

/-- A token ends where the text does or where a blank follows. -/
theorem longestToken_of_blank {word rest : List Char} (hword : IsToken word)
    (hrest : ∀ c ∈ rest.head?, isBlank c = true) : LongestToken (word ++ rest) word rest := by
  refine ⟨rfl, hword, fun longer hstart htoken => ?_⟩
  by_contra hlong
  -- A longer token would go on with the blank.
  obtain ⟨extra, rfl⟩ : word <+: longer :=
    List.prefix_of_prefix_length_le (List.prefix_append word rest) hstart (by omega)
  rw [List.prefix_append_right_inj] at hstart
  cases extra with
  | nil => simp at hlong
  | cons c tail =>
      obtain ⟨behind, rfl⟩ := hstart
      have hblank : isBlank c = true := hrest c rfl
      rw [htoken.forall_not_isBlank c (by simp)] at hblank
      cases hblank

end Grammar

open Grammar

/-! ## What can be printed -/

/-- The printed form can carry a finite number, and a name that is in lower case. -/
def Operand.Printable : Operand Float → Prop
  | .column name => IsName name.toList ∧ lowered name = name
  | .literal value => value.isFinite = true

/-- The printed form can carry both operands. -/
def Condition.Printable (c : Condition Float) : Prop := c.left.Printable ∧ c.right.Printable

theorem isName_iff (word : List Char) : IsName word ↔
    word.head?.any (fun c => isAlphabetic c || c == '_') = true ∧
      word.tail.all isWordChar = true := by
  cases word with
  | nil => simp [IsName]
  | cons c rest => simp [isName_cons_iff, StartsName]

instance (word : List Char) : Decidable (IsName word) := decidable_of_iff _ (isName_iff word).symm

instance (operand : Operand Float) : Decidable operand.Printable :=
  match operand with
  | .column _ => inferInstanceAs (Decidable (_ ∧ _))
  | .literal _ => inferInstanceAs (Decidable (_ = true))

instance (c : Condition Float) : Decidable c.Printable := inferInstanceAs (Decidable (_ ∧ _))

/-- A finite double is printed as a number that stands for it. -/
theorem isOperand_write {x : Float} (hx : x.isFinite = true) :
    IsOperand (NumberStyle.display.write x).toList (.literal x) := by
  obtain ⟨negative, p, htext, hp, -, hpositional, hread⟩ :=
    NumberStyle.display.exists_write_parts hx
  obtain ⟨whole, fraction, exponent⟩ := p
  obtain rfl : exponent = none := hpositional fun _ => rfl
  have hplace : NumberParts.place ⟨whole, fraction, none⟩ = -(fraction.length : ℤ) := zero_sub _
  let word := minus negative ++ NumberParts.text ⟨whole, fraction, none⟩
  have hnumber : IsNumber word negative whole fraction := by
    cases fraction with
    | nil =>
        simp only [word, NumberParts.text, NumberParts.exponentText, if_true, List.append_nil]
        exact .whole hp.whole_digits hp.whole_ne_nil
    | cons c rest =>
        simp only [word, NumberParts.text, NumberParts.exponentText, List.append_nil]
        exact .pointed hp.whole_digits hp.fraction_digits (by simp)
  have hvalue : (Scalar.ofDecimal negative (digitsValue (whole ++ fraction)) (-fraction.length) :
      Float) = x := by
    rw [← hplace]
    exact hread
  have hsigned : (NumberStyle.display.write x).toList = word := by
    rw [htext, NumberStyle.signedText, String.toList_ofList]
    cases negative <;> rfl
  rw [hsigned, ← hvalue]
  exact .number hnumber

/-- An operand is printed as a token that stands for it. -/
theorem isOperand_text {operand : Operand Float} (h : operand.Printable) :
    IsOperand operand.text.toList operand := by
  cases operand with
  | column name =>
      obtain ⟨hname, hlower⟩ := h
      have hoperand : IsOperand name.toList
          (.column (lowered (String.ofList name.toList)) : Operand Float) := .name hname
      rwa [String.ofList_toList, hlower] at hoperand
  | literal value =>
      have hfinite : value.isFinite = true := h
      exact isOperand_write hfinite

/-- A comparator is printed as a token that stands for it. -/
theorem isComparator_symbol (comparator : Comparator) :
    IsComparator comparator.symbol.toList comparator := by
  cases comparator with
  | gt => exact .gt
  | lt => exact .lt
  | ge => exact .ge
  | le => exact .le
  | eq => exact .eq
  | crossesAbove => exact .crossesAbove (by unfold SameWord; decide)
  | crossesBelow => exact .crossesBelow (by unfold SameWord; decide)

namespace Grammar

theorem IsOperand.isToken {word : List Char} {operand : Operand Float}
    (h : IsOperand word operand) : IsToken word := by
  cases h with
  | number hnumber => exact Or.inr (Or.inl ⟨_, _, _, hnumber⟩)
  | name hname => exact Or.inl hname

theorem IsComparator.isToken {word : List Char} {comparator : Comparator}
    (h : IsComparator word comparator) : IsToken word := by
  have hsigns : ∀ entry ∈ comparatorSigns, entry.1 ∈ symbols := by decide
  have hkeywords : ∀ entry ∈ comparatorWords, entry.1 ∈ keywords := by decide
  rcases isComparator_iff.mp h with hsign | ⟨keyword, hmem, hword⟩
  · exact Or.inr (Or.inr (hsigns _ hsign))
  · exact Or.inl (hword.isName (hkeywords _ hmem))

/-! ## The tokens of printed conditions -/

/-- A token in front, with the end of the text or a blank behind it. -/
theorem Splits.prepend {word rest behind : List Char} {words : List (List Char)}
    (h : Splits rest words behind) (hword : IsToken word)
    (hrest : ∀ c ∈ rest.head?, isBlank c = true) :
    Splits (word ++ rest) (word :: words) behind := by
  show Splits ([] ++ (word ++ rest)) (word :: words) behind
  exact .cons (by simp) (longestToken_of_blank hword hrest) h

theorem isBlank_head (text : List Char) : ∀ c ∈ (' ' :: text).head?, isBlank c = true := by
  rintro c ⟨⟩
  rfl

/-- A token in front, with a space between. -/
theorem Splits.space {word rest behind : List Char} {words : List (List Char)}
    (h : Splits rest (word :: words) behind) : Splits (' ' :: rest) (word :: words) behind := by
  rw [splits_cons_iff] at h ⊢
  exact h

end Grammar

/-- The tokens of a printed condition. -/
def Condition.words (c : Condition Float) : List (List Char) :=
  [c.left.text.toList, c.comparator.symbol.toList, c.right.text.toList]

theorem isCondition_words {c : Condition Float} (h : c.Printable) : IsCondition c.words c :=
  .comparison (isOperand_text h.1) (isComparator_symbol c.comparator) (isOperand_text h.2)

theorem splits_text {c : Condition Float} (h : c.Printable) {rest : List Char}
    (hrest : ∀ x ∈ rest.head?, isBlank x = true) : Splits (c.text.toList ++ rest) c.words rest := by
  have hright := Splits.prepend .nil (isOperand_text h.2).isToken hrest
  have hsign := hright.space.prepend (isComparator_symbol c.comparator).isToken (isBlank_head _)
  have hleft := hsign.space.prepend (isOperand_text h.1).isToken (isBlank_head _)
  simpa [Condition.text, Condition.words] using hleft

/-- Printed conditions joined by `and` split into tokens that form the rule of these conditions. -/
theorem exists_isRule {conditions : List (Condition Float)} (hsome : conditions ≠ [])
    (h : ∀ c ∈ conditions, c.Printable) :
    ∃ words, Splits (" and ".intercalate (conditions.map Condition.text)).toList words [] ∧
      IsRule words conditions := by
  have hand : SameWord "and".toList "and".toList := by
    unfold SameWord
    decide
  rw [String.toList_intercalate]
  induction conditions with
  | nil => exact absurd rfl hsome
  | cons c rest ih =>
      rw [List.forall_mem_cons] at h
      have hcondition := isCondition_words h.1
      cases rest with
      | nil =>
          have hend : ∀ x ∈ ([] : List Char).head?, isBlank x = true := by simp
          refine ⟨c.words, ?_, .condition hcondition⟩
          simpa using splits_text h.1 hend
      | cons d others =>
          obtain ⟨words, hsplits, hrule⟩ := ih (List.cons_ne_nil d others) h.2
          obtain ⟨word, behind, rfl⟩ := List.exists_cons_of_ne_nil hrule.ne_nil
          -- The word of the conjunction stands between two spaces.
          have hword : IsToken "and".toList := Or.inl (hand.isName (by decide))
          have hjoint := (hsplits.space.prepend hword (isBlank_head _)).space
          refine ⟨c.words ++ "and".toList :: word :: behind, ?_,
            .conjunction hcondition (.word hand) hrule⟩
          rw [List.map_cons, List.map_cons, List.map_cons, List.map_cons,
            List.intercalate_cons_cons, List.append_assoc]
          exact splits_append_iff.mpr ⟨_, splits_text h.1 (isBlank_head _), hjoint⟩

/-- Printed conditions read back.  Conditions with finite numbers and with columns whose names are
in lower case, printed and joined by `and`, are read as these conditions in this order, the numbers
as the same doubles.  The names may be words of the grammar. -/
theorem ofText_intercalate_text {conditions : List (Condition Float)} (hsome : conditions ≠ [])
    (h : ∀ c ∈ conditions, c.Printable) :
    Condition.ofText? (" and ".intercalate (conditions.map Condition.text)) = .ok conditions := by
  obtain ⟨words, hsplits, hrule⟩ := exists_isRule hsome h
  exact readRule_of_isRule hsplits (by simp) hrule

/-- Columns with the names of the conjunction, a comparator and calls, and negative zero. -/
theorem ofText_intercalate_text_keywords :
    let conditions : List (Condition Float) :=
      [⟨.column "and", .crossesAbove, .column "crosses_above"⟩,
        ⟨.column "equals", .le, .literal (-0.5)⟩, ⟨.literal (-0), .eq, .column "above"⟩]
    conditions ≠ [] ∧ (∀ c ∈ conditions, c.Printable) ∧
      " and ".intercalate (conditions.map Condition.text) =
        "and crosses_above crosses_above and equals <= -0.5 and -0 == above" ∧
      Condition.ofText? (" and ".intercalate (conditions.map Condition.text)) = .ok conditions := by
  intro conditions
  have hprintable : ∀ c ∈ conditions, c.Printable := by decide +kernel
  exact ⟨by simp [conditions], hprintable, by decide +kernel,
    ofText_intercalate_text (by simp [conditions]) hprintable⟩

end Backtester
