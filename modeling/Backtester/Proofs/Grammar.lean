import Backtester.Condition.Reading
import Mathlib.Data.List.DropRight
import Mathlib.Data.List.Infix
import Mathlib.Data.List.TakeWhile

/-!
# The grammar of condition texts

What a condition text says, independently of how it is read: the text is split into longest tokens,
with blanks allowed before each of them, and the tokens are derived from the grammar.

* `IsName`, `IsNumber`, `symbols` — the three kinds of token.
* `LongestToken` — the token that a text starts with; no longer one does.
* `Splits` — the tokens of a text, in order, up to the rest that is left.
* `IsOperand`, `IsComparator`, `IsCallName`, `IsConjunction` — what one token stands for.
* `IsCondition`, `IsRule` — what a sequence of tokens stands for.

Splitting is unique (`LongestToken.unique`), and the first character of a text decides the kind of
its token (`longestToken_name`, `longestToken_number`, `longestToken_symbol`).
-/

namespace Backtester
namespace Grammar

/-! ## Tokens -/

/-- A name begins with a letter or an underscore. -/
def StartsName (c : Char) : Prop := isAlphabetic c = true ∨ c = '_'

/-- A letter or an underscore, then letters, numbers and underscores. -/
def IsName (word : List Char) : Prop :=
  ∃ first rest, word = first :: rest ∧ StartsName first ∧ ∀ c ∈ rest, isWordChar c = true

/-- The sign of a number. -/
def minus (negative : Bool) : List Char := if negative then ['-'] else []

/-- An optional minus sign, then digits with at most one point and at least one digit; with the
parts of the number. -/
inductive IsNumber : List Char → (negative : Bool) → (whole fraction : List Char) → Prop
  | whole {negative : Bool} {whole : List Char} (hwhole : ∀ c ∈ whole, isDigit c = true)
      (hsome : whole ≠ []) : IsNumber (minus negative ++ whole) negative whole []
  | pointed {negative : Bool} {whole fraction : List Char}
      (hwhole : ∀ c ∈ whole, isDigit c = true) (hfraction : ∀ c ∈ fraction, isDigit c = true)
      (hsome : whole ++ fraction ≠ []) :
      IsNumber (minus negative ++ (whole ++ '.' :: fraction)) negative whole fraction

/-- The tokens that are neither names nor numbers. -/
def symbols : List (List Char) :=
  [['('], [')'], [','], ['&', '&'], ['>'], ['<'], ['>', '='], ['<', '='], ['=', '='], ['=']]

/-- A name, a number or a symbol. -/
def IsToken (word : List Char) : Prop :=
  IsName word ∨ (∃ negative whole fraction, IsNumber word negative whole fraction) ∨ word ∈ symbols

/-- A text starts with a token, and with no longer one. -/
structure LongestToken (text word rest : List Char) : Prop where
  split : text = word ++ rest
  isToken : IsToken word
  longest : ∀ longer, longer <+: text → IsToken longer → longer.length ≤ word.length

/-- A text starts with some tokens, with blanks allowed before each, and goes on with a rest. -/
inductive Splits : List Char → List (List Char) → List Char → Prop
  | nil {text : List Char} : Splits text [] text
  | cons {blanks text word rest behind : List Char} {words : List (List Char)}
      (hblanks : ∀ c ∈ blanks, isBlank c = true) (hword : LongestToken text word rest)
      (hrest : Splits rest words behind) : Splits (blanks ++ text) (word :: words) behind

/-! ## Rules -/

/-- A word in some ASCII letter case. -/
def SameWord (word keyword : List Char) : Prop := word.map asciiLower = keyword

variable {α : Type} [Scalar α]

/-- A token as an operand: a number is a literal and a name, in lower case, is a column. -/
inductive IsOperand : List Char → Operand α → Prop
  | number {word whole fraction : List Char} {negative : Bool}
      (hnumber : IsNumber word negative whole fraction) :
      IsOperand word
        (.literal (Scalar.ofDecimal negative (digitsValue (whole ++ fraction)) (-fraction.length)))
  | name {word : List Char} (hname : IsName word) :
      IsOperand word (.column (lowered (String.ofList word)))

/-- A token as a comparator. -/
inductive IsComparator : List Char → Comparator → Prop
  | gt : IsComparator ['>'] .gt
  | lt : IsComparator ['<'] .lt
  | ge : IsComparator ['>', '='] .ge
  | le : IsComparator ['<', '='] .le
  | eq : IsComparator ['=', '='] .eq
  | eqShort : IsComparator ['='] .eq
  | crossesAbove {word : List Char} (h : SameWord word "crosses_above".toList) :
      IsComparator word .crossesAbove
  | crossesBelow {word : List Char} (h : SameWord word "crosses_below".toList) :
      IsComparator word .crossesBelow

/-- A token as the name of a comparison in call form. -/
inductive IsCallName : List Char → Comparator → Prop
  | crossesAbove {word : List Char} (h : SameWord word "crosses_above".toList) :
      IsCallName word .crossesAbove
  | crossesBelow {word : List Char} (h : SameWord word "crosses_below".toList) :
      IsCallName word .crossesBelow
  | above {word : List Char} (h : SameWord word "above".toList) : IsCallName word .gt
  | below {word : List Char} (h : SameWord word "below".toList) : IsCallName word .lt
  | equals {word : List Char} (h : SameWord word "equals".toList) : IsCallName word .eq

/-- A token that joins two conditions. -/
inductive IsConjunction : List Char → Prop
  | word {word : List Char} (h : SameWord word "and".toList) : IsConjunction word
  | sign : IsConjunction ['&', '&']

/-- Tokens as a condition. -/
inductive IsCondition : List (List Char) → Condition α → Prop
  | call {name first second : List Char} {comparator : Comparator} {left right : Operand α}
      (hname : IsCallName name comparator) (hleft : IsOperand first left)
      (hright : IsOperand second right) :
      IsCondition [name, ['('], first, [','], second, [')']] ⟨left, comparator, right⟩
  | comparison {first sign second : List Char} {comparator : Comparator} {left right : Operand α}
      (hleft : IsOperand first left) (hcomparator : IsComparator sign comparator)
      (hright : IsOperand second right) :
      IsCondition [first, sign, second] ⟨left, comparator, right⟩

/-- Tokens as conditions joined by conjunctions. -/
inductive IsRule : List (List Char) → List (Condition α) → Prop
  | condition {words : List (List Char)} {c : Condition α} (hcondition : IsCondition words c) :
      IsRule words [c]
  | conjunction {words others : List (List Char)} {joint : List Char} {c : Condition α}
      {conditions : List (Condition α)} (hcondition : IsCondition words c)
      (hjoint : IsConjunction joint) (hrest : IsRule others conditions) :
      IsRule (words ++ joint :: others) (c :: conditions)

/-! ## Characters -/

theorem le_of_isAlphabetic {c : Char} (h : isAlphabetic c = true) : 0x41 ≤ c.toNat := by
  by_contra hlt
  unfold isAlphabetic alphabeticRanges at h
  rw [inRanges, if_pos (by omega)] at h
  cases h

theorem toNat_of_isDigit {c : Char} (h : isDigit c = true) : 0x30 ≤ c.toNat ∧ c.toNat ≤ 0x39 := by
  unfold isDigit at h
  rw [Bool.and_eq_true, decide_eq_true_iff, decide_eq_true_iff] at h
  exact h

/-- The code points of the blanks. -/
def blankCodes : List Nat :=
  [0x09, 0x0A, 0x0B, 0x0C, 0x0D, 0x20, 0x85, 0xA0, 0x1680, 0x2000, 0x2001, 0x2002, 0x2003, 0x2004,
    0x2005, 0x2006, 0x2007, 0x2008, 0x2009, 0x200A, 0x2028, 0x2029, 0x202F, 0x205F, 0x3000]

theorem mem_blankCodes {c : Char} (h : isBlank c = true) : c.toNat ∈ blankCodes := by
  unfold isBlank at h
  simp only [Bool.or_eq_true, Bool.and_eq_true, decide_eq_true_iff, beq_iff_eq] at h
  simp only [blankCodes, List.mem_cons, List.not_mem_nil, or_false]
  omega

theorem not_isAlphabetic_of_isBlank {c : Char} (h : isBlank c = true) : isAlphabetic c = false := by
  have hcodes : ∀ n ∈ blankCodes, inRanges alphabeticRanges n = false := by decide +kernel
  exact hcodes _ (mem_blankCodes h)

theorem not_isWordChar_of_isBlank {c : Char} (h : isBlank c = true) : isWordChar c = false := by
  have hcodes : ∀ n ∈ blankCodes, inRanges numericRanges n = false := by decide +kernel
  have hnumeric : isNumeric c = false := hcodes _ (mem_blankCodes h)
  have hunderscore : c ≠ '_' := by
    rintro rfl
    cases h
  simp [isWordChar, not_isAlphabetic_of_isBlank h, hnumeric, hunderscore]

theorem not_isBlank_of_isDigit {c : Char} (h : isDigit c = true) : isBlank c = false := by
  by_contra hblank
  rw [Bool.not_eq_false] at hblank
  have hdigit := toNat_of_isDigit h
  have hcode := mem_blankCodes hblank
  simp only [blankCodes, List.mem_cons, List.not_mem_nil, or_false] at hcode
  omega

/-! ## The first character of a token -/

/-- A number begins with a digit, its sign or its point. -/
def StartsNumber (c : Char) : Prop := isDigit c = true ∨ c = '-' ∨ c = '.'

theorem le_of_startsName {c : Char} (h : StartsName c) : 0x41 ≤ c.toNat := by
  rcases h with h | rfl
  · exact le_of_isAlphabetic h
  · decide

theorem lt_of_startsNumber {c : Char} (h : StartsNumber c) : c.toNat < 0x41 := by
  rcases h with h | rfl | rfl
  · have hdigit := toNat_of_isDigit h
    omega
  · decide
  · decide

theorem isName_cons_iff {c : Char} {word : List Char} :
    IsName (c :: word) ↔ StartsName c ∧ ∀ x ∈ word, isWordChar x = true := by
  constructor
  · rintro ⟨first, rest, hword, hfirst, hrest⟩
    cases hword
    exact ⟨hfirst, hrest⟩
  · rintro ⟨hfirst, hrest⟩
    exact ⟨c, word, rfl, hfirst, hrest⟩

theorem startsNumber_of_isNumber {c : Char} {word whole fraction : List Char} {negative : Bool}
    (h : IsNumber (c :: word) negative whole fraction) : StartsNumber c := by
  generalize htext : c :: word = text at h
  cases h with
  | whole hwhole hsome =>
      cases negative with
      | true => cases htext; exact Or.inr (Or.inl rfl)
      | false => subst htext; exact Or.inl (hwhole c (List.mem_cons_self ..))
  | pointed hwhole hfraction hsome =>
      cases negative with
      | true => cases htext; exact Or.inr (Or.inl rfl)
      | false =>
          cases whole with
          | nil => cases htext; exact Or.inr (Or.inr rfl)
          | cons d ds => cases htext; exact Or.inl (hwhole c (List.mem_cons_self ..))

theorem head_of_mem_symbols {c : Char} {word : List Char} (h : c :: word ∈ symbols) :
    c.toNat < 0x41 ∧ isDigit c = false ∧ c ≠ '-' ∧ c ≠ '.' ∧ isBlank c = false := by
  simp only [symbols, List.mem_cons, List.cons.injEq, List.not_mem_nil, or_false] at h
  rcases h with h | h | h | h | h | h | h | h | h | h <;> rw [h.1] <;> decide

theorem IsToken.ne_nil {word : List Char} (h : IsToken word) : word ≠ [] := by
  rintro rfl
  rcases h with ⟨first, rest, hword, -, -⟩ | ⟨negative, whole, fraction, h⟩ | h
  · cases hword
  · generalize htext : ([] : List Char) = text at h
    cases h with
    | whole hwhole hsome => exact hsome (List.append_eq_nil_iff.mp htext.symm).2
    | pointed => simp at htext
  · simp [symbols] at h

theorem IsToken.isName {c : Char} {word : List Char} (h : IsToken (c :: word))
    (hc : StartsName c) : IsName (c :: word) := by
  have hle := le_of_startsName hc
  rcases h with h | ⟨negative, whole, fraction, h⟩ | h
  · exact h
  · have hlt := lt_of_startsNumber (startsNumber_of_isNumber h)
    omega
  · have hlt := (head_of_mem_symbols h).1
    omega

theorem IsToken.isNumber {c : Char} {word : List Char} (h : IsToken (c :: word))
    (hc : StartsNumber c) : ∃ negative whole fraction, IsNumber (c :: word) negative whole fraction := by
  have hlt := lt_of_startsNumber hc
  rcases h with h | h | h
  · have hle := le_of_startsName (isName_cons_iff.mp h).1
    omega
  · exact h
  · obtain ⟨-, hdigit, hminus, hpoint, -⟩ := head_of_mem_symbols h
    rcases hc with hc | hc | hc
    · rw [hdigit] at hc
      cases hc
    · exact absurd hc hminus
    · exact absurd hc hpoint

theorem IsToken.mem_symbols {c : Char} {word : List Char} (h : IsToken (c :: word))
    (hname : ¬ StartsName c) (hnumber : ¬ StartsNumber c) : c :: word ∈ symbols := by
  rcases h with h | ⟨negative, whole, fraction, h⟩ | h
  · exact absurd (isName_cons_iff.mp h).1 hname
  · exact absurd (startsNumber_of_isNumber h) hnumber
  · exact h

theorem IsToken.not_isBlank {c : Char} {word : List Char} (h : IsToken (c :: word)) :
    isBlank c = false := by
  by_contra hblank
  rw [Bool.not_eq_false] at hblank
  rcases h with h | ⟨negative, whole, fraction, h⟩ | h
  · rcases (isName_cons_iff.mp h).1 with hc | rfl
    · rw [not_isAlphabetic_of_isBlank hblank] at hc
      cases hc
    · revert hblank
      decide
  · rcases startsNumber_of_isNumber h with hc | rfl | rfl
    · rw [not_isBlank_of_isDigit hc] at hblank
      cases hblank
    · revert hblank
      decide
    · revert hblank
      decide
  · rw [(head_of_mem_symbols h).2.2.2.2] at hblank
    cases hblank

/-! ## Longest tokens -/

theorem LongestToken.unique {text word word' rest rest' : List Char}
    (h : LongestToken text word rest) (h' : LongestToken text word' rest') :
    word = word' ∧ rest = rest' := by
  have hle := h.longest word' ⟨rest', h'.split.symm⟩ h'.isToken
  have hle' := h'.longest word ⟨rest, h.split.symm⟩ h.isToken
  exact List.append_inj (h.split.symm.trans h'.split) (Nat.le_antisymm hle' hle)

theorem LongestToken.exists_cons {text word rest : List Char} (h : LongestToken text word rest) :
    ∃ c tail, word = c :: tail ∧ text = c :: (tail ++ rest) := by
  obtain ⟨c, tail, rfl⟩ := List.exists_cons_of_ne_nil h.isToken.ne_nil
  exact ⟨c, tail, rfl, h.split⟩

/-- Tokens that a text starts with agree in their first character. -/
theorem exists_cons_of_prefix {c : Char} {text longer : List Char} (hstart : longer <+: c :: text)
    (htoken : IsToken longer) : ∃ tail, longer = c :: tail ∧ tail <+: text := by
  obtain ⟨x, tail, rfl⟩ := List.exists_cons_of_ne_nil htoken.ne_nil
  obtain ⟨rfl, htail⟩ := List.cons_prefix_cons.mp hstart
  exact ⟨tail, rfl, htail⟩

theorem length_le_takeWhile {p : Char → Bool} {word text : List Char} (hstart : word <+: text)
    (hword : ∀ c ∈ word, p c = true) : word.length ≤ (text.takeWhile p).length := by
  obtain ⟨rest, rfl⟩ := hstart
  rw [List.takeWhile_append_of_pos hword, List.length_append]
  omega

theorem isWordChar_of_startsName {c : Char} (h : StartsName c) : isWordChar c = true := by
  rcases h with h | rfl
  · simp [isWordChar, h]
  · simp [isWordChar]

theorem isName_takeWhile {c : Char} (hc : StartsName c) (text : List Char) :
    IsName ((c :: text).takeWhile isWordChar) := by
  rw [List.takeWhile_cons_of_pos (isWordChar_of_startsName hc)]
  exact isName_cons_iff.mpr ⟨hc, fun x hx => List.mem_takeWhile_imp hx⟩

/-- After a character that starts a name, the token is the whole run of name characters. -/
theorem longestToken_name {c : Char} {text word rest : List Char} (hc : StartsName c) :
    LongestToken (c :: text) word rest ↔
      word = (c :: text).takeWhile isWordChar ∧ rest = (c :: text).dropWhile isWordChar := by
  have hword := isWordChar_of_startsName hc
  have hrun : LongestToken (c :: text) ((c :: text).takeWhile isWordChar)
      ((c :: text).dropWhile isWordChar) := by
    refine ⟨List.takeWhile_append_dropWhile.symm, Or.inl (isName_takeWhile hc text), ?_⟩
    intro longer hstart htoken
    obtain ⟨tail, rfl, -⟩ := exists_cons_of_prefix hstart htoken
    refine length_le_takeWhile hstart ?_
    rintro x (_ | ⟨_, hx⟩)
    · exact hword
    · exact (isName_cons_iff.mp (htoken.isName hc)).2 x hx
  constructor
  · exact fun h => h.unique hrun
  · rintro ⟨rfl, rfl⟩
    exact hrun

/-- A name is a whole token when no character of a longer name follows it. -/
theorem longestToken_append_iff {word rest : List Char} (hword : IsName word) :
    LongestToken (word ++ rest) word rest ↔ rest.head?.any isWordChar = false := by
  obtain ⟨c, tail, rfl, hc, htail⟩ := hword
  have hall : ∀ x ∈ c :: tail, isWordChar x = true := by
    rintro x (_ | ⟨_, hx⟩)
    · exact isWordChar_of_startsName hc
    · exact htail x hx
  have hrun : LongestToken (c :: (tail ++ rest)) (c :: tail) rest ↔ _ := longestToken_name hc
  rw [← List.cons_append, List.takeWhile_append_of_pos hall,
    List.dropWhile_append_of_pos hall] at hrun
  rw [hrun]
  cases rest with
  | nil => simp
  | cons y ys =>
      cases hy : isWordChar y with
      | true => simp [hy]
      | false => simp [hy]

theorem scanNumber_of_head_ne {text : List Char} (h : text.head? ≠ some '-') :
    scanNumber text = (false, takeDecimal text) := by
  unfold scanNumber
  split
  · exact absurd rfl h
  · rfl

theorem head?_ne_minus {whole : List Char} (hwhole : ∀ c ∈ whole, isDigit c = true) (c : Char)
    (hc : c ≠ '-') (rest : List Char) : (whole ++ c :: rest).head? ≠ some '-' := by
  cases whole with
  | nil => simpa using hc
  | cons d ds =>
      have hdigit := hwhole d (List.mem_cons_self ..)
      rintro h
      simp only [List.cons_append, List.head?_cons, Option.some.injEq] at h
      subst h
      revert hdigit
      decide

theorem scanNumber_minus {negative : Bool} {body : List Char} (h : body.head? ≠ some '-') :
    scanNumber (minus negative ++ body) = (negative, takeDecimal body) := by
  cases negative with
  | true => rfl
  | false => exact scanNumber_of_head_ne h

/-- What stands behind a number can only add digits to its parts. -/
theorem scanNumber_append {word whole fraction : List Char} {negative : Bool}
    (h : IsNumber word negative whole fraction) (rest : List Char) :
    ∃ ds es behind, scanNumber (word ++ rest) = (negative, whole ++ ds, fraction ++ es, behind) ∧
      ds.length + es.length + behind.length ≤ rest.length := by
  have hrun := congrArg List.length (List.takeWhile_append_dropWhile (p := isDigit) (l := rest))
  rw [List.length_append] at hrun
  cases h with
  | whole hwhole hsome =>
      have hhead : (whole ++ rest).head? ≠ some '-' := by
        obtain ⟨d, ds, rfl⟩ := List.exists_cons_of_ne_nil hsome
        exact head?_ne_minus (fun _ h => absurd h List.not_mem_nil) d
          (by rintro rfl; exact absurd (hwhole '-' (List.mem_cons_self ..)) (by decide)) (ds ++ rest)
      rw [List.append_assoc, scanNumber_minus hhead]
      unfold takeDecimal
      rw [List.takeWhile_append_of_pos hwhole, List.dropWhile_append_of_pos hwhole]
      split
      · next behind hbehind =>
          have hfraction :=
            congrArg List.length (List.takeWhile_append_dropWhile (p := isDigit) (l := behind))
          rw [List.length_append] at hfraction
          rw [hbehind, List.length_cons] at hrun
          exact ⟨_, _, _, rfl, by omega⟩
      · exact ⟨_, [], _, rfl, by rw [List.length_nil]; omega⟩
  | pointed hwhole hfraction hsome =>
      have htext : minus negative ++ (whole ++ '.' :: fraction) ++ rest
          = minus negative ++ (whole ++ '.' :: (fraction ++ rest)) := by
        simp only [List.append_assoc, List.cons_append]
      have hpoint : ¬ isDigit '.' = true := by decide
      rw [htext, scanNumber_minus (head?_ne_minus hwhole '.' (by decide) _)]
      unfold takeDecimal
      rw [List.takeWhile_append_of_pos hwhole, List.dropWhile_append_of_pos hwhole,
        List.takeWhile_cons_of_neg hpoint, List.dropWhile_cons_of_neg hpoint]
      simp only [List.takeWhile_append_of_pos hfraction, List.dropWhile_append_of_pos hfraction]
      exact ⟨[], _, _, rfl, by rw [List.length_nil]; omega⟩

theorem scanNumber_of_isNumber {word whole fraction : List Char} {negative : Bool}
    (h : IsNumber word negative whole fraction) :
    scanNumber word = (negative, whole, fraction, []) := by
  obtain ⟨ds, es, behind, hscan, hlength⟩ := scanNumber_append h []
  rw [List.length_nil] at hlength
  have hds : ds = [] := List.length_eq_zero_iff.mp (by omega)
  have hes : es = [] := List.length_eq_zero_iff.mp (by omega)
  have hbehind : behind = [] := List.length_eq_zero_iff.mp (by omega)
  rw [hds, hes, hbehind, List.append_nil, List.append_nil, List.append_nil] at hscan
  exact hscan

theorem asciiLower_of_figure {c : Char} (h : isDigit c = true ∨ c = '.') : asciiLower c = c := by
  unfold asciiLower
  rw [if_neg]
  rw [Bool.and_eq_true, decide_eq_true_iff]
  rintro ⟨hupper, -⟩
  have hletter : 0x41 ≤ c.toNat := hupper
  rcases h with hdigit | rfl
  · have hrange := toNat_of_isDigit hdigit
    omega
  · exact absurd hletter (by decide)

/-- Behind a sign, a text of digits and points is no word, so it is read as a decimal. -/
theorem readNumber_figures (negative : Bool) {body : List Char}
    (h : ∀ c ∈ body, isDigit c = true ∨ c = '.') :
    readNumber (minus negative ++ body) =
      if (takeDecimal body).1.isEmpty && (takeDecimal body).2.1.isEmpty then none
      else (readExponent (takeDecimal body).2.2).map fun exponent =>
        .decimal negative (digitsValue ((takeDecimal body).1 ++ (takeDecimal body).2.1))
          (exponent - (takeDecimal body).2.1.length) := by
  have hnot {c : Char} (hc : isDigit c = false ∧ c ≠ '.') : c ∉ body := by
    intro hmem
    rcases h c hmem with hdigit | hpoint
    · rw [hc.1] at hdigit
      cases hdigit
    · exact hc.2 hpoint
  have hsign : takeSign (minus negative ++ body) = (negative, body) := by
    cases negative with
    | true => rfl
    | false =>
        unfold takeSign
        split
        · next htext => exact absurd (htext ▸ List.mem_cons_self) (hnot (by decide))
        · next htext => exact absurd (htext ▸ List.mem_cons_self) (hnot (by decide))
        · rfl
  have hlower : body.map asciiLower = body :=
    (List.map_congr_left fun c hc => asciiLower_of_figure (h c hc)).trans (List.map_id _)
  -- Each of the three words that are no decimals has this letter.
  have hword {word : String} (hn : 'n' ∈ word.toList) : String.ofList body ≠ word := by
    rintro rfl
    rw [String.toList_ofList] at hn
    exact hnot (by decide) hn
  unfold readNumber
  rw [hsign]
  dsimp only
  rw [hlower]
  split
  · next heq => exact absurd heq (hword (by simp))
  · next heq => exact absurd heq (hword (by simp))
  · next heq => exact absurd heq (hword (by simp))
  · rfl

theorem IsNumber.exists_body {word whole fraction : List Char} {negative : Bool}
    (h : IsNumber word negative whole fraction) :
    ∃ body, word = minus negative ++ body ∧ (∀ c ∈ body, isDigit c = true ∨ c = '.') ∧
      whole ++ fraction ≠ [] := by
  cases h with
  | whole hwhole hsome => exact ⟨whole, rfl, fun c hc => Or.inl (hwhole c hc), by simpa using hsome⟩
  | pointed hwhole hfraction hsome =>
      refine ⟨_, rfl, fun c hc => ?_, hsome⟩
      rcases List.mem_append.mp hc with hc | hc
      · exact Or.inl (hwhole c hc)
      · rcases List.mem_cons.mp hc with rfl | hc
        · exact Or.inr rfl
        · exact Or.inl (hfraction c hc)

/-- A number reads as the decimal of its parts. -/
theorem readNumber_of_isNumber {word whole fraction : List Char} {negative : Bool}
    (h : IsNumber word negative whole fraction) :
    readNumber word =
      some (.decimal negative (digitsValue (whole ++ fraction)) (-fraction.length)) := by
  have hscan := scanNumber_of_isNumber h
  obtain ⟨body, rfl, hbody, hsome⟩ := h.exists_body
  have hhead : body.head? ≠ some '-' := by
    intro hminus
    rcases hbody '-' (List.mem_of_mem_head? hminus) with hdigit | hpoint
    · revert hdigit
      decide
    · revert hpoint
      decide
  rw [scanNumber_minus hhead] at hscan
  have hparts : takeDecimal body = (whole, fraction, []) := congrArg Prod.snd hscan
  have hnotEmpty : ¬(whole.isEmpty && fraction.isEmpty) = true := by simpa using hsome
  rw [readNumber_figures negative hbody, hparts, if_neg hnotEmpty]
  simp [readExponent]

theorem exists_takeDecimal (negative : Bool) (body : List Char) :
    ∃ word, minus negative ++ body = word ++ (takeDecimal body).2.2 ∧
      ((takeDecimal body).1 ++ (takeDecimal body).2.1 ≠ [] →
        IsNumber word negative (takeDecimal body).1 (takeDecimal body).2.1) := by
  have hsplit := (List.takeWhile_append_dropWhile (p := isDigit) (l := body)).symm
  unfold takeDecimal
  split
  · next rest hrest =>
      rw [hrest] at hsplit
      refine ⟨minus negative ++ (body.takeWhile isDigit ++ '.' :: rest.takeWhile isDigit), ?_, ?_⟩
      · conv_lhs => rw [hsplit, ← List.takeWhile_append_dropWhile (p := isDigit) (l := rest)]
        simp only [List.append_assoc, List.cons_append]
      · exact fun hsome => .pointed (fun c => List.mem_takeWhile_imp)
          (fun c => List.mem_takeWhile_imp) hsome
  · refine ⟨minus negative ++ body.takeWhile isDigit, ?_, ?_⟩
    · conv_lhs => rw [hsplit]
      simp only [List.append_assoc]
    · exact fun hsome => .whole (fun c => List.mem_takeWhile_imp) (by simpa using hsome)

theorem exists_word_of_scanNumber {text whole fraction behind : List Char} {negative : Bool}
    (h : scanNumber text = (negative, whole, fraction, behind)) :
    ∃ word, text = word ++ behind ∧
      (whole ++ fraction ≠ [] → IsNumber word negative whole fraction) := by
  unfold scanNumber at h
  split at h
  · next body =>
      obtain ⟨word, hword, hnumber⟩ := exists_takeDecimal true body
      injection h with hnegative hparts
      subst hnegative
      rw [hparts] at hword hnumber
      exact ⟨word, hword, hnumber⟩
  · obtain ⟨word, hword, hnumber⟩ := exists_takeDecimal false text
    injection h with hnegative hparts
    subst hnegative
    rw [hparts] at hword hnumber
    exact ⟨word, hword, hnumber⟩

theorem longestToken_of_scanNumber {text word rest whole fraction : List Char} {negative : Bool}
    (hscan : scanNumber text = (negative, whole, fraction, rest)) (hsplit : text = word ++ rest)
    (hnumber : IsNumber word negative whole fraction) : LongestToken text word rest := by
  refine ⟨hsplit, Or.inr (Or.inl ⟨negative, whole, fraction, hnumber⟩), ?_⟩
  intro longer hstart htoken
  obtain ⟨c, tail, rfl⟩ :=
    List.exists_cons_of_ne_nil (IsToken.ne_nil (Or.inr (Or.inl ⟨_, _, _, hnumber⟩)))
  rw [hsplit, List.cons_append] at hstart
  obtain ⟨others, rfl, -⟩ := exists_cons_of_prefix hstart htoken
  obtain ⟨_, _, _, hlonger⟩ := htoken.isNumber (startsNumber_of_isNumber hnumber)
  obtain ⟨rest', hrest'⟩ := hstart
  obtain ⟨ds, es, behind, hscan', hbehind⟩ := scanNumber_append hlonger rest'
  rw [hrest', ← List.cons_append, ← hsplit, hscan] at hscan'
  have hrest : rest = behind := congrArg (fun parts => parts.2.2.2) hscan'
  have hlength := congrArg List.length hrest'
  simp only [List.length_append, List.length_cons] at hlength ⊢
  rw [hrest] at hlength
  omega

/-- A number is the token that a text starts with when the scan for a number ends behind it. -/
theorem longestToken_number {text word rest whole fraction : List Char} {negative : Bool} :
    LongestToken text word rest ∧ IsNumber word negative whole fraction ↔
      scanNumber text = (negative, whole, fraction, rest) ∧ whole ++ fraction ≠ [] ∧
        text = word ++ rest := by
  constructor
  · rintro ⟨htoken, hnumber⟩
    obtain ⟨ds, es, behind, hscan, -⟩ := scanNumber_append hnumber rest
    rw [← htoken.split] at hscan
    obtain ⟨word', hsplit', hnumber'⟩ := exists_word_of_scanNumber hscan
    have hsome : whole ++ fraction ≠ [] := by
      cases hnumber with
      | whole hwhole hsome => simpa using hsome
      | pointed hwhole hfraction hsome => exact hsome
    have hdigits : whole ++ ds ++ (fraction ++ es) ≠ [] := by
      simp only [ne_eq, List.append_eq_nil_iff, not_and] at hsome ⊢
      intro hleft hfraction
      exact absurd hfraction (hsome hleft.1)
    obtain ⟨rfl, rfl⟩ :=
      htoken.unique (longestToken_of_scanNumber hscan hsplit' (hnumber' hdigits))
    -- The same word is scanned as both numbers.
    have hparts := (scanNumber_of_isNumber hnumber).symm.trans
      (scanNumber_of_isNumber (hnumber' hdigits))
    simp only [Prod.mk.injEq, List.self_eq_append_right, true_and, and_true] at hparts
    rw [hparts.1, hparts.2, List.append_nil, List.append_nil] at hscan
    exact ⟨hscan, hsome, htoken.split⟩
  · rintro ⟨hscan, hsome, hsplit⟩
    obtain ⟨word', hsplit', hnumber⟩ := exists_word_of_scanNumber hscan
    obtain rfl := List.append_cancel_right (hsplit.symm.trans hsplit')
    exact ⟨longestToken_of_scanNumber hscan hsplit (hnumber hsome), hnumber hsome⟩

theorem longestToken_symbol {text word rest : List Char} (hword : word ∈ symbols) :
    LongestToken text word rest ↔
      text = word ++ rest ∧ ∀ longer ∈ symbols, longer <+: text → longer.length ≤ word.length := by
  constructor
  · intro h
    exact ⟨h.split, fun longer hmem hstart => h.longest longer hstart (Or.inr (Or.inr hmem))⟩
  · rintro ⟨hsplit, hlongest⟩
    refine ⟨hsplit, Or.inr (Or.inr hword), ?_⟩
    intro longer hstart htoken
    obtain ⟨c, tail, rfl⟩ := List.exists_cons_of_ne_nil (IsToken.ne_nil (Or.inr (Or.inr hword)))
    have hhead := head_of_mem_symbols hword
    have hname : ¬ StartsName c := fun hc => by
      have hle := le_of_startsName hc
      omega
    have hnumber : ¬ StartsNumber c := by
      rintro (hc | hc | hc)
      · simp [hhead.2.1] at hc
      · exact hhead.2.2.1 hc
      · exact hhead.2.2.2.1 hc
    have hlonger := hstart
    rw [hsplit] at hstart
    obtain ⟨others, rfl, -⟩ := exists_cons_of_prefix hstart htoken
    exact hlongest _ (htoken.mem_symbols hname hnumber) hlonger

/-! ## Splitting -/

theorem splits_cons_iff {text word behind : List Char} {words : List (List Char)} :
    Splits text (word :: words) behind ↔
      ∃ rest, LongestToken (trimStart text) word rest ∧ Splits rest words behind := by
  constructor
  · intro h
    cases h with
    | @cons blanks text _ rest _ _ hblanks hword hrest =>
        obtain ⟨c, tail, rfl, rfl⟩ := hword.exists_cons
        have hc : ¬ isBlank c = true := by simp [hword.isToken.not_isBlank]
        refine ⟨rest, ?_, hrest⟩
        rw [trimStart, List.dropWhile_append_of_pos hblanks, List.dropWhile_cons_of_neg hc]
        exact hword
  · rintro ⟨rest, hword, hrest⟩
    rw [← List.takeWhile_append_dropWhile (p := isBlank) (l := text)]
    exact .cons (fun c => List.mem_takeWhile_imp) hword hrest

/-- Blanks in front of the first token do not count. -/
theorem splits_trimStart_iff {text word behind : List Char} {words : List (List Char)} :
    Splits (trimStart text) (word :: words) behind ↔ Splits text (word :: words) behind := by
  have htrim : trimStart (trimStart text) = trimStart text := List.dropWhile_idempotent isBlank text
  rw [splits_cons_iff, splits_cons_iff, htrim]

theorem splits_append_iff {text behind : List Char} {words others : List (List Char)} :
    Splits text (words ++ others) behind ↔
      ∃ rest, Splits text words rest ∧ Splits rest others behind := by
  induction words generalizing text with
  | nil =>
      constructor
      · exact fun h => ⟨text, .nil, h⟩
      · rintro ⟨rest, h, hothers⟩
        cases h
        exact hothers
  | cons word words ih =>
      simp only [List.cons_append, splits_cons_iff, ih]
      constructor
      · rintro ⟨mid, hword, rest, hwords, hothers⟩
        exact ⟨rest, ⟨mid, hword, hwords⟩, hothers⟩
      · rintro ⟨rest, ⟨mid, hword, hwords⟩, hothers⟩
        exact ⟨mid, hword, rest, hwords, hothers⟩

end Grammar
end Backtester
