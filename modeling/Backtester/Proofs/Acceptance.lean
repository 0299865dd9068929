import Backtester.Proofs.Grammar

/-!
# What the condition reader accepts

Reading a condition text succeeds on exactly the texts of the grammar, with the conditions that the
grammar derives.

* `startsWithKeyword_iff` — the look-ahead for a word of the grammar sees a whole token.
* `readOperand_iff`, `readComparator_iff`, `skipConjunction_iff` — each reader of one token takes
  the token that comes next, and no other one.
* `readCondition_iff` — the look-ahead for a call commits to the form that the tokens have.
* `isRule_of_readConditions`, `readConditions_of_isRule` — a list of conditions, both ways.
* `readRule_of_isRule` — a text of tokens that form a rule.
* `ofText_eq_ok_iff` — whole texts.
-/

namespace Backtester
namespace Grammar

/-! ## Keywords -/

/-- The words of the grammar. -/
def keywords : List (List Char) :=
  ["and".toList, "crosses_above".toList, "crosses_below".toList, "above".toList, "below".toList,
    "equals".toList]

theorem asciiLower_eq_or (c : Char) : asciiLower c = c ∨ isAlphabetic c = true := by
  unfold asciiLower
  split
  · next hupper =>
      rw [Bool.and_eq_true, decide_eq_true_iff, decide_eq_true_iff] at hupper
      have hfirst : 0x41 ≤ c.toNat := hupper.1
      have hlast : c.toNat ≤ 0x5A := hupper.2
      right
      unfold isAlphabetic alphabeticRanges
      rw [inRanges, if_neg (by omega), if_pos hlast]
  · exact Or.inl rfl

theorem isAlphabetic_of_asciiLower {c : Char} (h : isAlphabetic (asciiLower c) = true) :
    isAlphabetic c = true := by
  rcases asciiLower_eq_or c with hc | hc
  · rwa [hc] at h
  · exact hc

theorem isWordChar_of_asciiLower {c : Char} (h : isWordChar (asciiLower c) = true) :
    isWordChar c = true := by
  rcases asciiLower_eq_or c with hc | hc
  · rwa [hc] at h
  · simp [isWordChar, hc]

theorem letters_of_mem_keywords {keyword : List Char} (h : keyword ∈ keywords) :
    keyword.map asciiLower = keyword ∧ keyword.head?.any isAlphabetic = true ∧
      ∀ c ∈ keyword, isWordChar c = true := by
  simp only [keywords, List.mem_cons, List.not_mem_nil, or_false] at h
  have hletters : keyword.map asciiLower = keyword ∧ keyword.head?.any isAlphabetic = true ∧
      keyword.all isWordChar = true := by
    rcases h with rfl | rfl | rfl | rfl | rfl | rfl <;> decide
  exact ⟨hletters.1, hletters.2.1, List.all_eq_true.mp hletters.2.2⟩

/-- A word of the grammar in any letter case is a name. -/
theorem SameWord.isName {word keyword : List Char} (h : SameWord word keyword)
    (hkeyword : keyword ∈ keywords) : IsName word := by
  obtain ⟨-, hhead, hword⟩ := letters_of_mem_keywords hkeyword
  rw [← h] at hhead hword
  cases word with
  | nil => simp at hhead
  | cons c tail =>
      simp only [List.map_cons, List.head?_cons, Option.any_some] at hhead
      refine isName_cons_iff.mpr ⟨Or.inl (isAlphabetic_of_asciiLower hhead), fun x hx => ?_⟩
      exact isWordChar_of_asciiLower (hword _ (List.mem_map_of_mem (List.mem_cons_of_mem c hx)))

theorem SameWord.length_eq {word keyword : List Char} (h : SameWord word keyword) :
    word.length = keyword.length := by
  rw [← h, List.length_map]

/-- A word of the grammar is seen exactly when it is the token that comes next. -/
theorem startsWithKeyword_iff {keyword : List Char} (hkeyword : keyword ∈ keywords) {c : Cursor} :
    startsWithKeyword keyword c = true ↔
      ∃ word rest, LongestToken c.rest word rest ∧ SameWord word keyword := by
  obtain ⟨hlower, -, -⟩ := letters_of_mem_keywords hkeyword
  unfold startsWithKeyword equalIgnoringCase
  rw [Bool.and_eq_true, beq_iff_eq, Bool.not_eq_true', hlower]
  constructor
  · rintro ⟨hword, hbehind⟩
    refine ⟨c.rest.take keyword.length, c.rest.drop keyword.length, ?_, hword⟩
    have htoken := (longestToken_append_iff (SameWord.isName hword hkeyword)).mpr hbehind
    rwa [List.take_append_drop] at htoken
  · rintro ⟨word, rest, htoken, hword⟩
    have hsplit := htoken.split
    rw [hsplit, longestToken_append_iff (hword.isName hkeyword)] at htoken
    rw [hsplit, ← hword.length_eq, List.take_left, List.drop_left]
    exact ⟨hword, htoken⟩

/-! ## Tables of words and signs -/

theorem skipBlanks_rest (c : Cursor) : c.skipBlanks.rest = trimStart c.rest := rfl

theorem skipWhile_rest (c : Cursor) (p : Char → Bool) :
    (c.skipWhile p).rest = c.rest.dropWhile p := rfl

theorem advance_rest (c : Cursor) (n : Nat) : (c.advance n).rest = c.rest.drop n := rfl

theorem rest_of_sameWord {c : Cursor} {word keyword rest : List Char}
    (htoken : LongestToken c.rest word rest) (hword : SameWord word keyword) :
    (c.advance keyword.length).rest = rest := by
  rw [advance_rest, htoken.split, ← hword.length_eq, List.drop_left]

/-- Searching for a property that at most one entry has finds that entry. -/
theorem find?_eq_some_iff_of_unique {β : Type} {p : β → Bool} {entries : List β}
    (hunique : ∀ x ∈ entries, ∀ y ∈ entries, p x = true → p y = true → x = y) {x : β} :
    entries.find? p = some x ↔ x ∈ entries ∧ p x = true := by
  constructor
  · exact fun h => ⟨List.mem_of_find?_eq_some h, List.find?_some h⟩
  · rintro ⟨hmem, hx⟩
    obtain ⟨y, hy⟩ := Option.isSome_iff_exists.mp (List.find?_isSome.mpr ⟨x, hmem, hx⟩)
    rw [hy, hunique y (List.mem_of_find?_eq_some hy) x hmem (List.find?_some hy) hx]

/-- At most one word of the grammar is seen at a place. -/
theorem keyword_unique {keyword other : List Char} {c : Cursor} (hkeyword : keyword ∈ keywords)
    (hother : other ∈ keywords) (h : startsWithKeyword keyword c = true)
    (h' : startsWithKeyword other c = true) : keyword = other := by
  obtain ⟨word, rest, htoken, hword⟩ := (startsWithKeyword_iff hkeyword).mp h
  obtain ⟨word', rest', htoken', hword'⟩ := (startsWithKeyword_iff hother).mp h'
  obtain ⟨rfl, -⟩ := htoken.unique htoken'
  exact hword.symm.trans hword'

/-- The comparators that are words are searched by the token that comes next. -/
theorem find?_comparatorWords_eq_some_iff {c : Cursor} {entry : List Char × Comparator} :
    comparatorWords.find? (fun entry => startsWithKeyword entry.1 c) = some entry ↔
      entry ∈ comparatorWords ∧
        ∃ word rest, LongestToken c.rest word rest ∧ SameWord word entry.1 := by
  have hkeywords : ∀ x ∈ comparatorWords, x.1 ∈ keywords := by decide
  have hdistinct : ∀ x ∈ comparatorWords, ∀ y ∈ comparatorWords, x.1 = y.1 → x = y := by decide
  rw [find?_eq_some_iff_of_unique fun x hx y hy hxc hyc =>
    hdistinct x hx y hy (keyword_unique (hkeywords x hx) (hkeywords y hy) hxc hyc)]
  exact and_congr_right fun hmem => startsWithKeyword_iff (hkeywords entry hmem)

/-- The names of calls are searched by the token that comes next, if a parenthesis follows it. -/
theorem find?_callNames_eq_some_iff {c : Cursor} {entry : List Char × Comparator} :
    callNames.find? (fun entry => startsWithCall entry.1 c) = some entry ↔
      entry ∈ callNames ∧ ∃ word rest, LongestToken c.rest word rest ∧ SameWord word entry.1 ∧
        (trimStart rest).head? = some '(' := by
  have hkeywords : ∀ x ∈ callNames, x.1 ∈ keywords := by decide
  have hdistinct : ∀ x ∈ callNames, ∀ y ∈ callNames, x.1 = y.1 → x = y := by decide
  have hcall (x : List Char) : startsWithCall x c = true ↔
      startsWithKeyword x c = true ∧ (trimStart (c.rest.drop x.length)).head? = some '(' := by
    simp [startsWithCall]
  rw [find?_eq_some_iff_of_unique fun x hx y hy hxc hyc =>
    hdistinct x hx y hy (keyword_unique (hkeywords x hx) (hkeywords y hy) ((hcall _).mp hxc).1
      ((hcall _).mp hyc).1)]
  refine and_congr_right fun hmem => ?_
  rw [hcall, startsWithKeyword_iff (hkeywords entry hmem)]
  constructor
  · rintro ⟨⟨word, rest, htoken, hword⟩, hparenthesis⟩
    rw [← advance_rest, rest_of_sameWord htoken hword] at hparenthesis
    exact ⟨word, rest, htoken, hword, hparenthesis⟩
  · rintro ⟨word, rest, htoken, hword, hparenthesis⟩
    refine ⟨⟨word, rest, htoken, hword⟩, ?_⟩
    rwa [← advance_rest, rest_of_sameWord htoken hword]

theorem head?_eq_of_append {symbol longer rest : List Char} (hsymbol : symbol ∈ symbols)
    (hlonger : longer ∈ symbols) (hstart : longer <+: symbol ++ rest) :
    longer.head? = symbol.head? := by
  obtain ⟨c, tail, rfl⟩ :=
    List.exists_cons_of_ne_nil (IsToken.ne_nil (Or.inr (Or.inr hsymbol)))
  obtain ⟨others, rfl, -⟩ := exists_cons_of_prefix hstart (Or.inr (Or.inr hlonger))
  rfl

/-- A symbol with a first character of its own is the whole token. -/
theorem longestToken_alone {symbol rest : List Char} (h : symbol ∈ symbols)
    (halone : ∀ other ∈ symbols, other.head? = symbol.head? → other = symbol) :
    LongestToken (symbol ++ rest) symbol rest := by
  refine (longestToken_symbol h).mpr ⟨rfl, fun longer hmem hstart => ?_⟩
  rw [halone longer hmem (head?_eq_of_append h hmem hstart)]

theorem isComparator_iff {word : List Char} {comparator : Comparator} :
    IsComparator word comparator ↔ (word, comparator) ∈ comparatorSigns ∨
      ∃ keyword, (keyword, comparator) ∈ comparatorWords ∧ SameWord word keyword := by
  constructor
  · intro h
    cases h with
    | crossesAbove h => exact Or.inr ⟨_, by simp [comparatorWords], h⟩
    | crossesBelow h => exact Or.inr ⟨_, by simp [comparatorWords], h⟩
    | gt | lt | ge | le | eq | eqShort => exact Or.inl (by simp [comparatorSigns])
  · rintro (h | ⟨keyword, hkeyword, h⟩)
    · simp only [comparatorSigns, List.mem_cons, Prod.mk.injEq, List.not_mem_nil, or_false] at h
      rcases h with ⟨rfl, rfl⟩ | ⟨rfl, rfl⟩ | ⟨rfl, rfl⟩ | ⟨rfl, rfl⟩ | ⟨rfl, rfl⟩ | ⟨rfl, rfl⟩ <;>
        constructor
    · simp only [comparatorWords, List.mem_cons, Prod.mk.injEq, List.not_mem_nil, or_false]
        at hkeyword
      rcases hkeyword with ⟨rfl, rfl⟩ | ⟨rfl, rfl⟩
      · exact .crossesAbove h
      · exact .crossesBelow h

theorem isCallName_iff {word : List Char} {comparator : Comparator} :
    IsCallName word comparator ↔
      ∃ keyword, (keyword, comparator) ∈ callNames ∧ SameWord word keyword := by
  constructor
  · intro h
    cases h with
    | crossesAbove h | crossesBelow h | above h | below h | equals h =>
        exact ⟨_, by simp [callNames], h⟩
  · rintro ⟨keyword, hkeyword, h⟩
    simp only [callNames, List.mem_cons, Prod.mk.injEq, List.not_mem_nil, or_false] at hkeyword
    rcases hkeyword with ⟨rfl, rfl⟩ | ⟨rfl, rfl⟩ | ⟨rfl, rfl⟩ | ⟨rfl, rfl⟩ | ⟨rfl, rfl⟩
    · exact .crossesAbove h
    · exact .crossesBelow h
    · exact .above h
    · exact .below h
    · exact .equals h

/-- Longer signs come first in the table, so the first one that fits is the whole token. -/
theorem longestToken_of_find? {text : List Char} {entry : List Char × Comparator}
    (h : comparatorSigns.find? (fun entry => entry.1.isPrefixOf text) = some entry) :
    LongestToken text entry.1 (text.drop entry.1.length) := by
  have hsymbols : ∀ x ∈ comparatorSigns, x.1 ∈ symbols := by decide
  have hsigns : ∀ x ∈ comparatorSigns, ∀ longer ∈ symbols, longer.head? = x.1.head? →
      ∃ y ∈ comparatorSigns, y.1 = longer := by decide
  have hsorted : comparatorSigns.Pairwise (fun x y => y.1.length ≤ x.1.length) := by decide
  have hmem := List.mem_of_find?_eq_some h
  obtain ⟨hentry, before, after, htable, hbefore⟩ := List.find?_eq_some_iff_append.mp h
  obtain ⟨rest, rfl⟩ := List.isPrefixOf_iff_prefix.mp hentry
  rw [List.drop_left]
  refine (longestToken_symbol (hsymbols _ hmem)).mpr ⟨rfl, fun longer hlonger hstart => ?_⟩
  obtain ⟨y, hy, rfl⟩ :=
    hsigns _ hmem longer hlonger (head?_eq_of_append (hsymbols _ hmem) hlonger hstart)
  rw [htable] at hy hsorted
  rcases List.mem_append.mp hy with hy | hy
  · have hnot := hbefore y hy
    rw [List.isPrefixOf_iff_prefix.mpr hstart] at hnot
    cases hnot
  · rcases List.mem_cons.mp hy with rfl | hy
    · exact Nat.le_refl _
    · exact List.rel_of_pairwise_cons (List.pairwise_append.mp hsorted).2.1 hy

theorem find?_comparatorSigns_eq_some_iff {text sign rest : List Char} {comparator : Comparator} :
    comparatorSigns.find? (fun entry => entry.1.isPrefixOf text) = some (sign, comparator) ∧
        text.drop sign.length = rest ↔
      (sign, comparator) ∈ comparatorSigns ∧ LongestToken text sign rest := by
  have hdistinct : ∀ x ∈ comparatorSigns, ∀ y ∈ comparatorSigns, x.1 = y.1 → x = y := by decide
  constructor
  · rintro ⟨h, rfl⟩
    exact ⟨List.mem_of_find?_eq_some h, longestToken_of_find? h⟩
  · rintro ⟨hmem, htoken⟩
    have hfits : (sign, comparator).1.isPrefixOf text = true :=
      List.isPrefixOf_iff_prefix.mpr ⟨rest, htoken.split.symm⟩
    obtain ⟨y, hy⟩ := Option.isSome_iff_exists.mp
      (List.find?_isSome (p := fun entry => entry.1.isPrefixOf text)
        |>.mpr ⟨(sign, comparator), hmem, hfits⟩)
    obtain ⟨hsign, hrest⟩ := (longestToken_of_find? hy).unique htoken
    rw [hy, hdistinct y (List.mem_of_find?_eq_some hy) _ hmem hsign]
    exact ⟨rfl, by rw [← hrest, hsign]⟩

/-! ## Readers of one token -/

/-- A parenthesis or a comma is read exactly when it is the token that comes next. -/
theorem expectChar_iff {wanted : Char} (hwanted : wanted = '(' ∨ wanted = ')' ∨ wanted = ',')
    {c : Cursor} {rest : List Char} :
    (∃ c', expectChar wanted c = .ok c' ∧ c'.rest = rest) ↔
      LongestToken (trimStart c.rest) [wanted] rest := by
  unfold expectChar
  simp only [skipBlanks_rest]
  constructor
  · rintro ⟨c', h, rfl⟩
    split at h
    · next next tail htext =>
        split at h
        · next hnext =>
            cases h
            have halone : [wanted] ∈ symbols ∧
                ∀ other ∈ symbols, other.head? = [wanted].head? → other = [wanted] := by
              rcases hwanted with rfl | rfl | rfl <;> decide
            rw [advance_rest, skipBlanks_rest, htext, hnext]
            exact longestToken_alone halone.1 halone.2
        · cases h
    · cases h
  · intro htoken
    rw [htoken.split]
    refine ⟨c.skipBlanks.advance 1, by simp, ?_⟩
    rw [advance_rest, skipBlanks_rest, htoken.split]
    rfl

/-- A comparator is read exactly when the token that comes next is one. -/
theorem readComparator_iff {c : Cursor} {comparator : Comparator} {rest : List Char} :
    (∃ c', readComparator c = .ok (comparator, c') ∧ c'.rest = rest) ↔
      ∃ word, LongestToken (trimStart c.rest) word rest ∧ IsComparator word comparator := by
  have hkeywords : ∀ entry ∈ comparatorWords, entry.1 ∈ keywords := by decide
  have hsymbols : ∀ entry ∈ comparatorSigns, entry.1 ∈ symbols := by decide
  unfold readComparator
  simp only [isComparator_iff]
  constructor
  · rintro ⟨c', h, rfl⟩
    split at h
    · next sign found hsign =>
        cases h
        obtain ⟨hmem, htoken⟩ := find?_comparatorSigns_eq_some_iff.mp ⟨hsign, rfl⟩
        exact ⟨sign, htoken, Or.inl hmem⟩
    · split at h
      · next keyword found hkeyword =>
          cases h
          obtain ⟨hmem, word, rest, htoken, hword⟩ := find?_comparatorWords_eq_some_iff.mp hkeyword
          rw [rest_of_sameWord htoken hword]
          exact ⟨word, htoken, Or.inr ⟨keyword, hmem, hword⟩⟩
      · cases h
  · rintro ⟨word, htoken, hmem | ⟨keyword, hmem, hword⟩⟩
    · obtain ⟨hsign, hrest⟩ := find?_comparatorSigns_eq_some_iff.mpr ⟨hmem, htoken⟩
      rw [← skipBlanks_rest] at hsign
      exact ⟨c.skipBlanks.advance word.length, by rw [hsign], hrest⟩
    · have hsign : comparatorSigns.find? (fun entry => entry.1.isPrefixOf c.skipBlanks.rest) = none := by
        by_contra hsome
        obtain ⟨entry, hentry⟩ := Option.ne_none_iff_exists'.mp hsome
        obtain ⟨rfl, -⟩ := (longestToken_of_find? hentry).unique htoken
        obtain ⟨x, tail, hx, hstart⟩ := (hword.isName (hkeywords _ hmem))
        have hsymbol := hsymbols _ (List.mem_of_find?_eq_some hentry)
        rw [hx] at hsymbol
        have hlt := (head_of_mem_symbols hsymbol).1
        have hle := le_of_startsName hstart.1
        omega
      have hfound := find?_comparatorWords_eq_some_iff (c := c.skipBlanks).mpr
        ⟨hmem, word, rest, htoken, hword⟩
      exact ⟨c.skipBlanks.advance keyword.length, by rw [hsign, hfound], rest_of_sameWord htoken hword⟩

/-- A number is read exactly when it is the token at the cursor. -/
theorem readLiteral_iff {α : Type} [Scalar α] {c : Cursor} {operand : Operand α}
    {rest : List Char} :
    (∃ c', readLiteral c = .ok (operand, c') ∧ c'.rest = rest) ↔
      ∃ word negative whole fraction, LongestToken c.rest word rest ∧
        IsNumber word negative whole fraction ∧ operand = .literal
          (Scalar.ofDecimal negative (digitsValue (whole ++ fraction)) (-fraction.length)) := by
  have hbehind (word behind : List Char) :
      (word ++ behind).drop ((word ++ behind).length - behind.length) = behind := by simp
  unfold readLiteral
  constructor
  · rintro ⟨c', h, rfl⟩
    split at h
    next negative whole fraction behind hscan =>
      split at h
      · cases h
      · next hsome =>
          cases h
          obtain ⟨word, hsplit, -⟩ := exists_word_of_scanNumber hscan
          have hdigits : whole ++ fraction ≠ [] := by simpa using hsome
          obtain ⟨htoken, hnumber⟩ := longestToken_number.mpr ⟨hscan, hdigits, hsplit⟩
          refine ⟨word, negative, whole, fraction, ?_, hnumber, rfl⟩
          rw [advance_rest, hsplit, hbehind, ← hsplit]
          exact htoken
  · rintro ⟨word, negative, whole, fraction, htoken, hnumber, rfl⟩
    obtain ⟨hscan, hdigits, hsplit⟩ := longestToken_number.mp ⟨htoken, hnumber⟩
    have hsome : ¬ (whole.isEmpty && fraction.isEmpty) = true := by simpa using hdigits
    refine ⟨c.advance (c.rest.length - rest.length), ?_, ?_⟩
    · simp only [hscan, if_neg hsome]
    · rw [advance_rest, hsplit, hbehind]

/-- An operand is read exactly when the token that comes next is a number or a name. -/
theorem readOperand_iff {α : Type} [Scalar α] {c : Cursor} {operand : Operand α}
    {rest : List Char} :
    (∃ c', readOperand c = .ok (operand, c') ∧ c'.rest = rest) ↔
      ∃ word, LongestToken (trimStart c.rest) word rest ∧ IsOperand word operand := by
  have hnumberStart (x : Char) :
      (isDigit x || x == '-' || x == '.') = true ↔ StartsNumber x := by
    simp [StartsNumber, or_assoc]
  have hnameStart (x : Char) : (isAlphabetic x || x == '_') = true ↔ StartsName x := by
    simp [StartsName]
  have hlower (word : List Char) :
      String.ofList (lowerText word) = lowered (String.ofList word) := by simp [lowered]
  unfold readOperand
  constructor
  · rintro ⟨c', h, rfl⟩
    dsimp only at h
    split at h
    · next next tail htext =>
        split at h
        · obtain ⟨word, negative, whole, fraction, htoken, hnumber, rfl⟩ :=
            readLiteral_iff.mp ⟨c', h, rfl⟩
          exact ⟨word, htoken, .number hnumber⟩
        · split at h
          · next hname =>
              cases h
              have hstart := (hnameStart next).mp hname
              rw [← skipBlanks_rest, skipWhile_rest, htext, hlower]
              exact ⟨_, (longestToken_name hstart).mpr ⟨rfl, rfl⟩, .name (isName_takeWhile hstart tail)⟩
          · cases h
    · cases h
  · rintro ⟨word, htoken, hword⟩
    obtain ⟨x, tail, rfl, htext⟩ := htoken.exists_cons
    rw [← skipBlanks_rest] at htoken htext
    simp only [htext]
    cases hword with
    | number hnumber =>
        rw [if_pos ((hnumberStart x).mpr (startsNumber_of_isNumber hnumber))]
        exact readLiteral_iff.mpr ⟨_, _, _, _, htoken, hnumber, rfl⟩
    | name hname =>
        have hstart := (isName_cons_iff.mp hname).1
        have hnot : ¬ StartsNumber x := fun hx => by
          have hlt := lt_of_startsNumber hx
          have hle := le_of_startsName hstart
          omega
        rw [htext] at htoken
        obtain ⟨hrun, hrest⟩ := (longestToken_name hstart).mp htoken
        rw [if_neg (fun hx => hnot ((hnumberStart x).mp hx)), if_pos ((hnameStart x).mpr hstart),
          ← hrun, hlower]
        refine ⟨_, rfl, ?_⟩
        rw [skipWhile_rest, htext]
        exact hrest.symm

/-- A conjunction is passed exactly when the token that comes next is one. -/
theorem skipConjunction_iff {c : Cursor} {rest : List Char} :
    (∃ c', skipConjunction c = some c' ∧ c'.rest = rest) ↔
      ∃ word, LongestToken (trimStart c.rest) word rest ∧ IsConjunction word := by
  have hand : "and".toList ∈ keywords := by decide
  have hsign : ['&', '&'] ∈ symbols ∧
      ∀ other ∈ symbols, other.head? = ['&', '&'].head? → other = ['&', '&'] := by decide
  unfold skipConjunction
  constructor
  · rintro ⟨c', h, rfl⟩
    simp only at h
    split at h
    · next hkeyword =>
        cases h
        obtain ⟨word, rest, htoken, hword⟩ := (startsWithKeyword_iff hand).mp hkeyword
        exact ⟨word, rest_of_sameWord htoken hword ▸ htoken, .word hword⟩
    · split at h
      · next hstart =>
          cases h
          obtain ⟨rest, hrest⟩ := List.isPrefixOf_iff_prefix.mp hstart
          refine ⟨['&', '&'], ?_, .sign⟩
          rw [advance_rest, ← skipBlanks_rest, ← hrest]
          exact longestToken_alone hsign.1 hsign.2
      · cases h
  · rintro ⟨word, htoken, hword⟩
    rw [← skipBlanks_rest] at htoken
    cases hword with
    | word hword =>
        have hkeyword := (startsWithKeyword_iff hand).mpr ⟨word, rest, htoken, hword⟩
        refine ⟨c.skipBlanks.advance 3, ?_, rest_of_sameWord htoken hword⟩
        simp only [hkeyword, if_true]
    | sign =>
        have hkeyword : ¬ startsWithKeyword "and".toList c.skipBlanks = true := by
          rw [startsWithKeyword_iff hand]
          rintro ⟨word, rest', htoken', hword⟩
          obtain ⟨rfl, -⟩ := htoken.unique htoken'
          revert hword
          unfold SameWord
          decide
        have hstart : ['&', '&'].isPrefixOf c.skipBlanks.rest = true :=
          List.isPrefixOf_iff_prefix.mpr ⟨rest, htoken.split.symm⟩
        refine ⟨c.skipBlanks.advance 2, ?_, ?_⟩
        · simp only [if_neg hkeyword, hstart, if_true]
        · rw [advance_rest, htoken.split]
          rfl

/-! ## Conditions -/

variable {α : Type} [Scalar α]

theorem readArguments_iff {comparator : Comparator} {c : Cursor} {x : Condition α}
    {rest : List Char} :
    (∃ c', readArguments comparator c = .ok (x, c') ∧ c'.rest = rest) ↔
      ∃ first second left right, Splits c.rest [['('], first, [','], second, [')']] rest ∧
        IsOperand first left ∧ IsOperand second right ∧ x = ⟨left, comparator, right⟩ := by
  constructor
  · rintro ⟨c', h, rfl⟩
    unfold readArguments at h
    obtain ⟨c1, h1, h⟩ := bind_eq_ok.mp h
    obtain ⟨⟨left, c2⟩, h2, h⟩ := bind_eq_ok.mp h
    obtain ⟨c3, h3, h⟩ := bind_eq_ok.mp h
    obtain ⟨⟨right, c4⟩, h4, h⟩ := bind_eq_ok.mp h
    obtain ⟨c5, h5, h⟩ := bind_eq_ok.mp h
    cases h
    have hopen := (expectChar_iff (Or.inl rfl)).mp ⟨c1, h1, rfl⟩
    obtain ⟨first, hfirst, hleft⟩ := readOperand_iff.mp ⟨c2, h2, rfl⟩
    have hcomma := (expectChar_iff (Or.inr (Or.inr rfl))).mp ⟨c3, h3, rfl⟩
    obtain ⟨second, hsecond, hright⟩ := readOperand_iff.mp ⟨c4, h4, rfl⟩
    have hclose := (expectChar_iff (Or.inr (Or.inl rfl))).mp ⟨c', h5, rfl⟩
    refine ⟨first, second, left, right, ?_, hleft, hright, rfl⟩
    simp only [splits_cons_iff]
    exact ⟨_, hopen, _, hfirst, _, hcomma, _, hsecond, _, hclose, .nil⟩
  · rintro ⟨first, second, left, right, hsplits, hleft, hright, rfl⟩
    simp only [splits_cons_iff] at hsplits
    obtain ⟨_, hopen, _, hfirst, _, hcomma, _, hsecond, _, hclose, hend⟩ := hsplits
    cases hend
    obtain ⟨c1, h1, rfl⟩ := (expectChar_iff (Or.inl rfl)).mpr hopen
    obtain ⟨c2, h2, rfl⟩ := readOperand_iff.mpr ⟨first, hfirst, hleft⟩
    obtain ⟨c3, h3, rfl⟩ := (expectChar_iff (Or.inr (Or.inr rfl))).mpr hcomma
    obtain ⟨c4, h4, rfl⟩ := readOperand_iff.mpr ⟨second, hsecond, hright⟩
    obtain ⟨c5, h5, rfl⟩ := (expectChar_iff (Or.inr (Or.inl rfl))).mpr hclose
    refine ⟨c5, ?_, rfl⟩
    simp only [readArguments, bind, Except.bind, h1, h2, h3, h4, h5]
    rfl

theorem readComparison_iff {c : Cursor} {x : Condition α} {rest : List Char} :
    (∃ c', readComparison c = .ok (x, c') ∧ c'.rest = rest) ↔
      ∃ first sign second left comparator right, Splits c.rest [first, sign, second] rest ∧
        IsOperand first left ∧ IsComparator sign comparator ∧ IsOperand second right ∧
        x = ⟨left, comparator, right⟩ := by
  constructor
  · rintro ⟨c', h, rfl⟩
    unfold readComparison at h
    obtain ⟨⟨left, c1⟩, h1, h⟩ := bind_eq_ok.mp h
    obtain ⟨⟨comparator, c2⟩, h2, h⟩ := bind_eq_ok.mp h
    obtain ⟨⟨right, c3⟩, h3, h⟩ := bind_eq_ok.mp h
    cases h
    obtain ⟨first, hfirst, hleft⟩ := readOperand_iff.mp ⟨c1, h1, rfl⟩
    obtain ⟨sign, hsign, hcomparator⟩ := readComparator_iff.mp ⟨c2, h2, rfl⟩
    obtain ⟨second, hsecond, hright⟩ := readOperand_iff.mp ⟨c', h3, rfl⟩
    refine ⟨first, sign, second, left, comparator, right, ?_, hleft, hcomparator, hright, rfl⟩
    simp only [splits_cons_iff]
    exact ⟨_, hfirst, _, hsign, _, hsecond, .nil⟩
  · rintro ⟨first, sign, second, left, comparator, right, hsplits, hleft, hcomparator, hright, rfl⟩
    simp only [splits_cons_iff] at hsplits
    obtain ⟨_, hfirst, _, hsign, _, hsecond, hend⟩ := hsplits
    cases hend
    obtain ⟨c1, h1, rfl⟩ := readOperand_iff.mpr ⟨first, hfirst, hleft⟩
    obtain ⟨c2, h2, rfl⟩ := readComparator_iff.mpr ⟨sign, hsign, hcomparator⟩
    obtain ⟨c3, h3, rfl⟩ := readOperand_iff.mpr ⟨second, hsecond, hright⟩
    refine ⟨c3, ?_, rfl⟩
    simp only [readComparison, bind, Except.bind, h1, h2, h3]
    rfl

theorem IsComparator.head?_ne {word : List Char} {comparator : Comparator}
    (h : IsComparator word comparator) : word.head? ≠ some '(' := by
  have hsigns : ∀ x ∈ comparatorSigns, x.1.head? ≠ some '(' := by decide
  have hkeywords : ∀ x ∈ comparatorWords, x.1 ∈ keywords := by decide
  rcases isComparator_iff.mp h with hmem | ⟨keyword, hmem, hword⟩
  · exact hsigns _ hmem
  · obtain ⟨c, tail, rfl, hstart, -⟩ := hword.isName (hkeywords _ hmem)
    intro hhead
    rw [List.head?_cons, Option.some.injEq] at hhead
    subst hhead
    exact absurd (le_of_startsName hstart) (by decide)

/-- A condition is read exactly when the tokens that come next are one. -/
theorem readCondition_iff {c : Cursor} {x : Condition α} {rest : List Char} :
    (∃ c', readCondition c = .ok (x, c') ∧ c'.rest = rest) ↔
      ∃ words, Splits c.rest words rest ∧ IsCondition words x := by
  unfold readCondition
  dsimp only
  constructor
  · rintro ⟨c', h, hrest⟩
    split at h
    · next name comparator hfind =>
        obtain ⟨hmem, word, behind, htoken, hword, -⟩ := find?_callNames_eq_some_iff.mp hfind
        obtain ⟨first, second, left, right, hsplits, hleft, hright, rfl⟩ :=
          readArguments_iff.mp ⟨c', h, hrest⟩
        rw [rest_of_sameWord htoken hword] at hsplits
        exact ⟨_, splits_cons_iff.mpr ⟨behind, htoken, hsplits⟩,
          .call (isCallName_iff.mpr ⟨name, hmem, hword⟩) hleft hright⟩
    · obtain ⟨first, sign, second, left, comparator, right, hsplits, hleft, hsign, hright, rfl⟩ :=
        readComparison_iff.mp ⟨c', h, hrest⟩
      exact ⟨_, splits_trimStart_iff.mp hsplits, .comparison hleft hsign hright⟩
  · rintro ⟨words, hsplits, hcondition⟩
    cases hcondition with
    | @call word first second comparator left right hname hleft hright =>
        obtain ⟨name, hmem, hword⟩ := isCallName_iff.mp hname
        obtain ⟨behind, htoken, hsplits⟩ := splits_cons_iff.mp hsplits
        have hparenthesis : (trimStart behind).head? = some '(' := by
          obtain ⟨_, hopen, -⟩ := splits_cons_iff.mp hsplits
          rw [hopen.split]
          rfl
        have hfind := find?_callNames_eq_some_iff (c := c.skipBlanks).mpr
          ⟨hmem, word, behind, htoken, hword, hparenthesis⟩
        rw [hfind]
        refine readArguments_iff.mpr ⟨first, second, left, right, ?_, hleft, hright, rfl⟩
        rwa [rest_of_sameWord htoken hword]
    | @comparison first sign second comparator left right hleft hsign hright =>
        have hfind : callNames.find? (fun entry => startsWithCall entry.1 c.skipBlanks) = none := by
          by_contra hsome
          obtain ⟨entry, hentry⟩ := Option.ne_none_iff_exists'.mp hsome
          obtain ⟨-, word, behind, htoken, -, hparenthesis⟩ :=
            find?_callNames_eq_some_iff.mp hentry
          obtain ⟨behind', hfirst, hsplits⟩ := splits_cons_iff.mp hsplits
          obtain ⟨-, rfl⟩ := htoken.unique hfirst
          obtain ⟨_, hcomparator, -⟩ := splits_cons_iff.mp hsplits
          obtain ⟨x, tail, rfl, htext⟩ := hcomparator.exists_cons
          rw [htext] at hparenthesis
          exact hsign.head?_ne hparenthesis
        rw [hfind]
        exact readComparison_iff.mpr ⟨first, sign, second, left, comparator, right,
          splits_trimStart_iff.mpr hsplits, hleft, hsign, hright, rfl⟩

/-! ## Rules -/

theorem readConditions_last {c c1 : Cursor} {x : Condition α}
    (hfirst : readCondition c = .ok (x, c1)) (hnext : skipConjunction c1 = none) :
    readConditions c = .ok ([x], c1) := by
  unfold readConditions
  split
  · next h =>
      rw [hfirst] at h
      cases h
  · next h =>
      rw [hfirst] at h
      cases h
      split
      · rfl
      · next h =>
          rw [hnext] at h
          cases h

theorem readConditions_more {c c1 c2 c3 : Cursor} {x : Condition α} {xs : List (Condition α)}
    (hfirst : readCondition c = .ok (x, c1)) (hnext : skipConjunction c1 = some c2)
    (hrest : readConditions c2 = .ok (xs, c3)) : readConditions c = .ok (x :: xs, c3) := by
  rw [readConditions]
  split
  · next h =>
      rw [hfirst] at h
      cases h
  · next h =>
      rw [hfirst] at h
      cases h
      split
      · next h =>
          rw [hnext] at h
          cases h
      · next h =>
          rw [hnext] at h
          cases h
          rw [hrest]

/-- Conditions that are read are derived from the tokens they are read from. -/
theorem isRule_of_readConditions (c : Cursor) {conditions : List (Condition α)} {c' : Cursor}
    (h : readConditions c = .ok (conditions, c')) :
    ∃ words, Splits c.rest words c'.rest ∧ IsRule words conditions := by
  fun_induction @readConditions α _ c generalizing conditions c' with
  | case1 => cases h
  | case2 c x c1 hfirst hnext =>
      cases h
      obtain ⟨words, hsplits, hcondition⟩ := readCondition_iff.mp ⟨c1, hfirst, rfl⟩
      exact ⟨words, hsplits, .condition hcondition⟩
  | case3 => cases h
  | case4 c x c1 hfirst c2 hnext xs c3 hrest ih =>
      cases h
      obtain ⟨words, hsplits, hcondition⟩ := readCondition_iff.mp ⟨c1, hfirst, rfl⟩
      obtain ⟨joint, htoken, hjoint⟩ := skipConjunction_iff.mp ⟨c2, hnext, rfl⟩
      obtain ⟨others, hothers, hrule⟩ := ih hrest
      exact ⟨words ++ joint :: others, splits_append_iff.mpr
        ⟨c1.rest, hsplits, splits_cons_iff.mpr ⟨c2.rest, htoken, hothers⟩⟩,
        .conjunction hcondition hjoint hrule⟩

theorem skipConjunction_eq_none {c : Cursor} (h : ∀ x ∈ c.rest, isBlank x = true) :
    skipConjunction c = none := by
  by_contra hsome
  obtain ⟨c', hc'⟩ := Option.ne_none_iff_exists'.mp hsome
  obtain ⟨word, htoken, -⟩ := skipConjunction_iff.mp ⟨c', hc', rfl⟩
  obtain ⟨x, tail, -, htext⟩ := htoken.exists_cons
  rw [trimStart, List.dropWhile_eq_nil_iff.mpr h] at htext
  cases htext

/-- Tokens that form a rule, with nothing but blanks behind them, are read to the end. -/
theorem readConditions_of_isRule {words : List (List Char)} {conditions : List (Condition α)}
    (hrule : IsRule words conditions) {c : Cursor} {behind : List Char}
    (hsplits : Splits c.rest words behind) (hbehind : ∀ x ∈ behind, isBlank x = true) :
    ∃ c', readConditions c = .ok (conditions, c') ∧ c'.rest = behind := by
  induction hrule generalizing c with
  | condition hcondition =>
      obtain ⟨c1, hfirst, rfl⟩ := readCondition_iff.mpr ⟨_, hsplits, hcondition⟩
      exact ⟨c1, readConditions_last hfirst (skipConjunction_eq_none hbehind), rfl⟩
  | conjunction hcondition hjoint _ ih =>
      obtain ⟨rest, hwords, hsplits⟩ := splits_append_iff.mp hsplits
      obtain ⟨rest', htoken, hothers⟩ := splits_cons_iff.mp hsplits
      obtain ⟨c1, hfirst, rfl⟩ := readCondition_iff.mpr ⟨_, hwords, hcondition⟩
      obtain ⟨c2, hnext, rfl⟩ := skipConjunction_iff.mpr ⟨_, htoken, hjoint⟩
      obtain ⟨c3, hrest, rfl⟩ := ih hothers
      exact ⟨c3, readConditions_more hfirst hnext hrest, rfl⟩

theorem IsRule.ne_nil {words : List (List Char)} {conditions : List (Condition α)}
    (h : IsRule words conditions) : words ≠ [] := by
  cases h with
  | condition hcondition => cases hcondition <;> simp
  | conjunction => simp

theorem isEmpty_trimStart_iff (text : List Char) :
    (trimStart text).isEmpty = true ↔ ∀ c ∈ text, isBlank c = true := by
  rw [List.isEmpty_iff, trimStart, List.dropWhile_eq_nil_iff]

/-- A text of tokens that form a rule, with blanks behind them, is read as its conditions. -/
theorem readRule_of_isRule {text behind : List Char} {words : List (List Char)}
    {conditions : List (Condition α)} (hsplits : Splits text words behind)
    (hbehind : ∀ x ∈ behind, isBlank x = true) (hrule : IsRule words conditions) :
    readRule text = .ok conditions := by
  obtain ⟨word, others, rfl⟩ := List.exists_cons_of_ne_nil hrule.ne_nil
  have hstart : (Cursor.start text).skipBlanks.rest = trimStart text := rfl
  have hsome : ¬ (Cursor.start text).skipBlanks.rest.isEmpty = true := by
    obtain ⟨rest, htoken, -⟩ := splits_cons_iff.mp hsplits
    obtain ⟨x, tail, -, htext⟩ := htoken.exists_cons
    rw [hstart, htext]
    simp
  obtain ⟨c, hread, rfl⟩ := readConditions_of_isRule hrule
    (c := (Cursor.start text).skipBlanks) (splits_trimStart_iff.mpr hsplits) hbehind
  have hend : c.skipBlanks.rest.isEmpty = true := (isEmpty_trimStart_iff _).mpr hbehind
  unfold readRule
  dsimp only
  rw [if_neg hsome, hread]
  dsimp only
  rw [if_pos hend]

end Grammar

open Grammar

/-- A text is read as conditions exactly when it consists of longest tokens, with blanks before and
behind them, from which the grammar derives these conditions. -/
theorem ofText_eq_ok_iff {α : Type} [Scalar α] (text : String) (conditions : List (Condition α)) :
    Condition.ofText? text = .ok conditions ↔
      ∃ words behind, Splits text.toList words behind ∧ (∀ c ∈ behind, isBlank c = true) ∧
        IsRule words conditions := by
  unfold Condition.ofText?
  constructor
  · intro h
    unfold readRule at h
    dsimp only at h
    split at h
    · cases h
    · split at h
      · cases h
      · next found c hread =>
          split at h
          · next hend =>
              cases h
              obtain ⟨words, hsplits, hrule⟩ := isRule_of_readConditions _ hread
              obtain ⟨word, others, rfl⟩ := List.exists_cons_of_ne_nil hrule.ne_nil
              exact ⟨_, c.rest, splits_trimStart_iff.mp hsplits,
                (isEmpty_trimStart_iff _).mp hend, hrule⟩
          · cases h
  · rintro ⟨words, behind, hsplits, hbehind, hrule⟩
    exact readRule_of_isRule hsplits hbehind hrule

end Backtester
