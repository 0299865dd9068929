import Backtester.Proofs.BytePositions
import Backtester.Proofs.ExitPrices
import Backtester.Proofs.Grammar
import Backtester.Strategy

/-!
# The percentage in a constraint

A constraint about a stop is searched for its first percentage.  Each percent sign is tried in turn:
from the sign backwards over blanks, then over the longest run of digits and points; what is left of
the run without the points it starts with has to be a number.

* `EndsInNumber`, `FirstPercentage` — the number before a sign, and the first sign that has one.
* `readNumber_eq_some_iff` — digits and points are read as a number exactly if they are one.
* `figureBefore_eq_some_iff` — the search backwards from a sign.
* `firstPercentage_found`, `firstPercentage_passes` — what one character does to the search.
* `firstPercentage_eq_some_iff` — the search from sign to sign.
* `ByteSearch.percentage` — the search over byte positions, with a slice for each part of the text;
  `ByteSearch.figureAt_append`, `ByteSearch.firstAt_append` — no slice splits a character.
* `stop_percentage_exact` — when a constraint has a percentage, and which.
-/

namespace Backtester

open Grammar

/-! ## Figures before a sign -/

/-- A text ends in a number: before the blanks at its end stands the longest run of digits and
points, and without the points it starts with, the run is a number. -/
inductive EndsInNumber : List Char → (whole fraction : List Char) → Prop
  | intro {front points word blanks whole fraction : List Char}
      (hfront : ∀ c ∈ front.getLast?, isFigureChar c = false)
      (hpoints : ∀ c ∈ points, c = '.') (hfirst : word.head? ≠ some '.')
      (hword : IsNumber word false whole fraction) (hblanks : ∀ c ∈ blanks, isBlank c = true) :
      EndsInNumber (front ++ (points ++ (word ++ blanks))) whole fraction

/-- The first percentage of a text is the number before a percent sign, and no percent sign before
that one has a number before it. -/
inductive FirstPercentage : List Char → (whole fraction : List Char) → Prop
  | intro {before behind whole fraction : List Char} (hnumber : EndsInNumber before whole fraction)
      (hfirst : ∀ earlier later, before = earlier ++ '%' :: later →
        ∀ whole fraction, ¬EndsInNumber earlier whole fraction) :
      FirstPercentage (before ++ '%' :: behind) whole fraction

/-- The scalar that the digits of a number stand for. -/
def scalarOf {α : Type} [Scalar α] (whole fraction : List Char) : α :=
  Scalar.ofDecimal false (digitsValue (whole ++ fraction)) (-fraction.length)

theorem isFigureChar_iff {c : Char} : isFigureChar c = true ↔ isDigit c = true ∨ c = '.' := by
  rw [isFigureChar, Bool.or_eq_true, beq_iff_eq]

theorem isBlank_of_isFigureChar {c : Char} (h : isFigureChar c = true) : isBlank c = false := by
  rcases isFigureChar_iff.mp h with hdigit | rfl
  · exact not_isBlank_of_isDigit hdigit
  · rfl

/-- Digits and points are no exponent, since they have no letter. -/
theorem readExponent_eq_some_iff {rest : List Char} (h : ∀ c ∈ rest, isFigureChar c = true)
    {exponent : ℤ} : readExponent rest = some exponent ↔ rest = [] ∧ exponent = 0 := by
  cases rest with
  | nil => simp [readExponent, eq_comm]
  | cons e text =>
      have hfigure := isFigureChar_iff.mp (h e List.mem_cons_self)
      have hletter : e ≠ 'e' := by
        rintro rfl
        exact absurd hfigure (by decide)
      rw [readExponent, asciiLower_of_figure hfigure, if_neg hletter]
      simp

/-- Digits and points are read as a number exactly if they are one. -/
theorem readNumber_eq_some_iff {word : List Char} (h : ∀ c ∈ word, isFigureChar c = true)
    {literal : NumberLiteral} :
    readNumber word = some literal ↔ ∃ whole fraction, IsNumber word false whole fraction ∧
      literal = .decimal false (digitsValue (whole ++ fraction)) (-fraction.length) := by
  constructor
  · intro hread
    have hword : word = minus false ++ word := rfl
    obtain ⟨number, hsplit, hnumber⟩ := exists_takeDecimal false word
    have hrest : ∀ c ∈ (takeDecimal word).2.2, isFigureChar c = true := by
      intro c hc
      refine h c ?_
      rw [hword, hsplit]
      exact List.mem_append_right number hc
    rw [hword, readNumber_figures false fun c hc => isFigureChar_iff.mp (h c hc)] at hread
    split at hread
    · cases hread
    · next hsome =>
        obtain ⟨exponent, hexponent, rfl⟩ := Option.map_eq_some_iff.mp hread
        obtain ⟨hend, rfl⟩ := (readExponent_eq_some_iff hrest).mp hexponent
        rw [hend, List.append_nil, ← hword] at hsplit
        subst hsplit
        exact ⟨_, _, hnumber (by simpa using hsome), by rw [zero_sub]⟩
  · rintro ⟨whole, fraction, hnumber, rfl⟩
    exact readNumber_of_isNumber hnumber

/-! ## The search backwards from a sign -/

/-- A run of characters of a class and what does not go on with it. -/
theorem span_append {β : Type} {p : β → Bool} {run rest : List β} (hrun : ∀ c ∈ run, p c = true)
    (hrest : ∀ c ∈ rest.head?, p c = false) :
    (run ++ rest).takeWhile p = run ∧ (run ++ rest).dropWhile p = rest := by
  rw [List.takeWhile_append_of_pos hrun, List.dropWhile_append_of_pos hrun]
  cases rest with
  | nil => exact ⟨List.append_nil run, rfl⟩
  | cons c others =>
      have hc : ¬p c = true := by simp [hrest c rfl]
      rw [List.takeWhile_cons_of_neg hc, List.dropWhile_cons_of_neg hc, List.append_nil]
      exact ⟨rfl, rfl⟩

theorem head?_dropWhile (p : Char → Bool) (text : List Char) :
    ∀ c ∈ (text.dropWhile p).head?, p c = false := by
  intro c hc
  have hnot := List.head?_dropWhile_not p text
  rw [Option.mem_def.mp hc] at hnot
  exact hnot

/-- The characters of a number without a sign. -/
theorem isFigureChar_of_isNumber {word whole fraction : List Char}
    (h : IsNumber word false whole fraction) : ∀ c ∈ word, isFigureChar c = true := by
  obtain ⟨body, rfl, hbody, -⟩ := h.exists_body
  exact fun c hc => isFigureChar_iff.mpr (hbody c hc)

/-- The run of digits and points before the blanks at the end of a text, from the text in reverse
order. -/
def figureRun (before : List Char) : List Char :=
  ((before.dropWhile isBlank).takeWhile isFigureChar).reverse

theorem isFigureChar_of_mem_figureRun (before : List Char) :
    ∀ c ∈ figureRun before, isFigureChar c = true :=
  fun _ hc => List.mem_takeWhile_imp (List.mem_reverse.mp hc)

/-- Without the blanks at its end a text ends in the run. -/
theorem exists_trimEnd (before : List Char) :
    ∃ front, trimEnd before = front ++ figureRun before.reverse ∧
      ∀ c ∈ front.getLast?, isFigureChar c = false := by
  refine ⟨((before.reverse.dropWhile isBlank).dropWhile isFigureChar).reverse, ?_, ?_⟩
  · rw [figureRun, ← List.reverse_append, List.takeWhile_append_dropWhile, trimEnd]
  · rw [List.getLast?_reverse]
    exact head?_dropWhile isFigureChar _

theorem exists_figureRun (before : List Char) :
    ∃ front blanks, before = front ++ (figureRun before.reverse ++ blanks) ∧
      (∀ c ∈ front.getLast?, isFigureChar c = false) ∧ ∀ c ∈ blanks, isBlank c = true := by
  obtain ⟨front, htrimmed, hfront⟩ := exists_trimEnd before
  refine ⟨front, (before.reverse.takeWhile isBlank).reverse, ?_, hfront, fun c hc => ?_⟩
  · rw [← List.append_assoc, ← htrimmed, trimEnd, ← List.reverse_append,
      List.takeWhile_append_dropWhile, List.reverse_reverse]
  · exact List.mem_takeWhile_imp (List.mem_reverse.mp hc)

theorem figureRun_of_split {front run blanks : List Char}
    (hfront : ∀ c ∈ front.getLast?, isFigureChar c = false) (hsome : run ≠ [])
    (hrun : ∀ c ∈ run, isFigureChar c = true) (hblanks : ∀ c ∈ blanks, isBlank c = true) :
    figureRun (front ++ (run ++ blanks)).reverse = run := by
  have hblanks' : ∀ c ∈ blanks.reverse, isBlank c = true := by simpa using hblanks
  have hrun' : ∀ c ∈ run.reverse, isFigureChar c = true := by simpa using hrun
  have hlast : ∀ c ∈ (run.reverse ++ front.reverse).head?, isBlank c = false := by
    intro c hc
    rw [List.head?_append_of_ne_nil _ (by simpa using hsome)] at hc
    exact isBlank_of_isFigureChar (hrun' c (List.mem_of_mem_head? hc))
  rw [figureRun, List.reverse_append, List.reverse_append, List.append_assoc,
    (span_append hblanks' hlast).2, (span_append hrun' (by simpa using hfront)).1,
    List.reverse_reverse]

/-- What is found before a sign is the number that the text before it ends in. -/
theorem figureBefore_eq_some_iff {α : Type} [Scalar α] {before : List Char} {v : α} :
    figureBefore before.reverse = some v ↔
      ∃ whole fraction, EndsInNumber before whole fraction ∧ v = scalarOf whole fraction := by
  have hfigure : (figureBefore before.reverse : Option α) =
      (readNumber ((figureRun before.reverse).dropWhile (· == '.'))).map NumberLiteral.value := rfl
  have hword : ∀ c ∈ (figureRun before.reverse).dropWhile (· == '.'), isFigureChar c = true :=
    fun c hc => isFigureChar_of_mem_figureRun _ c ((List.dropWhile_sublist _).subset hc)
  rw [hfigure, Option.map_eq_some_iff]
  constructor
  · rintro ⟨literal, hread, rfl⟩
    obtain ⟨whole, fraction, hnumber, rfl⟩ := (readNumber_eq_some_iff hword).mp hread
    obtain ⟨front, blanks, hsplit, hfront, hblanks⟩ := exists_figureRun before
    generalize figureRun before.reverse = run at hnumber hsplit
    refine ⟨whole, fraction, ?_, rfl⟩
    rw [hsplit, ← List.takeWhile_append_dropWhile (p := (· == '.')) (l := run), List.append_assoc]
    refine .intro hfront (fun c hc => ?_) (fun hpoint => ?_) hnumber hblanks
    · simpa using List.mem_takeWhile_imp hc
    · exact absurd (head?_dropWhile (· == '.') run '.' hpoint) (by decide)
  · rintro ⟨whole, fraction, hends, rfl⟩
    cases hends with
    | @intro front points word blanks _ _ hfront hpoints hfirst hnumber hblanks =>
        have hrun : ∀ c ∈ points ++ word, isFigureChar c = true := by
          intro c hc
          rcases List.mem_append.mp hc with hpoint | hc
          · exact isFigureChar_iff.mpr (Or.inr (hpoints c hpoint))
          · exact isFigureChar_of_isNumber hnumber c hc
        have hsome : points ++ word ≠ [] :=
          List.append_ne_nil_of_right_ne_nil _ (IsToken.ne_nil (Or.inr (Or.inl ⟨_, _, _, hnumber⟩)))
        have hpoints' : ∀ c ∈ points, (c == '.') = true := fun c hc => beq_iff_eq.mpr (hpoints c hc)
        have hfirst' : ∀ c ∈ word.head?, (c == '.') = false := by
          intro c hc
          rw [beq_eq_false_iff_ne]
          rintro rfl
          exact hfirst hc
        rw [← List.append_assoc points, figureRun_of_split hfront hsome hrun hblanks,
          (span_append hpoints' hfirst').2]
        exact ⟨_, readNumber_of_isNumber hnumber, rfl⟩

theorem figureBefore_eq_none_iff {α : Type} [Scalar α] {before : List Char} :
    (figureBefore before.reverse : Option α) = none ↔
      ∀ whole fraction, ¬EndsInNumber before whole fraction := by
  rw [Option.eq_none_iff_forall_ne_some]
  constructor
  · exact fun h whole fraction hends => h _ (figureBefore_eq_some_iff.mpr ⟨_, _, hends, rfl⟩)
  · intro h v hv
    obtain ⟨whole, fraction, hends, -⟩ := figureBefore_eq_some_iff.mp hv
    exact h whole fraction hends

/-! ## The search from sign to sign -/

section

variable {α : Type} [Scalar α] {passed before behind text : List Char} {c : Char} {v : α}

theorem firstPercentage_found (h : figureBefore passed.reverse = some v) :
    firstPercentage passed.reverse ('%' :: text) = some v := by
  rw [firstPercentage, if_pos rfl, h]

/-- A character is passed unless it is a percent sign with a number before it. -/
theorem firstPercentage_passes
    (h : c = '%' → (figureBefore passed.reverse : Option α) = none) :
    (firstPercentage passed.reverse (c :: text) : Option α) =
      firstPercentage (passed ++ [c]).reverse text := by
  rw [firstPercentage, List.reverse_append, List.reverse_singleton, List.singleton_append]
  split
  · next hsign => rw [h hsign]
  · rfl

/-- The search ends at the first sign that has a number before it. -/
theorem firstPercentage_of_first (hfound : figureBefore (passed ++ before).reverse = some v)
    (hfirst : ∀ earlier later, before = earlier ++ '%' :: later →
      (figureBefore (passed ++ earlier).reverse : Option α) = none) :
    firstPercentage passed.reverse (before ++ '%' :: behind) = some v := by
  induction before generalizing passed with
  | nil =>
      rw [List.append_nil] at hfound
      exact firstPercentage_found hfound
  | cons c rest ih =>
      rw [List.cons_append, firstPercentage_passes]
      · refine ih (by simpa using hfound) fun earlier later hrest => ?_
        have hnone := hfirst (c :: earlier) later (by rw [hrest]; rfl)
        simpa using hnone
      · rintro rfl
        simpa using hfirst [] rest rfl

/-- What the search finds stands before a sign, and none of the signs before that one has a number
before it. -/
theorem exists_of_firstPercentage (h : firstPercentage passed.reverse text = some v) :
    ∃ before behind, text = before ++ '%' :: behind ∧
      figureBefore (passed ++ before).reverse = some v ∧
      ∀ earlier later, before = earlier ++ '%' :: later →
        (figureBefore (passed ++ earlier).reverse : Option α) = none := by
  induction text generalizing passed with
  | nil => cases h
  | cons c rest ih =>
      by_cases hpasses : c = '%' → (figureBefore passed.reverse : Option α) = none
      · rw [firstPercentage_passes hpasses] at h
        obtain ⟨before, behind, rfl, hfound, hfirst⟩ := ih h
        refine ⟨c :: before, behind, rfl, by simpa using hfound, fun earlier later hsplit => ?_⟩
        cases earlier with
        | nil =>
            rw [List.append_nil]
            exact hpasses (List.cons.inj hsplit).1
        | cons first others =>
            obtain ⟨rfl, hrest⟩ := List.cons.inj hsplit
            simpa using hfirst others later hrest
      · obtain ⟨rfl, hsome⟩ := Classical.not_imp.mp hpasses
        obtain ⟨w, hw⟩ := Option.ne_none_iff_exists'.mp hsome
        rw [firstPercentage_found hw] at h
        obtain rfl := Option.some.inj h
        exact ⟨[], rest, rfl, by rwa [List.append_nil], fun earlier later hsplit => by simp at hsplit⟩

theorem firstPercentage_eq_some_iff :
    firstPercentage [] text = some v ↔
      ∃ whole fraction, FirstPercentage text whole fraction ∧ v = scalarOf whole fraction := by
  rw [← List.reverse_nil]
  constructor
  · intro h
    obtain ⟨before, behind, rfl, hfound, hfirst⟩ := exists_of_firstPercentage h
    obtain ⟨whole, fraction, hends, rfl⟩ := figureBefore_eq_some_iff.mp hfound
    exact ⟨whole, fraction, .intro hends fun earlier later hsplit =>
      figureBefore_eq_none_iff.mp (hfirst earlier later hsplit), rfl⟩
  · rintro ⟨whole, fraction, ⟨hends, hfirst⟩, rfl⟩
    exact firstPercentage_of_first (figureBefore_eq_some_iff.mpr ⟨_, _, hends, rfl⟩)
      fun earlier later hsplit => figureBefore_eq_none_iff.mpr (hfirst earlier later hsplit)

end

/-- A text occurs in another where it stands between two parts of it. -/
theorem occursIn_iff {text whole : List Char} : occursIn text whole = true ↔ text <:+: whole := by
  induction whole with
  | nil => rw [occursIn, List.isEmpty_iff, List.infix_nil]
  | cons c rest ih =>
      rw [occursIn, Bool.or_eq_true, List.isPrefixOf_iff_prefix, ih, List.infix_cons_iff]

/-! ## The search by bytes -/

namespace ByteSearch

/-- The characters of a text, each with its byte position. -/
def charPlaces : (place : ℕ) → List Char → List (ℕ × Char)
  | _, [] => []
  | place, c :: rest => (place, c) :: charPlaces (place + c.utf8Size) rest

/-- The positions of the percent signs. -/
def signPlaces (place : ℕ) (text : List Char) : List ℕ :=
  ((charPlaces place text).filter fun entry => entry.2 == '%').map Prod.fst

/-- The position of the first character in the run of digits and points at the end of a text. -/
def runStart? (text : List Char) : Option ℕ :=
  (((charPlaces 0 text).reverse.takeWhile fun entry => isFigureChar entry.2).getLast?).map Prod.fst

/-- Takes a slice, or stops if it would split a character. -/
def slice (part : Option (List Char)) : Except ByteStop (List Char) :=
  match part with
  | some part => .ok part
  | none => .error .split

section

variable {α : Type} [Scalar α] (text : List Char)

/-- The number before a sign. -/
def figureAt (sign : ℕ) : Except ByteStop (Option α) := do
  let before ← slice (takeBytes? text sign)
  match runStart? (trimEnd before) with
  | none => return none
  | some start =>
      let run ← slice (dropBytes? (trimEnd before) start)
      return (readNumber (run.dropWhile (· == '.'))).map NumberLiteral.value

/-- The first number before one of some signs. -/
def firstAt : List ℕ → Except ByteStop (Option α)
  | [] => return none
  | sign :: signs => do
      match ← figureAt text sign with
      | some value => return some value
      | none => firstAt signs

/-- The first percentage of a text. -/
def percentage : Except ByteStop (Option α) := firstAt text (signPlaces 0 text)

end

theorem charPlaces_append (place : ℕ) (xs ys : List Char) :
    charPlaces place (xs ++ ys) = charPlaces place xs ++ charPlaces (place + byteSize xs) ys := by
  induction xs generalizing place with
  | nil => rfl
  | cons c rest ih => rw [List.cons_append, charPlaces, ih, byteSize, Nat.add_assoc]; rfl

theorem map_snd_charPlaces (place : ℕ) (text : List Char) :
    (charPlaces place text).map Prod.snd = text := by
  induction text generalizing place with
  | nil => rfl
  | cons c rest ih => rw [charPlaces, List.map_cons, ih]

theorem runStart?_append {front run : List Char}
    (hfront : ∀ c ∈ front.getLast?, isFigureChar c = false)
    (hrun : ∀ c ∈ run, isFigureChar c = true) :
    runStart? (front ++ run) = if run = [] then none else some (byteSize front) := by
  have hfigures : ∀ entry ∈ (charPlaces (0 + byteSize front) run).reverse,
      isFigureChar entry.2 = true := by
    intro entry hentry
    have hmem := List.mem_map_of_mem (f := Prod.snd) (List.mem_reverse.mp hentry)
    rw [map_snd_charPlaces] at hmem
    exact hrun _ hmem
  have hend : ∀ entry ∈ (charPlaces 0 front).reverse.head?, isFigureChar entry.2 = false := by
    intro entry hentry
    rw [List.head?_reverse] at hentry
    refine hfront _ ?_
    rw [← map_snd_charPlaces 0 front, List.getLast?_map]
    exact Option.mem_map_of_mem _ hentry
  rw [runStart?, charPlaces_append, List.reverse_append,
    (span_append (p := fun entry : ℕ × Char => isFigureChar entry.2) hfigures hend).1,
    List.getLast?_reverse, Nat.zero_add]
  cases run with
  | nil => rfl
  | cons c rest => rfl

section

variable {α : Type} [Scalar α]

/-- Before a sign no slice splits a character, and the number is found that stands there. -/
theorem figureAt_append (before behind : List Char) :
    (figureAt (before ++ behind) (byteSize before) : Except ByteStop (Option α)) =
      .ok (figureBefore before.reverse) := by
  obtain ⟨front, htrimmed, hfront⟩ := exists_trimEnd before
  have hstart := runStart?_append hfront (isFigureChar_of_mem_figureRun before.reverse)
  have hfigure : (figureBefore before.reverse : Option α) =
      (readNumber ((figureRun before.reverse).dropWhile (· == '.'))).map NumberLiteral.value := rfl
  rw [figureAt, takeBytes?_append, slice]
  dsimp only [bind, Except.bind]
  rw [htrimmed, hstart]
  by_cases hempty : figureRun before.reverse = []
  · rw [if_pos hempty, hfigure, hempty]
    rfl
  · rw [if_neg hempty, hfigure]
    dsimp only
    rw [dropBytes?_append]
    rfl

/-- From sign to sign the search by bytes goes on as the search over characters does. -/
theorem firstAt_append (passed text : List Char) :
    (firstAt (passed ++ text) (signPlaces (byteSize passed) text) : Except ByteStop (Option α)) =
      .ok (firstPercentage passed.reverse text) := by
  induction text generalizing passed with
  | nil => rfl
  | cons c rest ih =>
      have hrest := ih (passed ++ [c])
      rw [List.append_assoc, List.singleton_append, byteSize_append] at hrest
      by_cases hsign : c = '%'
      · subst hsign
        have hplaces : signPlaces (byteSize passed) ('%' :: rest) =
            byteSize passed :: signPlaces (byteSize passed + '%'.utf8Size) rest := rfl
        rw [hplaces, firstAt, figureAt_append]
        dsimp only [bind, Except.bind]
        cases hfound : (figureBefore passed.reverse : Option α) with
        | some value =>
            rw [firstPercentage_found hfound]
            rfl
        | none =>
            rw [firstPercentage_passes fun _ => hfound]
            exact hrest
      · have hplaces : signPlaces (byteSize passed) (c :: rest) =
            signPlaces (byteSize passed + c.utf8Size) rest := by
          simp [signPlaces, charPlaces, hsign]
        rw [hplaces, firstPercentage_passes fun h => absurd h hsign]
        exact hrest

end

end ByteSearch

/-! ## The value -/

namespace Doubles

theorem RoundsTo.nonneg {r : ℝ} {x : Float} (h : RoundsTo r x) (hr : 0 ≤ r) : 0 ≤ x := by
  cases h with
  | finite hfinite hnearest => exact (nonneg_iff_toReal hfinite).mpr (hnearest.nonneg hr)
  | above hx => exact (nonNegative_iff x).mp (hx ▸ .infinity)
  | below _ hnearest hy =>
      have hnonneg := hnearest.nonneg hr
      exact absurd (hnonneg.trans hy) (not_le.mpr (neg_neg_of_pos limit_pos))

end Doubles

theorem roundsTo_scalarOf (whole fraction : List Char) :
    Doubles.RoundsTo ((digitsValue (whole ++ fraction) : ℝ) / 10 ^ fraction.length)
      (scalarOf whole fraction) := by
  have hrounds := Doubles.roundsTo_ofDecimal (digitsValue (whole ++ fraction)) (-fraction.length)
  rw [zpow_neg, zpow_natCast, ← div_eq_mul_inv] at hrounds
  exact hrounds

/-- A constraint has a percentage exactly if `stop` occurs in it, in any letter case, and some
percent sign has a number before it.  The first such number is taken, as the double nearest to it,
which is never negative and always a number.  Searched by byte positions, the text gives the same,
so no slice splits a character. -/
theorem stop_percentage_exact (c : Constraint) :
    (∀ v : Float, c.stopLossPercent = some v ↔
      "stop".toList <:+: lowerText c.value.toList ∧
        ∃ whole fraction, FirstPercentage c.value.toList whole fraction ∧
          v = scalarOf whole fraction) ∧
      (∀ v : Float, c.stopLossPercent = some v →
        ∃ whole fraction, FirstPercentage c.value.toList whole fraction ∧
          Doubles.RoundsTo ((digitsValue (whole ++ fraction) : ℝ) / 10 ^ fraction.length) v ∧
          0 ≤ v ∧ v.isNaN = false) ∧
      ByteSearch.percentage c.value.toList =
        .ok (firstPercentage [] c.value.toList : Option Float) := by
  have hiff (v : Float) : c.stopLossPercent = some v ↔
      "stop".toList <:+: lowerText c.value.toList ∧
        ∃ whole fraction, FirstPercentage c.value.toList whole fraction ∧
          v = scalarOf whole fraction := by
    rw [← occursIn_iff, ← firstPercentage_eq_some_iff, Constraint.stopLossPercent]
    split
    · next hstop => exact (and_iff_right hstop).symm
    · next hstop => exact iff_of_false (Option.some_ne_none v).symm fun h => hstop h.1
  refine ⟨hiff, fun v hv => ?_, ByteSearch.firstAt_append [] c.value.toList⟩
  obtain ⟨-, whole, fraction, hfirst, rfl⟩ := (hiff v).mp hv
  have hrounds := roundsTo_scalarOf whole fraction
  have hnonneg := hrounds.nonneg (by positivity)
  exact ⟨whole, fraction, hfirst, hrounds, hnonneg, Doubles.isNaN_of_nonneg hnonneg⟩

/-- No number before the first sign, and one with two points before the second. -/
example :
    (⟨"risk", "STOP: %, 1.2.3 %, π ..4.5  %, 6%", true⟩ : Constraint).stopLossPercent =
      some (4.5 : Float) := by
  decide +kernel

end Backtester
