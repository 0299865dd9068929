import Backtester.Number.Notation
import Backtester.Number.Reading
import Backtester.Proofs.ShortestDecimals
import Backtester.Proofs.WholeNumbers

/-!
# Number texts

What the text of a double says: digits before and after a point, and maybe a power of ten.  Read as
a decimal, it is the double.

* `digitsValue_decimalDigits`, `digitsValue_append` — digits and their value.
* `NumberParts` — the parts of a number text, the text and the decimal they make.
* `Significand.exists_positional`, `Significand.exists_scientific` — the two ways to write a
  significand.
* `NumberStyle.exists_parts` — the text of a magnitude.
* `NumberStyle.exists_write_parts` — the parts of the text of a double, read as a decimal.
-/

namespace Backtester

/-! ## Digits -/

/-- All characters are digits. -/
def AllDigits (text : List Char) : Prop := ∀ c ∈ text, isDigit c = true

theorem allDigits_append {xs ys : List Char} :
    AllDigits (xs ++ ys) ↔ AllDigits xs ∧ AllDigits ys := by
  simp only [AllDigits, List.mem_append, or_imp, forall_and]

theorem allDigits_replicate (n : ℕ) : AllDigits (List.replicate n '0') := by
  intro c hc
  rw [List.eq_of_mem_replicate hc]
  rfl

theorem digitsValue_foldl (digits : List Char) (n : ℕ) :
    digits.foldl (fun n c => 10 * n + digitValue c) n =
      n * 10 ^ digits.length + digitsValue digits := by
  induction digits generalizing n with
  | nil => simp [digitsValue]
  | cons c rest ih =>
      rw [digitsValue, List.foldl_cons, List.foldl_cons, ih, ih, List.length_cons]
      ring

theorem digitsValue_append (xs ys : List Char) :
    digitsValue (xs ++ ys) = digitsValue xs * 10 ^ ys.length + digitsValue ys := by
  rw [digitsValue, List.foldl_append, digitsValue_foldl ys]
  rfl

theorem digitsValue_replicate (n : ℕ) : digitsValue (List.replicate n '0') = 0 := by
  induction n with
  | zero => rfl
  | succ n ih =>
      have hzero : digitsValue ['0'] = 0 := rfl
      rw [List.replicate_succ, ← List.singleton_append, digitsValue_append, ih, hzero, zero_mul]

theorem digitsValue_decimalDigits (n : ℕ) : digitsValue (decimalDigits n) = n :=
  Nat.ofDigitChars_ten_toDigits

theorem allDigits_decimalDigits (n : ℕ) : AllDigits (decimalDigits n) := by
  intro c hc
  have hdigit := Nat.isDigit_of_mem_toDigits (by norm_num) (by norm_num) hc
  exact hdigit

theorem decimalDigits_ne_nil (n : ℕ) : decimalDigits n ≠ [] := Nat.toDigits_ne_nil

/-- The digits of a positive number start with another digit than zero. -/
theorem head?_decimalDigits {n : ℕ} (hn : 0 < n) : (decimalDigits n).head? ≠ some '0' := by
  induction n using Nat.strong_induction_on with
  | _ n ih =>
      rw [decimalDigits, Nat.toDigits_eq_if (by norm_num)]
      split
      · interval_cases n <;> simp [Nat.digitChar]
      · rw [List.head?_append_of_ne_nil _ Nat.toDigits_ne_nil]
        exact ih (n / 10) (by omega) (by omega)

/-! ## The parts of a text -/

/-- The parts of a number text: digits before and after the point, and the power of ten after an
`e`. -/
structure NumberParts where
  /-- The digits before the point. -/
  whole : List Char
  /-- The digits after the point; none if there is no point. -/
  fraction : List Char
  /-- The power of ten, if one is written. -/
  exponent : Option ℤ

namespace NumberParts

/-- The text of an exponent. -/
def exponentText : Option ℤ → List Char
  | none => []
  | some e => 'e' :: (if e < 0 then '-' else '+') :: decimalDigits e.natAbs

/-- The text that the parts make. -/
def text (p : NumberParts) : List Char :=
  p.whole ++ (if p.fraction = [] then [] else '.' :: p.fraction) ++ exponentText p.exponent

/-- All digits as one number. -/
def digits (p : NumberParts) : ℕ := digitsValue (p.whole ++ p.fraction)

/-- The power of ten of the last digit. -/
def place (p : NumberParts) : ℤ := p.exponent.getD 0 - p.fraction.length

/-- The decimal that the parts make. -/
def value (p : NumberParts) : ℚ := p.digits * 10 ^ p.place

theorem value_mk_none (whole fraction : List Char) :
    value ⟨whole, fraction, none⟩ =
      digitsValue (whole ++ fraction) * 10 ^ (-(fraction.length : ℤ)) := by
  have hplace : place ⟨whole, fraction, none⟩ = -(fraction.length : ℤ) := zero_sub _
  rw [value, hplace]
  rfl

/-- Digits where they should be, with a leading zero only if it is the only digit before the
point. -/
structure WellFormed (p : NumberParts) : Prop where
  whole_ne_nil : p.whole ≠ []
  whole_digits : AllDigits p.whole
  leading : p.whole.head? = some '0' → p.whole = ['0']
  fraction_digits : AllDigits p.fraction

end NumberParts

/-! ## Significands -/

namespace Significand

/-- The number of a significand. -/
def value (s : Significand) : ℚ :=
  digitsValue s.digits * 10 ^ (s.exponent - s.digits.length + 1)

/-- Digits of which the first is not zero. -/
structure WellFormed (s : Significand) : Prop where
  digits_ne_nil : s.digits ≠ []
  digits_digits : AllDigits s.digits
  leading : s.digits.head? ≠ some '0'

theorem exists_dropTrailingZeros (digits : List Char) :
    ∃ n, digits = dropTrailingZeros digits ++ List.replicate n '0' := by
  refine ⟨(digits.reverse.takeWhile (· == '0')).length, ?_⟩
  have hzeros : digits.reverse.takeWhile (· == '0') =
      List.replicate (digits.reverse.takeWhile (· == '0')).length '0' := by
    refine List.eq_replicate_of_mem fun c hc => ?_
    simpa using List.mem_takeWhile_imp hc
  have hsplit := congrArg List.reverse
    (List.takeWhile_append_dropWhile (p := (· == '0')) (l := digits.reverse))
  rw [List.reverse_append, List.reverse_reverse, hzeros, List.reverse_replicate] at hsplit
  exact hsplit.symm

theorem ofScaled_wellFormed {d : ℕ} (hd : 0 < d) (k : ℤ) : (ofScaled d k).WellFormed := by
  obtain ⟨n, hsplit⟩ := exists_dropTrailingZeros (decimalDigits d)
  have hne : dropTrailingZeros (decimalDigits d) ≠ [] := by
    intro hnil
    rw [hnil, List.nil_append] at hsplit
    have hvalue := digitsValue_decimalDigits d
    rw [hsplit, digitsValue_replicate] at hvalue
    omega
  have hall := allDigits_decimalDigits d
  rw [hsplit, allDigits_append] at hall
  refine ⟨hne, hall.1, ?_⟩
  have hhead := head?_decimalDigits hd
  rwa [hsplit, List.head?_append_of_ne_nil _ hne] at hhead

/-- Dropping zeros at the end does not change the number. -/
theorem value_ofScaled (d : ℕ) (k : ℤ) : (ofScaled d k).value = d * 10 ^ k := by
  obtain ⟨n, hsplit⟩ := exists_dropTrailingZeros (decimalDigits d)
  have hlength := congrArg List.length hsplit
  rw [List.length_append, List.length_replicate] at hlength
  have hvalue := congrArg digitsValue hsplit
  rw [digitsValue_decimalDigits, digitsValue_append, digitsValue_replicate, List.length_replicate,
    add_zero] at hvalue
  have hexponent : (ofScaled d k).exponent - (ofScaled d k).digits.length + 1 = n + k := by
    show k + (decimalDigits d).length - 1 - (dropTrailingZeros (decimalDigits d)).length + 1 = n + k
    rw [hlength]
    push_cast
    ring
  rw [value, hexponent]
  conv_rhs => rw [hvalue]
  show (digitsValue (dropTrailingZeros (decimalDigits d)) : ℚ) * _ = _
  rw [zpow_add₀ (by norm_num), zpow_natCast]
  push_cast
  ring

/-- A significand behind the point, after zeros. -/
theorem exists_behindPoint {s : Significand} (h : s.WellFormed) (hnegative : s.exponent < 0) :
    ∃ p : NumberParts,
      '0' :: '.' :: (List.replicate (-s.exponent - 1).toNat '0' ++ s.digits) = p.text ∧
        p.WellFormed ∧ p.exponent = none ∧ p.value = s.value := by
  obtain ⟨hne, hall, -⟩ := h
  obtain ⟨n, hn⟩ : ∃ n : ℕ, s.exponent = -(n + 1 : ℕ) := ⟨(-s.exponent - 1).toNat, by omega⟩
  have hzeros : (-s.exponent - 1).toNat = n := by omega
  have hdigits : digitsValue (['0'] ++ (List.replicate n '0' ++ s.digits)) =
      digitsValue s.digits := by
    have hzero : digitsValue ['0'] = 0 := rfl
    rw [digitsValue_append, digitsValue_append, digitsValue_replicate, hzero]
    simp
  rw [hzeros]
  refine ⟨⟨['0'], List.replicate n '0' ++ s.digits, none⟩, ?_, ⟨by simp, ?_, fun _ => rfl, ?_⟩, rfl,
    ?_⟩
  · simp [NumberParts.text, NumberParts.exponentText, hne]
  · simp [AllDigits, isDigit]
  · exact allDigits_append.mpr ⟨allDigits_replicate n, hall⟩
  · rw [NumberParts.value_mk_none, hdigits, value, hn, List.length_append, List.length_replicate]
    congr 2
    push_cast
    ring

/-- A significand that ends before the point, with zeros up to it. -/
theorem exists_beforePoint {s : Significand} (h : s.WellFormed) {whole : ℕ}
    (hwhole : s.exponent + 1 = whole) (hshort : s.digits.length ≤ whole) :
    ∃ p : NumberParts, s.digits ++ List.replicate (whole - s.digits.length) '0' = p.text ∧
      p.WellFormed ∧ p.exponent = none ∧ p.value = s.value := by
  obtain ⟨hne, hall, hleading⟩ := h
  have hplace : s.exponent - s.digits.length + 1 = (whole - s.digits.length : ℕ) := by omega
  refine ⟨⟨s.digits ++ List.replicate (whole - s.digits.length) '0', [], none⟩, ?_,
    ⟨by simp [hne], ?_, ?_, by simp [AllDigits]⟩, rfl, ?_⟩
  · simp [NumberParts.text, NumberParts.exponentText]
  · exact allDigits_append.mpr ⟨hall, allDigits_replicate _⟩
  · rw [List.head?_append_of_ne_nil _ hne]
    exact fun hzero => absurd hzero hleading
  · rw [NumberParts.value_mk_none, List.append_nil, digitsValue_append, digitsValue_replicate,
      List.length_replicate, value, hplace, zpow_natCast]
    simp

/-- A significand with the point inside. -/
theorem exists_aroundPoint {s : Significand} (h : s.WellFormed) {whole : ℕ}
    (hwhole : s.exponent + 1 = whole) (hfirst : 0 < whole) (hlong : whole < s.digits.length) :
    ∃ p : NumberParts, s.digits.take whole ++ '.' :: s.digits.drop whole = p.text ∧
      p.WellFormed ∧ p.exponent = none ∧ p.value = s.value := by
  obtain ⟨hne, hall, hleading⟩ := h
  have htake : s.digits.take whole ≠ [] := by simp [hfirst.ne', hne]
  have hdrop : s.digits.drop whole ≠ [] := by
    rw [Ne, List.drop_eq_nil_iff]
    omega
  have hparts := List.take_append_drop whole s.digits
  have hboth : AllDigits (s.digits.take whole) ∧ AllDigits (s.digits.drop whole) := by
    rw [← allDigits_append, hparts]
    exact hall
  refine ⟨⟨s.digits.take whole, s.digits.drop whole, none⟩, ?_, ⟨htake, hboth.1, ?_, hboth.2⟩, rfl,
    ?_⟩
  · simp [NumberParts.text, NumberParts.exponentText, hdrop]
  · rw [← hparts, List.head?_append_of_ne_nil _ htake] at hleading
    exact fun hzero => absurd hzero hleading
  · rw [NumberParts.value_mk_none, hparts, List.length_drop, value]
    congr 2
    omega

/-- A significand written out around a point. -/
theorem exists_positional {s : Significand} (h : s.WellFormed) :
    ∃ p : NumberParts, s.positional = p.text ∧ p.WellFormed ∧ p.exponent = none ∧
      p.value = s.value := by
  unfold positional
  split
  · next hnegative => exact exists_behindPoint h hnegative
  · next hnonneg =>
      dsimp only
      split
      · next hshort => exact exists_beforePoint h (by omega) hshort
      · next hlong => exact exists_aroundPoint h (by omega) (by omega) (by omega)

/-- A significand written with an exponent. -/
theorem exists_scientific {s : Significand} (h : s.WellFormed) :
    ∃ p : NumberParts, s.scientific = p.text ∧ p.WellFormed ∧ p.exponent = some s.exponent ∧
      p.value = s.value := by
  obtain ⟨hne, hall, hleading⟩ := h
  obtain ⟨first, rest, hdigits⟩ := List.exists_cons_of_ne_nil hne
  rw [hdigits] at hall hleading
  have hboth : AllDigits [first] ∧ AllDigits rest := allDigits_append.mp hall
  refine ⟨⟨[first], rest, some s.exponent⟩, ?_, ⟨by simp, hboth.1, ?_, hboth.2⟩, rfl, ?_⟩
  · unfold scientific NumberParts.text NumberParts.exponentText
    rw [hdigits]
    cases rest <;> simp
  · intro hzero
    simpa using hleading hzero
  · unfold value
    show ((digitsValue ([first] ++ rest) : ℕ) : ℚ) * 10 ^ (s.exponent - (rest.length : ℤ)) = _
    rw [hdigits, List.singleton_append, List.length_cons]
    congr 2
    push_cast
    ring

end Significand

/-! ## The text of a double -/

/-- The decimal that is written for a magnitude. -/
def writtenValue (tie : Tie) (m : ℕ) (q : ℤ) : ℚ :=
  if m = 0 then 0 else (shortest tie m q).1 * 10 ^ (shortest tie m q).2

theorem shortest_pos (tie : Tie) {m : ℕ} (q : ℤ) (hm : 0 < m) (hshort : m < 2 ^ 53) :
    0 < (shortest tie m q).1 := by
  obtain ⟨hlow, -, -⟩ := (holds_shortest tie (q := q) hm hshort).between hm
  by_contra hnone
  rw [Nat.eq_zero_of_not_pos hnone, Nat.cast_zero, zero_mul] at hlow
  have hone : (1 : ℝ) ≤ m := by exact_mod_cast hm
  have hbelow : (Span.quartersBelow m q : ℝ) ≤ 2 := by
    exact_mod_cast (Span.quartersBelow_bounds m q).2
  have hpositive : (0 : ℝ) < (m - Span.quartersBelow m q / 4) * 2 ^ q :=
    mul_pos (by linarith) (by positivity)
  linarith

namespace NumberStyle

/-- The mark of a whole number is a digit after the point that says nothing. -/
theorem exists_mark (style : NumberStyle) {p : NumberParts} (h : p.WellFormed)
    (hexponent : p.exponent = none) :
    ∃ p' : NumberParts, style.mark p.text = p'.text ∧ p'.WellFormed ∧ p'.exponent = none ∧
      p'.value = p.value ∧ (style.marksWhole = true → p'.fraction ≠ []) := by
  obtain ⟨whole, fraction, exponent⟩ := p
  obtain ⟨hne, hall, hleading, hfraction⟩ := h
  dsimp only at hne hall hleading hfraction hexponent
  subst hexponent
  have hpoint : '.' ∉ whole := fun hmem => absurd (hall _ hmem) (by decide)
  unfold mark
  cases fraction with
  | nil =>
      cases hmarks : style.marksWhole with
      | false =>
          refine ⟨⟨whole, [], none⟩, ?_, ⟨hne, hall, hleading, hfraction⟩, rfl, rfl, by simp⟩
          simp
      | true =>
          refine ⟨⟨whole, ['0'], none⟩, ?_, ⟨hne, hall, hleading, ?_⟩, rfl, ?_, by simp⟩
          · simp [NumberParts.text, NumberParts.exponentText, hpoint]
          · simp [AllDigits, isDigit]
          · have hzero : digitsValue ['0'] = 0 := rfl
            rw [NumberParts.value_mk_none, NumberParts.value_mk_none, digitsValue_append, hzero]
            simp
  | cons c rest =>
      refine ⟨⟨whole, c :: rest, none⟩, ?_, ⟨hne, hall, hleading, hfraction⟩, rfl, rfl, by simp⟩
      simp [NumberParts.text, NumberParts.exponentText]

/-- The text of a magnitude. -/
theorem exists_parts (style : NumberStyle) {m : ℕ} (q : ℤ) (hshort : m < 2 ^ 53) :
    ∃ p : NumberParts, style.magnitudeText m q = p.text ∧ p.WellFormed ∧
      p.value = writtenValue style.tie m q ∧
        (style.marksWhole = true → p.fraction ≠ [] ∨ p.exponent ≠ none) ∧
          ((∀ e, style.positionalAt e = true) → p.exponent = none) := by
  unfold magnitudeText writtenValue
  split
  · next hzero =>
      have hwell : NumberParts.WellFormed ⟨['0'], [], none⟩ :=
        ⟨by simp, by simp [AllDigits, isDigit], fun _ => rfl, by simp [AllDigits]⟩
      have hvalue : NumberParts.value ⟨['0'], [], none⟩ = 0 := by
        have hdigits : digitsValue ['0'] = 0 := rfl
        simp [NumberParts.value, NumberParts.digits, hdigits]
      obtain ⟨p, htext, hp, hexponent, hsame, hmarks⟩ := style.exists_mark hwell rfl
      refine ⟨p, ?_, hp, hsame.trans hvalue, fun h => Or.inl (hmarks h), fun _ => hexponent⟩
      rw [← htext]
      rfl
  · next hm =>
      have hpositive := shortest_pos style.tie q (Nat.pos_of_ne_zero hm) hshort
      dsimp only
      generalize shortest style.tie m q = written at hpositive ⊢
      obtain ⟨d, k⟩ := written
      have hwell := Significand.ofScaled_wellFormed hpositive k
      have hvalue := Significand.value_ofScaled d k
      split
      · obtain ⟨p, htext, hp, hexponent, hsame⟩ := Significand.exists_positional hwell
        obtain ⟨p', htext', hp', hexponent', hsame', hmarks⟩ := style.exists_mark hp hexponent
        rw [htext, htext']
        exact ⟨p', rfl, hp', hsame'.trans (hsame.trans hvalue), fun h => Or.inl (hmarks h),
          fun _ => hexponent'⟩
      · next hscientific =>
          obtain ⟨p, htext, hp, hexponent, hsame⟩ := Significand.exists_scientific hwell
          exact ⟨p, htext, hp, hsame.trans hvalue, fun _ => Or.inr (by simp [hexponent]),
            fun h => absurd (h _) hscientific⟩

end NumberStyle

/-! ## Reading a text back -/

namespace Doubles

open Float.Model
open Float.Model.UnpackedFloat

theorem eq_of_unpack {x y : Float} (h : x.toModel.unpack = y.toModel.unpack) : x = y := by
  rw [← pack_unpack x, h, pack_unpack]

/-- A number that is not zero has one double only. -/
theorem eq_of_toReal {x y : Float} (hx : x.isFinite = true) (hy : y.isFinite = true)
    (h : toReal x = toReal y) (hne : toReal x ≠ 0) : x = y := by
  have hunpackX : x.toModel.unpack.isFinite = true := hx
  have hunpackY : y.toModel.unpack.isFinite = true := hy
  have hcanonicalX := (canonical_unpack x).1
  have hcanonicalY := (canonical_unpack y).1
  apply eq_of_unpack
  unfold toReal at h hne
  have hneY := h ▸ hne
  cases hcaseX : x.toModel.unpack with
  | infinity | notANumber => rw [hcaseX] at hunpackX; cases hunpackX
  | zero => simp [hcaseX, exactValue] at hne
  | finite sign m e hm =>
      cases hcaseY : y.toModel.unpack with
      | infinity | notANumber => rw [hcaseY] at hunpackY; cases hunpackY
      | zero => simp [hcaseY, exactValue] at hneY
      | finite sign' m' e' hm' =>
          rw [hcaseX] at h hcanonicalX
          rw [hcaseY] at h hcanonicalY
          obtain ⟨hshort, hsmall, hfull⟩ := hcanonicalX
          obtain ⟨hshort', hsmall', hfull'⟩ := hcanonicalY
          have hpos : (0 : ℝ) < m * 2 ^ e := by positivity
          have hpos' : (0 : ℝ) < m' * 2 ^ e' := by positivity
          -- The sign and the magnitude of the number determine the fields.
          have hsame : sign = sign' ∧ (m : ℝ) * 2 ^ e = m' * 2 ^ e' := by
            cases sign <;> cases sign' <;> simp only [exactValue, signum] at h
            · exact ⟨rfl, by linarith⟩
            · linarith
            · linarith
            · exact ⟨rfl, by linarith⟩
          have horders := orders_magnitude hshort hshort' hsmall hsmall' hfull hfull'
          rw [hsame.2] at horders
          have heq : (compare e e').then (compare m m') = .eq := by
            cases hcompare : (compare e e').then (compare m m') with
            | eq => rfl
            | lt => rw [hcompare] at horders; exact absurd horders (lt_irrefl _)
            | gt => rw [hcompare] at horders; exact absurd horders (lt_irrefl _)
          rw [Ordering.then_eq_eq, Int.compare_eq_eq, Nat.compare_eq_eq] at heq
          obtain ⟨rfl, rfl⟩ := heq
          rw [hsame.1]

/-- The decimal that is written for a double is read as the double. -/
theorem exists_ofDecimal_eq {x : Float} (hx : x.isFinite = true) :
    ∃ negative m q, Binary64.ofFloat x = .finite negative m q ∧ m < 2 ^ 53 ∧
      ∀ (tie : Tie) (d : ℕ) (k : ℤ), (d : ℚ) * 10 ^ k = writtenValue tie m q →
        Binary64.ofDecimal negative d k = x := by
  obtain ⟨sign, m, q, hparts, hunpack⟩ := exists_ofFloat_unpacked hx
  obtain ⟨hcanonical, hrange⟩ := canonical_unpack x
  by_cases hm : m = 0
  · subst hm
    refine ⟨_, 0, q, hparts, by norm_num, fun tie d k hvalue => ?_⟩
    rw [writtenValue, if_pos rfl, mul_eq_zero_iff_right (by positivity), Nat.cast_eq_zero] at hvalue
    have hzero : Binary64.ofDecimal (signBit sign) d k = Binary64.signed (signBit sign) 0 := by
      unfold Binary64.ofDecimal
      dsimp only
      rw [if_pos hvalue]
    apply eq_of_unpack
    rw [hzero, hunpack]
    cases sign <;> rfl
  · have hfinite : x.toModel.unpack = .finite sign m q (Nat.pos_of_ne_zero hm) := by
      rw [hunpack, unpacked, dif_neg hm]
    rw [hfinite] at hcanonical
    obtain ⟨hshort, hsmall, hfull⟩ := hcanonical
    have hform : IsForm m q :=
      ⟨Nat.pos_of_ne_zero hm, hshort, hsmall, hfull, hrange _ _ _ _ hfinite⟩
    refine ⟨_, m, q, hparts, hshort, fun tie d k hvalue => ?_⟩
    rw [writtenValue, if_neg hm] at hvalue
    have hcontains := holds_shortest tie (q := q) hform.positive hshort
    have hreal := congrArg (Rat.cast : ℚ → ℝ) hvalue
    push_cast at hreal
    rw [← hreal] at hcontains
    obtain ⟨hread, hsame⟩ := ofDecimal_of_contains hform hcontains
    have hx' : toReal x = signum sign * (m * 2 ^ q) := by
      rw [toReal, hunpack, exactValue_unpacked]
    have hne : toReal x ≠ 0 := by
      have hpositive : (0 : ℝ) < m := by exact_mod_cast hform.positive
      rw [hx']
      exact mul_ne_zero (by cases sign <;> norm_num [signum]) (by positivity)
    symm
    cases sign with
    | positive =>
        refine eq_of_toReal hx hread ?_ hne
        rw [hx', signum, one_mul]
        exact hsame.symm
    | negative =>
        refine eq_of_toReal hx ((toReal_neg _).2.trans hread) ?_ hne
        rw [hx', signum, neg_one_mul]
        exact (congrArg Neg.neg hsame).symm.trans (toReal_neg _).1.symm

end Doubles

namespace NumberStyle

/-- The text of a finite double is a number text, and its decimal is read as the double. -/
theorem exists_write_parts (style : NumberStyle) {x : Float} (hx : x.isFinite = true) :
    ∃ negative, ∃ p : NumberParts, style.write x = signedText negative p.text ∧ p.WellFormed ∧
      (style.marksWhole = true → p.fraction ≠ [] ∨ p.exponent ≠ none) ∧
        ((∀ e, style.positionalAt e = true) → p.exponent = none) ∧
          Binary64.ofDecimal negative p.digits p.place = x := by
  obtain ⟨negative, m, q, hparts, hshort, hread⟩ := Doubles.exists_ofDecimal_eq hx
  obtain ⟨p, htext, hp, hvalue, hmarks, hpositional⟩ := style.exists_parts q hshort
  refine ⟨negative, p, ?_, hp, hmarks, hpositional, hread _ _ _ hvalue⟩
  rw [write, hparts]
  dsimp only
  rw [htext]

end NumberStyle

end Backtester
