import Backtester.Proofs.Grammar

/-!
# Lower case once and twice

Lower case works character by character, but for a capital sigma, and what it gives stays as it is
when it is taken again.  Few characters have a lower case in ASCII, so a text whose lower case is a
word of the grammar is that word in some ASCII letter case.

* `exists_run_of_lookupRun` — a code point with a lower case lies in a run.
* `IsLower` — a character that lower case leaves as it is; `isLower_of_mem_lowerText` says that it
  gives no others.
* `lowered_lowered` — lower case of lower case.
* `mem_of_mem_lowerText_of_isBlank` — lower case makes no blanks.
* `map_asciiLower_of_lowerText` — a text whose lower case is in ASCII.
* `isComparator_of_ofToken` — a comparator that stands alone is a token of the grammar.
-/

namespace Backtester

open Grammar

/-! ## Runs of code points -/

theorem exists_run_of_lookupRun {runs : List (Nat × Nat × Nat × Nat)} {n m : Nat}
    (h : lookupRun runs n = some m) :
    ∃ run ∈ runs, run.1 ≤ n ∧ n ≤ run.2.1 ∧ (n - run.1) % run.2.2.1 = 0 ∧
      m = run.2.2.2 + (n - run.1) := by
  induction runs with
  | nil => cases h
  | cons run rest ih =>
      -- What the first run does not decide is decided by the others.
      have hlater (hrest : lookupRun rest n = some m) : ∃ run' ∈ run :: rest, run'.1 ≤ n ∧
          n ≤ run'.2.1 ∧ (n - run'.1) % run'.2.2.1 = 0 ∧ m = run'.2.2.2 + (n - run'.1) := by
        obtain ⟨run', hmem, hrun⟩ := ih hrest
        exact ⟨run', List.mem_cons_of_mem run hmem, hrun⟩
      rw [lookupRun] at h
      split at h
      · cases h
      · next hfirst =>
          split at h
          · next hlast =>
              split at h
              · next hstep =>
                  obtain rfl := Option.some.inj h
                  exact ⟨run, List.mem_cons_self, Nat.not_lt.mp hfirst, hlast, hstep, rfl⟩
              · exact hlater h
          · exact hlater h

/-- The code points of a run, moved to another first one. -/
def runCodes (start : Nat) (run : Nat × Nat × Nat × Nat) : List Nat :=
  ((List.range (run.2.1 + 1 - run.1)).filter fun k => k % run.2.2.1 == 0).map (start + ·)

theorem mem_runCodes {run : Nat × Nat × Nat × Nat} {n : Nat} (hfirst : run.1 ≤ n)
    (hlast : n ≤ run.2.1) (hstep : (n - run.1) % run.2.2.1 = 0) (start : Nat) :
    start + (n - run.1) ∈ runCodes start run := by
  have hrange : n - run.1 < run.2.1 + 1 - run.1 := by omega
  exact List.mem_map_of_mem
    (List.mem_filter.mpr ⟨List.mem_range.mpr hrange, beq_iff_eq.mpr hstep⟩)

/-- The code points that have a lower case. -/
def capitalCodes : List Nat := lowerRuns.flatMap fun run => runCodes run.1 run

/-- The code points that are a lower case. -/
def smallCodes : List Nat := lowerRuns.flatMap fun run => runCodes run.2.2.2 run

theorem mem_codes_of_lookupRun {n m : Nat} (h : lookupRun lowerRuns n = some m) :
    n ∈ capitalCodes ∧ m ∈ smallCodes := by
  obtain ⟨run, hmem, hfirst, hlast, hstep, rfl⟩ := exists_run_of_lookupRun h
  have hcapital := mem_runCodes hfirst hlast hstep run.1
  rw [Nat.add_sub_cancel' hfirst] at hcapital
  exact ⟨List.mem_flatMap.mpr ⟨run, hmem, hcapital⟩,
    List.mem_flatMap.mpr ⟨run, hmem, mem_runCodes hfirst hlast hstep _⟩⟩

/-- The number with ones at some binary places. -/
def marks (places : List Nat) : Nat := places.foldr (fun n total => total ||| Nat.pow 2 n) 0

theorem testBit_marks {places : List Nat} {n : Nat} (h : n ∈ places) :
    (marks places).testBit n = true := by
  induction places with
  | nil => cases h
  | cons m rest ih =>
      rw [marks, List.foldr_cons, Nat.testBit_or, Bool.or_eq_true]
      rcases List.mem_cons.mp h with rfl | hrest
      · exact Or.inr Nat.testBit_two_pow_self
      · exact Or.inl (ih hrest)

/-- The code points of `İ` and `Σ`, which lower case treats apart, those of the blanks and those
that have a lower case. -/
def changingCodes : List Nat := 0x130 :: 0x3A3 :: (blankCodes ++ capitalCodes)

/-- A lower case has no lower case of its own, and it is not a blank. -/
theorem not_mem_changingCodes {n : Nat} (h : n ∈ smallCodes) : n ∉ changingCodes := by
  -- One by one the pairs would be too many; as binary places the lists are compared at once.
  have hdisjoint : marks smallCodes &&& marks changingCodes = 0 := by decide +kernel
  intro hchanging
  have hboth := congrArg (Nat.testBit · n) hdisjoint
  simp only [Nat.testBit_and, testBit_marks h, testBit_marks hchanging, Nat.zero_testBit] at hboth
  cases hboth

theorem isValidChar_of_lookupRun {n m : Nat} (h : lookupRun lowerRuns n = some m) :
    m.isValidChar := by
  have hruns : ∀ run ∈ lowerRuns, run.2.2.2 + (run.2.1 - run.1) < 0xD800 ∨
      0xDFFF < run.2.2.2 ∧ run.2.2.2 + (run.2.1 - run.1) < 0x110000 := by decide +kernel
  obtain ⟨run, hmem, hfirst, hlast, -, rfl⟩ := exists_run_of_lookupRun h
  have hrun := hruns run hmem
  unfold Nat.isValidChar
  omega

/-! ## Characters in lower case -/

/-- Lower case leaves the character as it is, wherever it stands. -/
def IsLower (c : Char) : Prop := c ≠ 'Σ' ∧ lowerChar c = [c]

instance (c : Char) : Decidable (IsLower c) := inferInstanceAs (Decidable (_ ∧ _))

/-- What lower case makes of a character: two characters of `İ`, the lower case of a run, or the
character as it is. -/
theorem lowerChar_cases (c : Char) :
    c = 'İ' ∧ lowerChar c = ['i', '\u0307'] ∨
      (∃ d, lookupRun lowerRuns c.toNat = some d.toNat ∧ lowerChar c = [d]) ∨
      c ≠ 'İ' ∧ lookupRun lowerRuns c.toNat = none ∧ lowerChar c = [c] := by
  unfold lowerChar
  split
  · next hdotted => exact Or.inl ⟨hdotted, rfl⟩
  · next hdotted =>
      refine Or.inr ?_
      cases hlookup : lookupRun lowerRuns c.toNat with
      | none => exact Or.inr ⟨hdotted, rfl, rfl⟩
      | some n =>
          have hcode : (Char.ofNat n).toNat = n := by
            rw [Char.ofNat, dif_pos (isValidChar_of_lookupRun hlookup)]
            rfl
          exact Or.inl ⟨Char.ofNat n, by rw [hcode], rfl⟩

theorem isLower_of_lookupRun {n : Nat} {d : Char} (h : lookupRun lowerRuns n = some d.toNat) :
    IsLower d ∧ isBlank d = false := by
  have hchanging := not_mem_changingCodes (mem_codes_of_lookupRun h).2
  simp only [changingCodes, List.mem_cons, List.mem_append, not_or] at hchanging
  obtain ⟨hdotted, hsigma, hblank, hcapital⟩ := hchanging
  refine ⟨⟨fun hd => hsigma (by rw [hd]; rfl), ?_⟩, ?_⟩
  · rcases lowerChar_cases d with ⟨hd, -⟩ | ⟨e, hlookup, -⟩ | ⟨-, -, hsame⟩
    · exact absurd (by rw [hd]; rfl) hdotted
    · exact absurd (mem_codes_of_lookupRun hlookup).1 hcapital
    · exact hsame
  · rw [← Bool.not_eq_true]
    exact fun hd => hblank (mem_blankCodes hd)

/-- The lower case of a character is in lower case, and a blank is the lower case of itself only. -/
theorem of_mem_lowerChar {c d : Char} (hc : c ≠ 'Σ') (hd : d ∈ lowerChar c) :
    IsLower d ∧ (isBlank d = true → d = c) := by
  rcases lowerChar_cases c with ⟨-, hparts⟩ | ⟨e, hlookup, hone⟩ | ⟨-, -, hsame⟩
  · have hboth : ∀ x ∈ ['i', '\u0307'], IsLower x ∧ isBlank x = false := by
      rw [List.forall_mem_cons, List.forall_mem_singleton]
      decide +kernel
    rw [hparts] at hd
    obtain ⟨hlower, hblank⟩ := hboth d hd
    exact ⟨hlower, fun h => by rw [hblank] at h; cases h⟩
  · rw [hone, List.mem_singleton] at hd
    obtain ⟨hlower, hblank⟩ := isLower_of_lookupRun hlookup
    rw [← hd] at hlower hblank
    exact ⟨hlower, fun h => by rw [hblank] at h; cases h⟩
  · rw [hsame, List.mem_singleton] at hd
    rw [hd]
    exact ⟨⟨hc, hsame⟩, fun _ => rfl⟩

/-! ## Texts in lower case -/

theorem of_mem_lowerAfter {before text : List Char} {d : Char} (hd : d ∈ lowerAfter before text) :
    IsLower d ∧ (isBlank d = true → d ∈ text) := by
  induction text generalizing before with
  | nil => cases hd
  | cons c rest ih =>
      rw [lowerAfter, List.mem_append] at hd
      rcases hd with hhead | hrest
      · split at hhead
        · -- A capital sigma becomes one of the two small ones.
          have hsigmas : ∀ x ∈ ['ς', 'σ'], IsLower x ∧ isBlank x = false := by
            rw [List.forall_mem_cons, List.forall_mem_singleton]
            decide +kernel
          have hmem : d ∈ ['ς', 'σ'] := by
            split at hhead <;> simp_all
          obtain ⟨hlower, hblank⟩ := hsigmas d hmem
          exact ⟨hlower, fun h => by rw [hblank] at h; cases h⟩
        · next hc =>
            obtain ⟨hlower, hblank⟩ := of_mem_lowerChar hc hhead
            exact ⟨hlower, fun h => by rw [hblank h]; exact List.mem_cons_self⟩
      · obtain ⟨hlower, hblank⟩ := ih hrest
        exact ⟨hlower, fun h => List.mem_cons_of_mem c (hblank h)⟩

theorem isLower_of_mem_lowerText {text : List Char} {d : Char} (hd : d ∈ lowerText text) :
    IsLower d :=
  (of_mem_lowerAfter hd).1

/-- Lower case makes no blanks. -/
theorem mem_of_mem_lowerText_of_isBlank {text : List Char} {d : Char} (hd : d ∈ lowerText text)
    (hblank : isBlank d = true) : d ∈ text :=
  (of_mem_lowerAfter hd).2 hblank

theorem lowerAfter_of_forall_isLower {text : List Char} (h : ∀ c ∈ text, IsLower c)
    (before : List Char) : lowerAfter before text = text := by
  induction text generalizing before with
  | nil => rfl
  | cons c rest ih =>
      obtain ⟨⟨hsigma, hc⟩, hrest⟩ := List.forall_mem_cons.mp h
      rw [lowerAfter, if_neg hsigma, hc, ih hrest]
      rfl

theorem lowerText_lowerText (text : List Char) : lowerText (lowerText text) = lowerText text :=
  lowerAfter_of_forall_isLower (fun _ => isLower_of_mem_lowerText) []

/-- A text in lower case stays as it is. -/
theorem lowered_lowered (text : String) : lowered (lowered text) = lowered text := by
  rw [lowered, lowered, String.toList_ofList, lowerText_lowerText]

/-! ## Lower case in ASCII -/

/-- The ASCII characters that are the lower case of no character outside ASCII. -/
def IsPlain (c : Char) : Prop := c.toNat < 0x80 ∧ c ≠ 'i' ∧ c ≠ 'k'

instance (c : Char) : Decidable (IsPlain c) := inferInstanceAs (Decidable (_ ∧ _))

/-- A plain character is the lower case of itself and of the capital letter that ASCII has for it. -/
theorem of_isPlain_of_mem_lowerChar {c d : Char} (hplain : IsPlain d) (hd : d ∈ lowerChar c) :
    lowerChar c = [d] ∧ asciiLower c = d := by
  have hruns : ∀ run ∈ lowerRuns, run.2.2.2 < 0x80 →
      run = (0x41, 0x5A, 1, 0x61) ∨ run = (0x212A, 0x212A, 1, 0x6B) := by decide +kernel
  obtain ⟨hascii, hi, hk⟩ := hplain
  rcases lowerChar_cases c with ⟨-, hparts⟩ | ⟨e, hlookup, hone⟩ | ⟨hdotted, hnone, hsame⟩
  · rw [hparts] at hd
    simp only [List.mem_cons, List.not_mem_nil, or_false] at hd
    rcases hd with rfl | rfl
    · exact absurd rfl hi
    · exact absurd hascii (by decide)
  · rw [hone, List.mem_singleton] at hd
    rw [← hd] at hlookup
    refine ⟨by rw [hone, hd], ?_⟩
    obtain ⟨run, hmem, hfirst, hlast, -, hcode⟩ := exists_run_of_lookupRun hlookup
    rcases hruns run hmem (by omega) with rfl | rfl
    · dsimp only at hfirst hlast hcode
      have hupper : (decide ('A' ≤ c) && decide (c ≤ 'Z')) = true := by
        rw [Bool.and_eq_true, decide_eq_true_iff, decide_eq_true_iff]
        exact ⟨hfirst, hlast⟩
      have hsum : c.toNat + 32 = d.toNat := by omega
      rw [asciiLower, if_pos hupper, hsum, Char.ofNat_toNat]
    · -- The Kelvin sign has the lower case `k`.
      have hkelvin : d.toNat = 'k'.toNat := by
        dsimp only at hfirst hlast hcode
        rw [hcode]
        show 0x6B + (c.toNat - 0x212A) = 0x6B
        omega
      exact absurd (Char.toNat_inj.mp hkelvin) hk
  · rw [hsame, List.mem_singleton] at hd
    refine ⟨by rw [hsame, hd], ?_⟩
    rw [asciiLower, hd]
    refine if_neg fun hupper => ?_
    rw [Bool.and_eq_true, decide_eq_true_iff, decide_eq_true_iff] at hupper
    have hfirst : 0x41 ≤ c.toNat := hupper.1
    have hlast : c.toNat ≤ 0x5A := hupper.2
    rw [lowerRuns, lookupRun, if_neg (by omega), if_pos hlast, if_pos (Nat.mod_one _)] at hnone
    cases hnone

theorem map_asciiLower_of_lowerAfter {before text word : List Char}
    (hplain : ∀ d ∈ word, IsPlain d) (h : lowerAfter before text = word) :
    text.map asciiLower = word := by
  induction text generalizing before word with
  | nil => exact h
  | cons c rest ih =>
      subst h
      rw [lowerAfter] at hplain ⊢
      have hhead := fun d hd => hplain d (List.mem_append_left _ hd)
      rw [List.map_cons, ih (fun d hd => hplain d (List.mem_append_right _ hd)) rfl]
      by_cases hsigma : c = 'Σ'
      · -- Neither small sigma is in ASCII.
        have hsigmas : ¬IsPlain 'ς' ∧ ¬IsPlain 'σ' := by decide
        rw [if_pos hsigma] at hhead
        split at hhead
        · exact absurd (hhead _ List.mem_cons_self) hsigmas.1
        · exact absurd (hhead _ List.mem_cons_self) hsigmas.2
      · rw [if_neg hsigma] at hhead ⊢
        obtain ⟨d, hd⟩ : ∃ d, d ∈ lowerChar c := by
          rcases lowerChar_cases c with ⟨-, hparts⟩ | ⟨d, -, hone⟩ | ⟨-, -, hsame⟩
          · exact ⟨'i', by rw [hparts]; exact List.mem_cons_self⟩
          · exact ⟨d, by rw [hone]; exact List.mem_singleton_self d⟩
          · exact ⟨c, by rw [hsame]; exact List.mem_singleton_self c⟩
        obtain ⟨hone, hlower⟩ := of_isPlain_of_mem_lowerChar (hhead d hd) hd
        rw [hone, hlower]
        rfl

/-- A text whose lower case is a plain word is that word when only ASCII letter case counts. -/
theorem map_asciiLower_of_lowerText {text word : List Char} (hplain : ∀ d ∈ word, IsPlain d)
    (h : lowerText text = word) : text.map asciiLower = word :=
  map_asciiLower_of_lowerAfter hplain h

/-! ## Comparators that stand alone -/

theorem asciiLower_of_lt {c : Char} (h : (asciiLower c).toNat < 0x61) : asciiLower c = c := by
  unfold asciiLower at h ⊢
  split
  · next hupper =>
      rw [if_pos hupper] at h
      rw [Bool.and_eq_true, decide_eq_true_iff, decide_eq_true_iff] at hupper
      have hfirst : 0x41 ≤ c.toNat := hupper.1
      have hlast : c.toNat ≤ 0x5A := hupper.2
      have hcode : (Char.ofNat (c.toNat + 32)).toNat = c.toNat + 32 := by
        rw [Char.ofNat, dif_pos (Or.inl (by omega))]
        rfl
      omega
  · rfl

/-- Signs have no letter case. -/
theorem eq_of_map_asciiLower {text word : List Char} (hsigns : ∀ d ∈ word, d.toNat < 0x61)
    (h : text.map asciiLower = word) : text = word := by
  have hsame : text.map asciiLower = text.map id := by
    refine List.map_congr_left fun c hc => asciiLower_of_lt (hsigns _ ?_)
    rw [← h]
    exact List.mem_map_of_mem hc
  rw [← h, hsame, List.map_id]

/-- A comparator that stands alone is, without the blanks around it, a comparator of the grammar. -/
theorem isComparator_of_ofToken {token : String} {comparator : Comparator}
    (h : Comparator.ofToken? token = some comparator) :
    IsComparator (trim token.toList) comparator := by
  -- Only the two words have a letter case, and none of their letters is `i` or `k`.
  have hword {word : String} (hplain : (word.toList.all fun d => IsPlain d) = true)
      (hlower : lowered (trimmed token) = word) : SameWord (trim token.toList) word.toList := by
    rw [lowered, trimmed, String.toList_ofList] at hlower
    rw [← hlower, String.toList_ofList] at hplain ⊢
    refine map_asciiLower_of_lowerText (fun d hd => ?_) rfl
    exact of_decide_eq_true (List.all_eq_true.mp hplain d hd)
  have hsign {word : String} (hplain : (word.toList.all fun d => IsPlain d) = true)
      (hsigns : (word.toList.all fun d => d.toNat < 0x61) = true)
      (hlower : lowered (trimmed token) = word) : trim token.toList = word.toList := by
    refine eq_of_map_asciiLower (fun d hd => ?_) (hword hplain hlower)
    exact of_decide_eq_true (List.all_eq_true.mp hsigns d hd)
  unfold Comparator.ofToken? at h
  split at h
  · next hlower =>
      obtain rfl := Option.some.inj h
      rw [hsign rfl rfl hlower]
      exact .gt
  · next hlower =>
      obtain rfl := Option.some.inj h
      rw [hsign rfl rfl hlower]
      exact .lt
  · next hlower =>
      obtain rfl := Option.some.inj h
      rw [hsign rfl rfl hlower]
      exact .ge
  · next hlower =>
      obtain rfl := Option.some.inj h
      rw [hsign rfl rfl hlower]
      exact .le
  · next hlower =>
      obtain rfl := Option.some.inj h
      rw [hsign rfl rfl hlower]
      exact .eq
  · next hlower =>
      obtain rfl := Option.some.inj h
      rw [hsign rfl rfl hlower]
      exact .eqShort
  · next hlower =>
      obtain rfl := Option.some.inj h
      exact .crossesAbove (hword rfl hlower)
  · next hlower =>
      obtain rfl := Option.some.inj h
      exact .crossesBelow (hword rfl hlower)
  · cases h

end Backtester
