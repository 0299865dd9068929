import Backtester.Number.Shortest
import Backtester.Proofs.DecimalRounding
import Backtester.Proofs.Neighbours

/-!
# The shortest decimal reads back

The shortest decimal of a double lies among the reals that round to the double, so reading it gives
the double back.

* `Span.Contains` — the reals of an interval; `Span.holds_iff` — the decimals in it.
* `Span.holds_search` — the search ends at a decimal in the interval, if seventeen digits suffice.
* `holds_shortest` — they do.
* `IsNearest.eq_of_contains` — a real in the interval of a double rounds to it.
* `ofDecimal_of_contains` — a decimal in the interval of a double is read as the double.
-/

namespace Backtester

/-! ## Decimals in an interval -/

/-- A power as a quotient of two whole ones. -/
theorem zpow_mul_toNat {b : ℝ} (hb : b ≠ 0) (k : ℤ) : b ^ k * b ^ (-k).toNat = b ^ k.toNat := by
  rw [← zpow_natCast, ← zpow_natCast, ← zpow_add₀ hb]
  congr 1
  omega

theorem cast_tenTo (n : ℕ) : (tenTo n : ℝ) = 10 ^ n := by
  exact_mod_cast (rfl : tenTo n = 10 ^ n)

theorem tenTo_pos (n : ℕ) : (0 : ℝ) < tenTo n := by
  rw [cast_tenTo]
  positivity

namespace Span

variable {tie : Tie} {s : Span} {k : ℤ} {d : ℕ}

/-- A real number lies in an interval. -/
def Contains (s : Span) (r : ℝ) : Prop :=
  if s.closed then s.low ≤ r * s.unit ∧ r * s.unit ≤ s.high
  else s.low < r * s.unit ∧ r * s.unit < s.high

theorem Contains.bounds {r : ℝ} (h : s.Contains r) : s.low ≤ r * s.unit ∧ r * s.unit ≤ s.high := by
  unfold Contains at h
  split at h
  · exact h
  · exact ⟨h.1.le, h.2.le⟩

theorem contains_of_between {r : ℝ} (hlow : s.low < r * s.unit) (hhigh : r * s.unit < s.high) :
    s.Contains r := by
  unfold Contains
  split
  · exact ⟨hlow.le, hhigh.le⟩
  · exact ⟨hlow, hhigh⟩

/-- A point of the grid in the units in which an interval is searched. -/
theorem cast_point (s : Span) (k : ℤ) (n : ℕ) :
    ((n * tenTo k.toNat * s.unit : ℕ) : ℝ) = n * 10 ^ k * s.unit * tenTo (-k).toNat := by
  push_cast
  rw [cast_tenTo, cast_tenTo, ← zpow_mul_toNat (by norm_num) k]
  ring

theorem point_le_iff {bound : ℕ} :
    d * tenTo k.toNat * s.unit ≤ bound * tenTo (-k).toNat ↔ d * 10 ^ k * s.unit ≤ (bound : ℝ) := by
  rw [← Nat.cast_le (α := ℝ), cast_point, Nat.cast_mul, mul_le_mul_iff_left₀ (tenTo_pos _)]

theorem le_point_iff {bound : ℕ} :
    bound * tenTo (-k).toNat ≤ d * tenTo k.toNat * s.unit ↔ (bound : ℝ) ≤ d * 10 ^ k * s.unit := by
  rw [← Nat.cast_le (α := ℝ), cast_point, Nat.cast_mul, mul_le_mul_iff_left₀ (tenTo_pos _)]

theorem holds_iff : s.holds k d = true ↔ s.Contains (d * 10 ^ k) := by
  unfold holds Contains
  dsimp only
  split
  · simp only [Bool.and_eq_true, decide_eq_true_eq, le_point_iff, point_le_iff]
  · simp only [Bool.and_eq_true, decide_eq_true_eq, ← not_le, le_point_iff, point_le_iff]

/-! ## The search -/

theorem holds_of_nearestOnGrid (h : s.nearestOnGrid tie k = some d) : s.holds k d = true := by
  unfold nearestOnGrid at h
  dsimp only at h
  generalize s.value * tenTo (-k).toNat / (tenTo k.toNat * s.unit) = floor at h
  split at h
  · cases h
  · next hfloor _ =>
      cases h
      exact hfloor
  · next hceil =>
      cases h
      exact hceil
  · next hfloor hceil =>
      split at h
      · cases h
        exact hfloor
      · cases h
        exact hceil
      · split at h
        · cases h
          exact hceil
        · split at h
          · cases h
            exact hfloor
          · cases h
            exact hceil

/-- The search gives a grid up only if neither neighbour of the double lies in the interval. -/
theorem holds_of_nearestOnGrid_eq_none (h : s.nearestOnGrid tie k = none) {floor : ℕ}
    (hfloor : s.value * tenTo (-k).toNat / (tenTo k.toNat * s.unit) = floor) :
    s.holds k floor = false ∧ s.holds k (floor + 1) = false := by
  unfold nearestOnGrid at h
  dsimp only at h
  rw [hfloor] at h
  split at h
  · next hdown hup => exact ⟨hdown, hup⟩
  · cases h
  · cases h
  · split at h
    · cases h
    · cases h
    · split at h
      · cases h
      · split at h <;> cases h

/-- A grid that is finer than the interval is wide has a point in it. -/
theorem nearestOnGrid_ne_none (hlow : s.low < s.value) (hhigh : s.value < s.high)
    (hunit : 0 < s.unit) (hfine : (10 : ℝ) ^ k * s.unit < s.high - s.low) :
    s.nearestOnGrid tie k ≠ none := by
  have hstep : 0 < tenTo k.toNat * s.unit := Nat.mul_pos (Nat.pow_pos (by norm_num)) hunit
  intro hnone
  generalize hfloor : s.value * tenTo (-k).toNat / (tenTo k.toNat * s.unit) = floor
  obtain ⟨hleft, hright⟩ := holds_of_nearestOnGrid_eq_none hnone hfloor
  rw [← Bool.not_eq_true, holds_iff] at hleft hright
  -- The double lies between two neighbouring points of the grid.
  have hdown : (floor : ℝ) * 10 ^ k * s.unit ≤ s.value := by
    rw [← point_le_iff, mul_assoc, ← hfloor]
    exact Nat.div_mul_le_self _ _
  have hup : (s.value : ℝ) < (floor + 1 : ℕ) * 10 ^ k * s.unit := by
    rw [← not_le, ← point_le_iff, not_le, mul_assoc, ← hfloor, Nat.add_one_mul]
    exact Nat.lt_div_mul_add hstep
  have hlow' : (s.low : ℝ) < s.value := by exact_mod_cast hlow
  have hhigh' : (s.value : ℝ) < s.high := by exact_mod_cast hhigh
  have hbelow : (floor : ℝ) * 10 ^ k * s.unit ≤ s.low := by
    by_contra hlt
    exact hleft (contains_of_between (not_le.mp hlt) (hdown.trans_lt hhigh'))
  have habove : (s.high : ℝ) ≤ (floor + 1 : ℕ) * 10 ^ k * s.unit := by
    by_contra hlt
    exact hright (contains_of_between (hlow'.trans hup) (not_le.mp hlt))
  push_cast at habove
  linarith

/-- The search ends at a decimal in the interval, if the finest grid that it tries has one. -/
theorem holds_search {more : ℕ} (h : s.nearestOnGrid tie (k - more) ≠ none) :
    s.holds (s.search tie more k).2 (s.search tie more k).1 = true := by
  induction more generalizing k with
  | zero =>
      rw [Nat.cast_zero, sub_zero] at h
      obtain ⟨d, hd⟩ := Option.ne_none_iff_exists'.mp h
      rw [search, hd]
      exact holds_of_nearestOnGrid hd
  | succ more ih =>
      rw [search]
      cases hd : s.nearestOnGrid tie k with
      | some d => exact holds_of_nearestOnGrid hd
      | none =>
          refine ih ?_
          rwa [show k - 1 - (more : ℤ) = k - (more + 1 : ℕ) by push_cast; ring]

/-- The power of ten of the first digit does not exceed the double. -/
theorem leadingExponent_le (hvalue : 0 < s.value) (hunit : 0 < s.unit) :
    (10 : ℝ) ^ s.leadingExponent * s.unit ≤ s.value := by
  unfold leadingExponent
  split
  · next hle =>
      have hfloor : 0 < s.value / s.unit := Nat.div_pos hle hunit
      generalize hcount : Binary64.digitCount (s.value / s.unit) = count
      have hpositive : 0 < count := by
        rw [← hcount, Doubles.lt_digitCount_iff]
        exact hfloor
      have hpower : 10 ^ (count - 1) ≤ s.value / s.unit := by
        rw [← Doubles.lt_digitCount_iff, hcount]
        omega
      rw [show (count : ℤ) - 1 = (count - 1 : ℕ) by omega, zpow_natCast]
      exact_mod_cast (Nat.le_div_iff_mul_le hunit).mp hpower
  · generalize hcount : Binary64.digitCount ((s.unit - 1) / s.value) = count
    have hpower : (s.unit - 1) / s.value < 10 ^ count := by
      rw [← Doubles.digitCount_le_iff, hcount]
    have hle : s.unit ≤ s.value * 10 ^ count := by
      have hlt := (Nat.div_lt_iff_lt_mul hvalue).mp hpower
      rw [mul_comm] at hlt
      omega
    rw [zpow_neg, zpow_natCast, inv_mul_le_iff₀ (by positivity), mul_comm]
    exact_mod_cast hle

/-! ## The interval of a double -/

section

variable {m : ℕ} {q : ℤ}

theorem cast_twoTo (n : ℕ) : (twoTo n : ℝ) = 2 ^ n := by
  exact_mod_cast (rfl : twoTo n = 2 ^ n)

/-- How far the interval of a double reaches below it, in quarters of its last place. -/
def quartersBelow (m : ℕ) (q : ℤ) : ℕ := if m = 2 ^ 52 ∧ -1074 < q then 1 else 2

theorem quartersBelow_bounds (m : ℕ) (q : ℤ) : 1 ≤ quartersBelow m q ∧ quartersBelow m q ≤ 2 := by
  unfold quartersBelow
  split <;> omega

/-- The parts of the interval of a double as real numbers. -/
theorem ofDouble_parts (hm : 0 < m) :
    ((ofDouble m q).low : ℝ) = (m - quartersBelow m q / 4) * 2 ^ q * (ofDouble m q).unit ∧
      ((ofDouble m q).value : ℝ) = m * 2 ^ q * (ofDouble m q).unit ∧
      ((ofDouble m q).high : ℝ) = (m + 1 / 2) * 2 ^ q * (ofDouble m q).unit := by
  have hbelow := (quartersBelow_bounds m q).2
  have hlow : (ofDouble m q).low = (4 * m - quartersBelow m q) * twoTo q.toNat := rfl
  have hvalue : (ofDouble m q).value = 4 * m * twoTo q.toNat := rfl
  have hhigh : (ofDouble m q).high = (4 * m + 2) * twoTo q.toNat := rfl
  have hunit : (ofDouble m q).unit = 4 * twoTo (-q).toNat := rfl
  rw [hlow, hvalue, hhigh, hunit]
  push_cast [Nat.cast_sub (show quartersBelow m q ≤ 4 * m by omega)]
  rw [cast_twoTo, cast_twoTo, ← zpow_mul_toNat (by norm_num) q]
  refine ⟨?_, ?_, ?_⟩ <;> ring

theorem unit_pos : 0 < (ofDouble m q).unit :=
  Nat.mul_pos (by norm_num) (Nat.pow_pos (by norm_num))

/-- The reals that round to a double lie between the middles to its neighbours. -/
theorem Contains.between (hm : 0 < m) {r : ℝ} (h : (ofDouble m q).Contains r) :
    (m - quartersBelow m q / 4) * 2 ^ q ≤ r ∧ r ≤ (m + 1 / 2) * 2 ^ q ∧
      (m % 2 = 1 → (m - quartersBelow m q / 4) * 2 ^ q < r ∧ r < (m + 1 / 2) * 2 ^ q) := by
  obtain ⟨hlow, -, hhigh⟩ := ofDouble_parts (q := q) hm
  have hunit : (0 : ℝ) < (ofDouble m q).unit := by exact_mod_cast unit_pos
  have hbounds := h.bounds
  rw [hlow, hhigh, mul_le_mul_iff_left₀ hunit, mul_le_mul_iff_left₀ hunit] at hbounds
  refine ⟨hbounds.1, hbounds.2, fun hodd => ?_⟩
  have hopen : (ofDouble m q).closed = false := by
    show (m % 2 == 0) = false
    rw [hodd]
    rfl
  unfold Contains at h
  rwa [hopen, if_neg Bool.false_ne_true, hlow, hhigh, mul_lt_mul_iff_left₀ hunit,
    mul_lt_mul_iff_left₀ hunit] at h

/-- Seventeen digits suffice: the seventeenth place of a double is finer than its interval. -/
theorem seventeen_digits (hm : 0 < m) (hshort : m < 2 ^ 53) :
    (10 : ℝ) ^ ((ofDouble m q).leadingExponent - 16) * (ofDouble m q).unit <
      (ofDouble m q).high - (ofDouble m q).low := by
  obtain ⟨hlow, hvalue, hhigh⟩ := ofDouble_parts (q := q) hm
  have hunit : (0 : ℝ) < (ofDouble m q).unit := by exact_mod_cast unit_pos
  have hpower : (0 : ℝ) < 2 ^ q := by positivity
  have hpositive : 0 < (ofDouble m q).value := by
    rw [← Nat.cast_pos (α := ℝ), hvalue]
    positivity
  have hleading := leadingExponent_le hpositive unit_pos
  rw [hvalue] at hleading
  have hplace : (10 : ℝ) ^ ((ofDouble m q).leadingExponent - 16) * (ofDouble m q).unit ≤
      m / 10 ^ 16 * (2 ^ q * (ofDouble m q).unit) := by
    rw [zpow_sub₀ (by norm_num), div_mul_eq_mul_div, div_mul_eq_mul_div, ← mul_assoc]
    exact div_le_div_of_nonneg_right hleading (by norm_num)
  refine hplace.trans_lt ?_
  rw [hlow, hhigh, ← sub_mul, ← sub_mul, mul_assoc (_ - _)]
  refine mul_lt_mul_of_pos_right ?_ (mul_pos hpower hunit)
  -- The interval is a whole place wide, or three quarters where the significand is small.
  rw [div_lt_iff₀ (by norm_num)]
  unfold quartersBelow
  split
  · next hsmall =>
      rw [hsmall.1]
      norm_num
  · have hle : (m : ℝ) < 2 ^ 53 := by exact_mod_cast hshort
    push_cast
    linarith

end

end Span

/-- The shortest decimal of a double lies in its interval. -/
theorem holds_shortest (tie : Tie) {m : ℕ} {q : ℤ} (hm : 0 < m) (hshort : m < 2 ^ 53) :
    (Span.ofDouble m q).Contains ((shortest tie m q).1 * 10 ^ (shortest tie m q).2) := by
  obtain ⟨hlow, hvalue, hhigh⟩ := Span.ofDouble_parts (q := q) hm
  have hunit : (0 : ℝ) < (Span.ofDouble m q).unit := by exact_mod_cast Span.unit_pos
  have hplace : (0 : ℝ) < 2 ^ q * (Span.ofDouble m q).unit := by positivity
  have hbelow : (1 : ℝ) ≤ Span.quartersBelow m q := by
    exact_mod_cast (Span.quartersBelow_bounds m q).1
  rw [← Span.holds_iff]
  refine Span.holds_search (Span.nearestOnGrid_ne_none ?_ ?_ Span.unit_pos ?_)
  · rw [← Nat.cast_lt (α := ℝ), hlow, hvalue, mul_assoc, mul_assoc]
    exact mul_lt_mul_of_pos_right (by linarith) hplace
  · rw [← Nat.cast_lt (α := ℝ), hvalue, hhigh, mul_assoc, mul_assoc]
    exact mul_lt_mul_of_pos_right (by linarith) hplace
  · exact_mod_cast Span.seventeen_digits hm hshort

namespace Doubles

variable {m : ℕ} {q : ℤ}

/-- The form of a positive finite double. -/
structure IsForm (m : ℕ) (q : ℤ) : Prop where
  positive : 0 < m
  short : m < 2 ^ 53
  small : -1074 ≤ q
  full : q = -1074 ∨ 2 ^ 52 ≤ m
  large : q ≤ 971

theorem IsForm.isDouble (h : IsForm m q) : IsDouble (m * 2 ^ q) :=
  ⟨m, q, by rw [Nat.abs_cast]; exact_mod_cast h.short, h.small, by push_cast; rfl⟩

/-- A number up to the middle to the next double does not round beyond. -/
theorem IsNearest.le_of_contains {r y : ℝ} (hform : IsForm m q)
    (h : (Span.ofDouble m q).Contains r) (hnearest : IsNearest r y) : y ≤ m * 2 ^ q := by
  obtain ⟨-, hhigh, hopen⟩ := h.between hform.positive
  refine hnearest.le_of_next hform.isDouble (fun z hz hlt => hz.next_le hform.full hlt)
    (by linarith) ?_
  rcases Nat.mod_two_eq_zero_or_one m with heven | hodd
  · right
    have hfull : q = -1074 ∨ 2 ^ 52 < m + 1 := hform.full.imp_right Nat.lt_succ_of_le
    have hnext := not_isEven (m := m + 1) (e := q) (by omega) hfull
    exact_mod_cast hnext
  · left
    linarith [(hopen hodd).2]

/-- Below a power of two the doubles lie half as far apart. -/
theorem IsNearest.ge_of_contains_powerOfTwo {r y : ℝ} (hform : IsForm (2 ^ 52) q)
    (hplace : -1074 < q) (h : (Span.ofDouble (2 ^ 52) q).Contains r) (hnearest : IsNearest r y) :
    ((2 ^ 52 : ℕ) : ℝ) * 2 ^ q ≤ y := by
  obtain ⟨hlow, -, -⟩ := h.between hform.positive
  have hbelow : Span.quartersBelow (2 ^ 52) q = 1 := if_pos ⟨rfl, hplace⟩
  have hhalf : (2 : ℝ) ^ q = 2 * 2 ^ (q - 1) := by
    rw [zpow_sub₀ (by norm_num), zpow_one]
    ring
  have hvalue : ((2 ^ 52 : ℕ) : ℝ) * 2 ^ q = (2 ^ 53 : ℕ) * 2 ^ (q - 1) := by
    rw [hhalf]
    push_cast
    ring
  have hprevious : ∀ z, IsDouble z → z < (2 ^ 52 : ℕ) * 2 ^ q →
      z ≤ ((2 ^ 53 : ℕ) - 1) * 2 ^ (q - 1) := by
    intro z hz hlt
    rw [hvalue] at hlt
    exact hz.le_previous (Or.inr (by norm_num)) hlt
  rw [hbelow] at hlow
  refine hnearest.ge_of_previous hform.isDouble hprevious ?_ (Or.inr ?_)
  · refine le_trans (le_of_eq ?_) hlow
    rw [hhalf]
    push_cast
    ring
  · have hodd := not_isEven (m := 2 ^ 53 - 1) (e := q - 1) (by norm_num) (Or.inr (by norm_num))
    rw [Nat.cast_sub (by norm_num)] at hodd
    exact_mod_cast hodd

/-- A number down to the middle to the previous double does not round beyond. -/
theorem IsNearest.ge_of_contains {r y : ℝ} (hform : IsForm m q)
    (h : (Span.ofDouble m q).Contains r) (hnearest : IsNearest r y) : m * 2 ^ q ≤ y := by
  by_cases hsmallest : m = 2 ^ 52 ∧ -1074 < q
  · obtain ⟨rfl, hplace⟩ := hsmallest
    exact hnearest.ge_of_contains_powerOfTwo hform hplace h
  · obtain ⟨hlow, -, hopen⟩ := h.between hform.positive
    have hbelow : Span.quartersBelow m q = 2 := if_neg hsmallest
    have hmore : q = -1074 ∨ 2 ^ 52 < m := by
      have hsmall := hform.small
      have hfull := hform.full
      omega
    rw [hbelow] at hlow hopen
    refine hnearest.ge_of_previous hform.isDouble (fun z hz hlt => hz.le_previous hmore hlt)
      (by push_cast at hlow; linarith) ?_
    rcases Nat.mod_two_eq_zero_or_one m with heven | hodd
    · right
      have hpositive := hform.positive
      have hprevious := not_isEven (m := m - 1) (e := q) (by omega) (hmore.imp_right (by omega))
      rw [Nat.cast_sub hpositive] at hprevious
      exact_mod_cast hprevious
    · left
      have hlower := (hopen hodd).1
      push_cast at hlower
      linarith

/-- A real number in the interval of a double rounds to it. -/
theorem IsNearest.eq_of_contains {r y : ℝ} (hform : IsForm m q)
    (h : (Span.ofDouble m q).Contains r) (hnearest : IsNearest r y) : y = m * 2 ^ q :=
  le_antisymm (hnearest.le_of_contains hform h) (hnearest.ge_of_contains hform h)

/-- The numbers that round to a finite double are neither too small nor too large. -/
theorem between_bounds {r : ℝ} (hform : IsForm m q)
    (hlow : (m - Span.quartersBelow m q / 4) * 2 ^ q ≤ r) (hhigh : r ≤ (m + 1 / 2) * 2 ^ q) :
    (2 : ℝ) ^ (-1075 : ℤ) ≤ r ∧ r ≤ 2 ^ (1024 : ℤ) := by
  obtain ⟨hpositive, hshort, hsmall, -, hlarge⟩ := hform
  have hone : (1 : ℝ) ≤ m := by exact_mod_cast hpositive
  have hbits : (m : ℝ) + 1 ≤ 2 ^ 53 := by exact_mod_cast hshort
  have hbelow : (Span.quartersBelow m q : ℝ) ≤ 2 := by
    exact_mod_cast (Span.quartersBelow_bounds m q).2
  constructor
  · have hpower : (2 : ℝ) ^ (-1074 : ℤ) ≤ 2 ^ q := zpow_le_zpow_right₀ (by norm_num) hsmall
    calc (2 : ℝ) ^ (-1075 : ℤ) = 1 / 2 * 2 ^ (-1074 : ℤ) := by
          rw [show (-1075 : ℤ) = -1 + -1074 by norm_num, zpow_add₀ (by norm_num), zpow_neg_one,
            one_div]
      _ ≤ (m - Span.quartersBelow m q / 4) * 2 ^ q :=
        mul_le_mul (by linarith) hpower (by positivity) (by linarith)
      _ ≤ r := hlow
  · have hpower : (2 : ℝ) ^ q ≤ 2 ^ (971 : ℤ) := zpow_le_zpow_right₀ (by norm_num) hlarge
    calc r ≤ (m + 1 / 2) * 2 ^ q := hhigh
      _ ≤ 2 ^ 53 * 2 ^ (971 : ℤ) :=
        mul_le_mul (by linarith) hpower (by positivity) (by positivity)
      _ = 2 ^ (1024 : ℤ) := by
        rw [← zpow_natCast, ← zpow_add₀ (by norm_num)]
        norm_num

/-- A decimal among such numbers is in the range in which decimals are computed. -/
theorem size_bounds {d : ℕ} {k : ℤ} (hd : d ≠ 0) (hleast : (2 : ℝ) ^ (-1075 : ℤ) ≤ d * 10 ^ k)
    (hmost : (d : ℝ) * 10 ^ k ≤ 2 ^ (1024 : ℤ)) :
    -330 ≤ (Binary64.digitCount d : ℤ) + k ∧ (Binary64.digitCount d : ℤ) + k ≤ 310 := by
  have hten : (0 : ℝ) < 10 ^ k := by positivity
  generalize hcount : Binary64.digitCount d = count
  have hpositive : 0 < count := by
    rw [← hcount, lt_digitCount_iff]
    exact Nat.one_le_iff_ne_zero.mpr hd
  constructor
  · have hlt : (d : ℝ) < 10 ^ (count : ℤ) := by
      rw [zpow_natCast]
      exact_mod_cast digitCount_le_iff.mp hcount.le
    have hupper : (d : ℝ) * 10 ^ k < 10 ^ (count + k) := by
      rw [zpow_add₀ (by norm_num)]
      exact mul_lt_mul_of_pos_right hlt hten
    have hpower : (10 : ℝ) ^ (-330 : ℤ) < 2 ^ (-1075 : ℤ) := by
      rw [zpow_neg, zpow_neg]
      refine inv_strictAnti₀ (by positivity) ?_
      exact_mod_cast (by decide +kernel : 2 ^ 1075 < 10 ^ 330)
    have hexponent := (zpow_lt_zpow_iff_right₀ (by norm_num)).mp
      (hpower.trans_le (hleast.trans hupper.le))
    exact hexponent.le
  · have hle : (10 : ℝ) ^ (count - 1 : ℤ) ≤ d := by
      rw [show (count : ℤ) - 1 = (count - 1 : ℕ) by omega, zpow_natCast]
      exact_mod_cast lt_digitCount_iff.mp (by omega : count - 1 < Binary64.digitCount d)
    have hlower : (10 : ℝ) ^ (count - 1 + k) ≤ d * 10 ^ k := by
      rw [zpow_add₀ (by norm_num)]
      exact mul_le_mul_of_nonneg_right hle hten.le
    have hpower : (2 : ℝ) ^ (1024 : ℤ) < 10 ^ (310 : ℤ) := by
      exact_mod_cast (by decide +kernel : 2 ^ 1024 < 10 ^ 310)
    have hexponent := (zpow_lt_zpow_iff_right₀ (by norm_num)).mp
      (hlower.trans_lt (hmost.trans_lt hpower))
    omega

/-- A decimal in the interval of a double is read as the double. -/
theorem ofDecimal_of_contains {d : ℕ} {k : ℤ} (hform : IsForm m q)
    (h : (Span.ofDouble m q).Contains (d * 10 ^ k)) :
    (Binary64.ofDecimal false d k).isFinite = true ∧
      toReal (Binary64.ofDecimal false d k) = m * 2 ^ q := by
  obtain ⟨hlow, hhigh, -⟩ := h.between hform.positive
  obtain ⟨hleast, hmost⟩ := between_bounds hform hlow hhigh
  have hd : d ≠ 0 := by
    rintro rfl
    rw [Nat.cast_zero, zero_mul] at hleast
    exact absurd hleast (not_le.mpr (by positivity))
  obtain ⟨hsizeLow, hsizeHigh⟩ := size_bounds hd hleast hmost
  have hrounds := ofDecimal_roundsTo hd hsizeLow hsizeHigh
  have hlimit : |(m : ℝ) * 2 ^ q| < limit := by
    have hshort : (m : ℝ) < 2 ^ 53 := by exact_mod_cast hform.short
    have hpower : (2 : ℝ) ^ q ≤ 2 ^ (971 : ℤ) := zpow_le_zpow_right₀ (by norm_num) hform.large
    have hsplit : limit = 2 ^ 53 * 2 ^ (971 : ℤ) := by
      rw [limit, ← zpow_natCast, ← zpow_natCast, ← zpow_add₀ (by norm_num)]
      norm_num
    rw [abs_of_nonneg (by positivity), hsplit]
    exact mul_lt_mul hshort hpower (by positivity) (by positivity)
  obtain ⟨hfinite, hnearest⟩ := hrounds.isFinite_of_lt fun y hy => by
    rwa [hy.eq_of_contains hform h]
  exact ⟨hfinite, hnearest.eq_of_contains hform h⟩

end Doubles

end Backtester
