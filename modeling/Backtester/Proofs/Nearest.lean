import Mathlib

/-!
# Nearest doubles

Rounding of real numbers, apart from how a word holds the result.

* `IsDouble` — the finite doubles, continued beyond the largest one as if exponents had no limit.
* `IsNearest` — a double that no other one is nearer than; of two that are equally near, the one
  whose last digit is even (`IsEven`).
* `IsNearest.le_of_le`, `IsNearest.ge_of_ge` — rounding does not pass over a double.
* `IsNearest.abs_le_of_abs_le_add` — a sum that has grown large enough absorbs a small term, so it
  grows no further.
* `isNearest_of_grid` — a multiple of the last place that is off by at most half of it is nearest.
-/

namespace Backtester
namespace Doubles

/-- A whole number of fewer than 54 bits, scaled by a power of two that is not too small. -/
inductive IsDouble (z : ℝ) : Prop
  | intro (k q : ℤ) (hshort : |k| < 2 ^ 53) (hplace : -1074 ≤ q) (hvalue : z = k * 2 ^ q)

/-- A double whose last digit is even: a whole number of one bit less, scaled by a power of two above
the smallest. -/
inductive IsEven (z : ℝ) : Prop
  | intro (k p : ℤ) (hshort : |k| ≤ 2 ^ 52) (hplace : -1074 < p) (hvalue : z = k * 2 ^ p)

/-- The number `y` is a double, and no double is nearer to `r`.  If another one is as near, `y` is
the even one of the two. -/
structure IsNearest (r y : ℝ) : Prop where
  isDouble : IsDouble y
  nearest : ∀ z, IsDouble z → |r - y| ≤ |r - z|
  even : ∀ z, IsDouble z → z ≠ y → |r - z| = |r - y| → IsEven y

theorem isDouble_zero : IsDouble 0 := ⟨0, 0, by norm_num, by norm_num, by norm_num⟩

theorem IsDouble.neg {z : ℝ} (h : IsDouble z) : IsDouble (-z) := by
  obtain ⟨k, q, hk, hq, rfl⟩ := h
  exact ⟨-k, q, by rwa [abs_neg], hq, by push_cast; ring⟩

theorem IsEven.neg {z : ℝ} (h : IsEven z) : IsEven (-z) := by
  obtain ⟨k, p, hk, hp, rfl⟩ := h
  exact ⟨-k, p, by rwa [abs_neg], hp, by push_cast; ring⟩

theorem isDouble_zpow {q : ℤ} (hq : -1074 ≤ q) : IsDouble (2 ^ q) :=
  ⟨1, q, by norm_num, hq, by norm_num⟩

theorem isDouble_pow (n : ℕ) : IsDouble (2 ^ n) := by
  have h := isDouble_zpow (q := n) (by omega)
  rwa [zpow_natCast] at h

theorem isDouble_intCast {k : ℤ} (hk : |k| < 2 ^ 53) : IsDouble k :=
  ⟨k, 0, hk, by norm_num, by norm_num⟩

/-- A multiple of a place that is not zero is no smaller than the place. -/
theorem zpow_le_abs_multiple {j : ℤ} (hj : j ≠ 0) (e : ℤ) : 2 ^ e ≤ |(j : ℝ) * 2 ^ e| := by
  have hone : (1 : ℝ) ≤ |(j : ℝ)| := by exact_mod_cast Int.one_le_abs hj
  rw [abs_mul, abs_of_pos (by positivity : (0 : ℝ) < 2 ^ e)]
  exact le_mul_of_one_le_left (by positivity) hone

theorem IsDouble.zpow_le_abs {z : ℝ} (h : IsDouble z) (hz : z ≠ 0) : 2 ^ (-1074 : ℤ) ≤ |z| := by
  obtain ⟨m, q, -, hq, rfl⟩ := h
  have hm : m ≠ 0 := by
    rintro rfl
    simp at hz
  have hpower : (2 : ℝ) ^ (-1074 : ℤ) ≤ 2 ^ q := zpow_le_zpow_right₀ (by norm_num) hq
  exact hpower.trans (zpow_le_abs_multiple hm q)

/-- A large double is a multiple of the last place that its magnitude leaves room for. -/
theorem IsDouble.exists_multiple {z : ℝ} (h : IsDouble z) {k : ℤ} (hz : 2 ^ (k + 52) ≤ |z|) :
    ∃ j : ℤ, z = j * 2 ^ k := by
  obtain ⟨m, q, hm, -, rfl⟩ := h
  have hmlt : |(m : ℝ)| < 2 ^ 53 := by exact_mod_cast hm
  have hpos : (0 : ℝ) < 2 ^ q := by positivity
  have hq : k ≤ q := by
    by_contra hsmall
    have hsplit : (2 : ℝ) ^ (k + 52) = 2 ^ 53 * 2 ^ (k - 1) := by
      rw [← zpow_natCast, ← zpow_add₀ (by norm_num)]
      congr 1
      push_cast
      ring
    have hle : (2 : ℝ) ^ q ≤ 2 ^ (k - 1) := zpow_le_zpow_right₀ (by norm_num) (by omega)
    rw [hsplit, abs_mul, abs_of_pos hpos] at hz
    exact absurd hz (not_le.mpr (mul_lt_mul hmlt hle hpos (by positivity)))
  obtain ⟨j, hj⟩ := Int.eq_ofNat_of_zero_le (sub_nonneg.mpr hq)
  refine ⟨m * 2 ^ j, ?_⟩
  rw [show q = (j : ℤ) + k by omega, zpow_add₀ (by norm_num), zpow_natCast]
  push_cast
  ring

/-- Above a power of two the doubles lie at least four units of the place 54 bits below it apart. -/
theorem IsDouble.add_le_of_lt {z : ℝ} (h : IsDouble z) {k : ℤ} (hlt : 2 ^ (k + 54) < z) :
    2 ^ (k + 54) + 4 * 2 ^ k ≤ z := by
  -- Both numbers are multiples of the same four units.
  obtain ⟨j, rfl⟩ := h.exists_multiple (k := k + 2) (by
    rw [show k + 2 + 52 = k + 54 by ring]
    exact hlt.le.trans (le_abs_self z))
  have hunit : (2 : ℝ) ^ (k + 2) = 4 * 2 ^ k := by
    rw [zpow_add₀ (by norm_num)]
    ring
  have hpower : (2 : ℝ) ^ (k + 54) = (2 ^ 52 : ℤ) * (4 * 2 ^ k) := by
    rw [add_comm, zpow_add₀ (by norm_num)]
    push_cast
    norm_num
    ring
  have hpos : (0 : ℝ) < 2 ^ k := by positivity
  rw [hunit, hpower] at hlt
  have hint : (2 ^ 52 : ℤ) < j := by
    have hreal := lt_of_mul_lt_mul_right hlt (by positivity)
    exact_mod_cast hreal
  have hstep : ((2 ^ 52 : ℤ) : ℝ) + 1 ≤ j := by exact_mod_cast hint
  rw [hunit, hpower]
  nlinarith

namespace IsNearest

variable {r y : ℝ}

theorem neg (h : IsNearest r y) : IsNearest (-r) (-y) := by
  have hflip (z : ℝ) : |-r - z| = |r - -z| := by
    rw [show -r - z = -(r - -z) by ring, abs_neg]
  refine ⟨h.isDouble.neg, fun z hz => ?_, fun z hz hne heq => ?_⟩
  · rw [hflip, hflip, neg_neg]
    exact h.nearest (-z) hz.neg
  · rw [hflip, hflip, neg_neg] at heq
    exact (h.even (-z) hz.neg (fun hsame => hne (neg_eq_iff_eq_neg.mp hsame)) heq).neg

theorem of_isDouble (h : IsDouble r) : IsNearest r r := by
  refine ⟨h, fun z _ => ?_, fun z _ hne heq => ?_⟩
  · rw [sub_self, abs_zero]
    exact abs_nonneg _
  · rw [sub_self, abs_zero, abs_eq_zero, sub_eq_zero] at heq
    exact absurd heq.symm hne

theorem eq_of_isDouble (h : IsNearest r y) (hr : IsDouble r) : y = r := by
  have hle := h.nearest r hr
  rw [sub_self, abs_zero] at hle
  exact (sub_eq_zero.mp (abs_nonpos_iff.mp hle)).symm

/-- Rounding does not pass over a double above. -/
theorem le_of_le (h : IsNearest r y) {b : ℝ} (hb : IsDouble b) (hrb : r ≤ b) : y ≤ b := by
  by_contra hlt
  rw [not_le] at hlt
  have hle := h.nearest b hb
  rw [abs_of_nonpos (by linarith), abs_of_nonpos (by linarith)] at hle
  linarith

/-- Rounding does not pass over a double below. -/
theorem ge_of_ge (h : IsNearest r y) {b : ℝ} (hb : IsDouble b) (hbr : b ≤ r) : b ≤ y := by
  have hle := h.neg.le_of_le hb.neg (neg_le_neg hbr)
  linarith

theorem abs_le_of_abs_le (h : IsNearest r y) {b : ℝ} (hb : IsDouble b) (hrb : |r| ≤ b) : |y| ≤ b := by
  rw [abs_le] at hrb ⊢
  exact ⟨h.ge_of_ge hb.neg hrb.1, h.le_of_le hb hrb.2⟩

theorem nonneg (h : IsNearest r y) (hr : 0 ≤ r) : 0 ≤ y := h.ge_of_ge isDouble_zero hr

theorem nonpos (h : IsNearest r y) (hr : r ≤ 0) : y ≤ 0 := h.le_of_le isDouble_zero hr

/-- Rounding keeps a number at least as far from zero as a double is. -/
theorem le_abs (h : IsNearest r y) {b : ℝ} (hb : IsDouble b) (hbr : b ≤ |r|) : b ≤ |y| := by
  rcases le_total 0 r with hr | hr
  · rw [abs_of_nonneg hr] at hbr
    rw [abs_of_nonneg (h.nonneg hr)]
    exact h.ge_of_ge hb hbr
  · rw [abs_of_nonpos hr] at hbr
    rw [abs_of_nonpos (h.nonpos hr)]
    have hle := h.le_of_le hb.neg (by linarith : r ≤ -b)
    linarith

/-- A sum just above a large power of two is rounded down to it. -/
theorem le_of_le_add (h : IsNearest r y) {k : ℤ} (hk : -1074 ≤ k)
    (hr : r ≤ 2 ^ (k + 54) + 2 ^ k) : y ≤ 2 ^ (k + 54) := by
  by_contra hlt
  rw [not_le] at hlt
  have hbound : IsDouble (2 ^ (k + 54)) := isDouble_zpow (by omega)
  have hpos : (0 : ℝ) < 2 ^ k := by positivity
  have hrlt : (2 : ℝ) ^ (k + 54) < r := by
    by_contra hle
    exact absurd (h.le_of_le hbound (not_lt.mp hle)) (not_le.mpr hlt)
  have hnext := h.isDouble.add_le_of_lt hlt
  have hle := h.nearest _ hbound
  rw [abs_of_nonpos (by linarith), abs_of_nonneg (by linarith)] at hle
  linarith

theorem abs_le_of_abs_le_add (h : IsNearest r y) {k : ℤ} (hk : -1074 ≤ k)
    (hr : |r| ≤ 2 ^ (k + 54) + 2 ^ k) : |y| ≤ 2 ^ (k + 54) := by
  rw [abs_le] at hr ⊢
  have hneg := h.neg.le_of_le_add hk (by linarith [hr.1])
  exact ⟨by linarith, h.le_of_le_add hk hr.2⟩

end IsNearest

/-- All doubles but one lie at least half a place away from a number that has this place, if the
place is the last one of the number or the last one of all. -/
theorem half_le_of_grid {t : ℝ} {n : ℕ} {e : ℤ} (hround : |t - n| ≤ 1 / 2)
    (hfull : e = -1074 ∨ 2 ^ 52 ≤ t) {z : ℝ} (hz : IsDouble z) (hne : z ≠ n * 2 ^ e) :
    1 / 2 * 2 ^ e ≤ |t * 2 ^ e - z| := by
  have hpos : (0 : ℝ) < 2 ^ e := by positivity
  obtain ⟨k, q, hk, hsmall, rfl⟩ := hz
  by_cases hq : e ≤ q
  · -- The other double has the place too.
    obtain ⟨j, hj⟩ := Int.eq_ofNat_of_zero_le (show 0 ≤ q - e by omega)
    have hmultiple : (k : ℝ) * 2 ^ q = (k * 2 ^ j : ℤ) * 2 ^ e := by
      rw [show q = (j : ℤ) + e by omega, zpow_add₀ (by norm_num), zpow_natCast]
      push_cast
      ring
    rw [hmultiple] at hne ⊢
    have hother : k * 2 ^ j ≠ (n : ℤ) := by
      intro hsame
      rw [hsame] at hne
      exact hne (by push_cast; rfl)
    have hone : (1 : ℝ) ≤ |((k * 2 ^ j : ℤ) : ℝ) - n| := by
      have hint : 1 ≤ |k * 2 ^ j - (n : ℤ)| := Int.one_le_abs (sub_ne_zero.mpr hother)
      exact_mod_cast hint
    have htriangle : |((k * 2 ^ j : ℤ) : ℝ) - n| ≤ |t - n| + |t - (k * 2 ^ j : ℤ)| := by
      rw [show ((k * 2 ^ j : ℤ) : ℝ) - n = (t - n) - (t - (k * 2 ^ j : ℤ)) by ring]
      exact abs_sub _ _
    rw [← sub_mul, abs_mul, abs_of_pos hpos]
    exact mul_le_mul_of_nonneg_right (by linarith) hpos.le
  · -- A finer double lies below the first number with this last place.
    have ht : (2 : ℝ) ^ 52 ≤ t := hfull.resolve_left (by omega)
    have hkle : (k : ℝ) ≤ 2 ^ 53 - 1 := by
      have hint : k ≤ 2 ^ 53 - 1 := by
        have hlt := lt_of_abs_lt hk
        omega
      exact_mod_cast hint
    have hqle : (2 : ℝ) ^ q ≤ 2 ^ (e - 1) := zpow_le_zpow_right₀ (by norm_num) (by omega)
    have hqpos : (0 : ℝ) < 2 ^ q := by positivity
    have hhalf : (2 : ℝ) ^ (e - 1) = 2 ^ e / 2 := by rw [zpow_sub₀ (by norm_num), zpow_one]
    have hfine : (k : ℝ) * 2 ^ q ≤ (2 ^ 53 - 1) * (2 ^ e / 2) := by
      rw [hhalf] at hqle
      exact (mul_le_mul_of_nonneg_right hkle hqpos.le).trans
        (mul_le_mul_of_nonneg_left hqle (by norm_num))
    have hscaled : (2 : ℝ) ^ 52 * 2 ^ e ≤ t * 2 ^ e := mul_le_mul_of_nonneg_right ht hpos.le
    refine le_trans ?_ (le_abs_self _)
    linarith

/-- A multiple of a place that is off by at most half of the place is nearest, if the place is the
last one of the number or the last one of all. -/
theorem isNearest_of_grid {t : ℝ} {n : ℕ} {e : ℤ} (hround : |t - n| ≤ 1 / 2)
    (heven : |t - n| = 1 / 2 → Even n) (hn : n ≤ 2 ^ 53) (he : -1074 ≤ e)
    (hfull : e = -1074 ∨ 2 ^ 52 ≤ t) : IsNearest (t * 2 ^ e) (n * 2 ^ e) := by
  have hpos : (0 : ℝ) < 2 ^ e := by positivity
  have hdistance : |t * 2 ^ e - n * 2 ^ e| = |t - n| * 2 ^ e := by
    rw [← sub_mul, abs_mul, abs_of_pos hpos]
  refine ⟨?_, fun z hz => ?_, fun z hz hne heq => ?_⟩
  · rcases hn.eq_or_lt with rfl | hlt
    · refine ⟨2 ^ 52, e + 1, by norm_num, by omega, ?_⟩
      rw [zpow_add₀ (by norm_num)]
      push_cast
      ring
    · exact ⟨n, e, by rw [Nat.abs_cast]; exact_mod_cast hlt, he, by push_cast; ring⟩
  · by_cases hsame : z = n * 2 ^ e
    · rw [hsame]
    · rw [hdistance]
      exact (mul_le_mul_of_nonneg_right hround hpos.le).trans
        (half_le_of_grid hround hfull hz hsame)
  · have hfar := half_le_of_grid hround hfull hz hne
    rw [heq, hdistance] at hfar
    obtain ⟨k, rfl⟩ := heven (le_antisymm hround (le_of_mul_le_mul_right hfar hpos))
    refine ⟨k, e + 1, ?_, by omega, ?_⟩
    · rw [Nat.abs_cast]
      exact_mod_cast (by omega : k ≤ 2 ^ 52)
    · rw [zpow_add₀ (by norm_num)]
      push_cast
      ring

end Doubles
end Backtester
