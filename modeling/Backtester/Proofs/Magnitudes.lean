import Backtester.Metrics.Rounding
import Backtester.Proofs.WholeNumbers

/-!
# Magnitudes of computed doubles

An operation on doubles of known magnitude has a finite result of known magnitude, as long as the
exponents stay in range.

* `Within`, `AtLeast` — a finite double of at most, or of at least, a power of two.
* `foldl_add_within`, `mean_within` — a sum of any length outgrows its terms by 54 binary places at
  most, because a sum that has grown so large absorbs further terms.
* `roundTo_within`, `roundTo_atLeast` — rounding to decimal places at most doubles a number, and
  leaves zero or at least one unit of the last place.
* `add_atLeast` — a sum with a large term is zero or not small, because both terms are multiples of
  one power of two.
-/

namespace Backtester
namespace Doubles

open Float.Model
open Float.Model.UnpackedFloat

/-- A finite double of magnitude at most `2 ^ n`. -/
structure Within (n : ℕ) (x : Float) : Prop where
  isFinite : x.isFinite = true
  abs_le : |toReal x| ≤ 2 ^ n

/-- A finite double of magnitude at least `2 ^ (-n)`. -/
structure AtLeast (n : ℕ) (x : Float) : Prop where
  isFinite : x.isFinite = true
  le_abs : 2 ^ (-n : ℤ) ≤ |toReal x|

theorem RoundsTo.within {r : ℝ} {x : Float} (h : RoundsTo r x) {n : ℕ} (hn : n ≤ 1023)
    (hr : |r| ≤ 2 ^ n) : Within n x := by
  obtain ⟨hfinite, hnearest⟩ := h.isFinite_of_le (isDouble_pow n) (two_pow_lt_limit hn) hr
  exact ⟨hfinite, hnearest.abs_le_of_abs_le (isDouble_pow n) hr⟩

section

variable {m n : ℕ} {x y : Float}

theorem Within.mono (h : Within m x) (hmn : m ≤ n) : Within n x :=
  ⟨h.isFinite, h.abs_le.trans (pow_le_pow_right₀ (by norm_num) hmn)⟩

theorem AtLeast.ne_zero (h : AtLeast n x) : toReal x ≠ 0 := by
  have hpos : (0 : ℝ) < 2 ^ (-n : ℤ) := by positivity
  exact abs_pos.mp (hpos.trans_le h.le_abs)

theorem Within.add (hx : Within n x) (hy : Within n y) (hn : n + 1 ≤ 1023) :
    Within (n + 1) (x + y) := by
  refine (add_roundsTo hx.isFinite hy.isFinite).within hn ?_
  have htriangle := abs_add_le (toReal x) (toReal y)
  rw [pow_succ]
  linarith [hx.abs_le, hy.abs_le]

theorem Within.sub (hx : Within n x) (hy : Within n y) (hn : n + 1 ≤ 1023) :
    Within (n + 1) (x - y) := by
  refine (sub_roundsTo hx.isFinite hy.isFinite).within hn ?_
  have htriangle := abs_sub (toReal x) (toReal y)
  rw [pow_succ]
  linarith [hx.abs_le, hy.abs_le]

theorem Within.mul (hx : Within m x) (hy : Within n y) (hmn : m + n ≤ 1023) :
    Within (m + n) (x * y) := by
  refine (mul_roundsTo hx.isFinite hy.isFinite).within hmn ?_
  rw [abs_mul, pow_add]
  exact mul_le_mul hx.abs_le hy.abs_le (abs_nonneg _) (by positivity)

theorem Within.div (hx : Within m x) (hy : AtLeast n y) (hmn : m + n ≤ 1023) :
    Within (m + n) (x / y) := by
  refine (div_roundsTo hx.isFinite hy.isFinite hy.ne_zero).within hmn ?_
  have hpos : (0 : ℝ) < 2 ^ n := by positivity
  have hinverse : |toReal y|⁻¹ ≤ 2 ^ n := by
    have hle := hy.le_abs
    rw [zpow_neg, zpow_natCast] at hle
    exact inv_le_of_inv_le₀ hpos hle
  rw [abs_div, div_eq_mul_inv, pow_add]
  exact mul_le_mul hx.abs_le hinverse (inv_nonneg.mpr (abs_nonneg _)) (by positivity)

theorem Within.neg (hx : Within n x) : Within n (-x) := by
  obtain ⟨hvalue, hfinite⟩ := toReal_neg x
  exact ⟨hfinite.trans hx.isFinite, by rw [hvalue, abs_neg]; exact hx.abs_le⟩

theorem Within.abs (hx : Within n x) : Within n x.abs := by
  obtain ⟨hvalue, hfinite⟩ := toReal_abs x
  exact ⟨hfinite.trans hx.isFinite, by rw [hvalue, abs_abs]; exact hx.abs_le⟩

/-! ## Counts -/

theorem within_zero : Within n (Scalar.ofNat 0 : Float) := by
  obtain ⟨hfinite, hvalue⟩ := toReal_zero
  refine ⟨hfinite, ?_⟩
  show |toReal (0 : Float)| ≤ 2 ^ n
  rw [hvalue, abs_zero]
  positivity

theorem beq_zero_iff (hx : x.isFinite = true) :
    (x == Scalar.ofNat 0) = true ↔ toReal x = 0 := by
  have hiff := beq_iff_toReal hx toReal_zero.1
  rwa [toReal_zero.2] at hiff

theorem ofNat_within (hm : m ≤ 2 ^ n) (hlong : m < 2 ^ 64) (hn : n ≤ 1023) :
    Within n (Scalar.ofNat m : Float) := by
  refine (ofNat_roundsTo hlong).within hn ?_
  rw [Nat.abs_cast]
  exact_mod_cast hm

/-- A fraction as a percentage. -/
theorem Within.percent (hx : Within n x) (hn : n + 7 ≤ 1023) :
    Within (n + 7) (x * Scalar.ofNat 100) :=
  hx.mul (ofNat_within (by norm_num) (by norm_num) (by norm_num)) hn

theorem ofNat_atLeast (hm : 0 < m) (hlong : m < 2 ^ 64) : AtLeast 0 (Scalar.ofNat m : Float) := by
  obtain ⟨hfinite, hone⟩ := one_le_toReal_ofNat hm hlong
  refine ⟨hfinite, ?_⟩
  rw [Nat.cast_zero, neg_zero, zpow_zero]
  exact hone.trans (le_abs_self _)

theorem ofInt_within {k : ℤ} (hk : |k| ≤ 2 ^ n) (hn : n < 64) :
    Within n (Scalar.ofInt k : Float) := by
  have hpower : 2 ^ n < 2 ^ 64 := Nat.pow_lt_pow_right (by norm_num) hn
  have hle : k.natAbs ≤ 2 ^ n := by
    zify
    exact hk
  have hnat := ofNat_within hle (hle.trans_lt hpower) (by omega)
  by_cases hneg : k < 0
  · have heq : (Scalar.ofInt k : Float) = -Scalar.ofNat k.natAbs := by
      show Binary64.ofDecimal (decide (k < 0)) k.natAbs 0 = -Binary64.ofDecimal false k.natAbs 0
      rw [decide_eq_true hneg]
      rfl
    rw [heq]
    exact hnat.neg
  · have heq : (Scalar.ofInt k : Float) = Scalar.ofNat k.natAbs := by
      show Binary64.ofDecimal (decide (k < 0)) k.natAbs 0 = Binary64.ofDecimal false k.natAbs 0
      rw [decide_eq_false hneg]
    rw [heq]
    exact hnat

/-! ## Sums -/

/-- A sum that has outgrown its terms by 54 places grows no further. -/
theorem Within.add_small (hx : Within (n + 54) x) (hy : Within n y) (hn : n + 54 ≤ 1023) :
    Within (n + 54) (x + y) := by
  have hpower : (2 : ℝ) ^ ((n : ℤ) + 54) = 2 ^ (n + 54) := by exact_mod_cast rfl
  have hsum : |toReal x + toReal y| ≤ 2 ^ ((n : ℤ) + 54) + 2 ^ (n : ℤ) := by
    rw [hpower, zpow_natCast]
    exact (abs_add_le _ _).trans (add_le_add hx.abs_le hy.abs_le)
  -- The smaller term is below half of the last place there, so rounding drops it.
  have hnearest {z : ℝ} (hz : IsNearest (toReal x + toReal y) z) : |z| ≤ 2 ^ (n + 54) := by
    rw [← hpower]
    exact hz.abs_le_of_abs_le_add (by omega) hsum
  obtain ⟨hfinite, hvalue⟩ := (add_roundsTo hx.isFinite hy.isFinite).isFinite_of_lt
    fun _ hz => (hnearest hz).trans_lt (two_pow_lt_limit hn)
  exact ⟨hfinite, hnearest hvalue⟩

theorem foldl_add_within {xs : List Float} (h : ∀ x ∈ xs, Within n x) (hn : n + 54 ≤ 1023)
    {start : Float} (hstart : Within (n + 54) start) :
    Within (n + 54) (xs.foldl (· + ·) start) := by
  induction xs generalizing start with
  | nil => exact hstart
  | cons x rest ih =>
      obtain ⟨hx, hrest⟩ := List.forall_mem_cons.mp h
      exact ih hrest (hstart.add_small hx hn)

theorem sum_within {xs : List Float} (h : ∀ x ∈ xs, Within n x) (hn : n + 54 ≤ 1023) :
    Within (n + 54) (Scalar.sum xs) :=
  foldl_add_within h hn within_zero.neg

theorem mean_within {xs : List Float} (h : ∀ x ∈ xs, Within n x) (hn : n + 54 ≤ 1023)
    (hne : xs ≠ []) (hlong : xs.length < 2 ^ 64) : Within (n + 54) (Scalar.mean xs) :=
  (sum_within h hn).div (ofNat_atLeast (List.length_pos_iff.mpr hne) hlong) hn

/-! ## Larger and smaller values -/

/-- What holds of two values holds of the larger one. -/
theorem larger_of_both {α : Type} [Scalar α] {P : α → Prop} {a b : α} (ha : P a) (hb : P b) :
    P (Scalar.larger a b) := by
  unfold Scalar.larger
  split
  · exact hb
  · split
    · exact hb
    · exact ha

/-- What holds of two values holds of the smaller one. -/
theorem smaller_of_both {α : Type} [Scalar α] {P : α → Prop} {a b : α} (ha : P a) (hb : P b) :
    P (Scalar.smaller a b) := by
  unfold Scalar.smaller
  split
  · exact hb
  · split
    · exact hb
    · exact ha

theorem Within.larger (hx : Within n x) (hy : Within n y) : Within n (Scalar.larger x y) :=
  larger_of_both (P := Within n) hx hy

theorem Within.smaller (hx : Within n x) (hy : Within n y) : Within n (Scalar.smaller x y) :=
  smaller_of_both (P := Within n) hx hy

theorem foldl_smaller_within {xs : List Float} (h : ∀ x ∈ xs, Within n x) {start : Float}
    (hstart : Within n start) : Within n (xs.foldl Scalar.smaller start) := by
  induction xs generalizing start with
  | nil => exact hstart
  | cons x rest ih =>
      obtain ⟨hx, hrest⟩ := List.forall_mem_cons.mp h
      exact ih hrest (hstart.smaller hx)

end

/-! ## Rounding to decimal places -/

/-- The scale of some decimal places is a short whole number. -/
structure IsScale (places : ℤ) (k : ℕ) : Prop where
  positive : 0 < k
  short : k ≤ 2 ^ 14
  isFinite : (Scalar.powerOfTen places : Float).isFinite = true
  value : toReal (Scalar.powerOfTen places) = k

theorem isScale_ratioPlaces : IsScale ratioPlaces 10000 := by
  have hpower : (Scalar.powerOfTen ratioPlaces : Float) = Scalar.ofNat 10000 := by decide +kernel
  obtain ⟨hfinite, hvalue⟩ := toReal_ofNat (n := 10000) (by norm_num)
  exact ⟨by norm_num, by norm_num, by rw [hpower, hfinite], by rw [hpower, hvalue]⟩

theorem isScale_profitPlaces : IsScale profitPlaces 10000 := isScale_ratioPlaces

theorem isScale_amountPlaces : IsScale amountPlaces 100 := by
  have hpower : (Scalar.powerOfTen amountPlaces : Float) = Scalar.ofNat 100 := by decide +kernel
  obtain ⟨hfinite, hvalue⟩ := toReal_ofNat (n := 100) (by norm_num)
  exact ⟨by norm_num, by norm_num, by rw [hpower, hfinite], by rw [hpower, hvalue]⟩

theorem IsScale.isDouble {places : ℤ} {k : ℕ} (h : IsScale places k) (n : ℕ) :
    IsDouble (2 ^ n * k) := by
  have hshort : (k : ℤ) < 2 ^ 53 := by
    have hle : (k : ℤ) ≤ 2 ^ 14 := by exact_mod_cast h.short
    omega
  refine ⟨k, n, by rwa [Nat.abs_cast], by omega, ?_⟩
  rw [zpow_natCast, Int.cast_natCast, mul_comm]

theorem IsScale.lt_limit {places : ℤ} {k n : ℕ} (h : IsScale places k) (hn : n + 14 ≤ 1023) :
    2 ^ n * (k : ℝ) < limit := by
  have hle : (2 : ℝ) ^ n * k ≤ 2 ^ (n + 14) := by
    rw [pow_add]
    exact mul_le_mul_of_nonneg_left (by exact_mod_cast h.short) (by positivity)
  exact hle.trans_lt (two_pow_lt_limit hn)

/-- The scaled and rounded number: a whole number, rounded to a double. -/
theorem exists_roundWhole_mul {places : ℤ} {k n : ℕ} (h : IsScale places k) {x : Float}
    (hx : Within n x) (hn : n + 15 ≤ 1023) :
    ∃ j : ℤ, |(j : ℝ)| ≤ 2 ^ (n + 1) * k ∧
      (Scalar.roundWhole (x * Scalar.powerOfTen places)).isFinite = true ∧
      IsNearest j (toReal (Scalar.roundWhole (x * Scalar.powerOfTen places))) := by
  have hk : (1 : ℝ) ≤ k := by exact_mod_cast h.positive
  have hpower : (1 : ℝ) ≤ 2 ^ n := one_le_pow₀ (by norm_num)
  have hproduct : |toReal x * toReal (Scalar.powerOfTen places)| ≤ 2 ^ n * k := by
    rw [h.value, abs_mul, Nat.abs_cast]
    exact mul_le_mul_of_nonneg_right hx.abs_le (by positivity)
  obtain ⟨hfinite, hnearest⟩ := (mul_roundsTo hx.isFinite h.isFinite).isFinite_of_le (h.isDouble n)
    (h.lt_limit (by omega)) hproduct
  have hscaled := hnearest.abs_le_of_abs_le (h.isDouble n) hproduct
  obtain ⟨j, hhalf, hrounds⟩ := exists_roundWhole hfinite
  have hj : |(j : ℝ)| ≤ 2 ^ (n + 1) * k := by
    have htriangle := abs_sub_abs_le_abs_sub (j : ℝ) (toReal (x * Scalar.powerOfTen places))
    rw [abs_sub_comm] at htriangle
    have hlarge : 1 ≤ 2 ^ n * (k : ℝ) := one_le_mul_of_one_le_of_one_le hpower hk
    rw [pow_succ]
    linarith
  exact ⟨j, hj, hrounds.isFinite_of_le (h.isDouble (n + 1)) (h.lt_limit (by omega)) hj⟩

theorem roundTo_eq_or (x : Float) (places : ℤ) :
    roundTo x places = Scalar.ofNat 0 ∨
      roundTo x places =
        Scalar.roundWhole (x * Scalar.powerOfTen places) / Scalar.powerOfTen places := by
  unfold roundTo
  dsimp only
  split
  · exact Or.inl rfl
  · exact Or.inr rfl

theorem roundTo_within {places : ℤ} {k n : ℕ} (h : IsScale places k) {x : Float}
    (hx : Within n x) (hn : n + 15 ≤ 1023) : Within (n + 1) (roundTo x places) := by
  obtain ⟨j, hj, hfinite, hnearest⟩ := exists_roundWhole_mul h hx hn
  have hk : (0 : ℝ) < k := by exact_mod_cast h.positive
  rcases roundTo_eq_or x places with hround | hround
  · rw [hround]
    exact within_zero
  · rw [hround]
    refine (div_roundsTo hfinite h.isFinite (by rw [h.value]; exact hk.ne')).within (by omega) ?_
    rw [h.value, abs_div, Nat.abs_cast, div_le_iff₀ hk]
    exact hnearest.abs_le_of_abs_le (h.isDouble (n + 1)) hj

/-- A rounded number is zero or at least one unit of the last place. -/
theorem roundTo_atLeast {places : ℤ} {k n : ℕ} (h : IsScale places k) {x : Float}
    (hx : Within n x) (hn : n + 15 ≤ 1023) :
    toReal (roundTo x places) = 0 ∨ AtLeast 14 (roundTo x places) := by
  obtain ⟨j, hj, hfinite, hnearest⟩ := exists_roundWhole_mul h hx hn
  have hk : (0 : ℝ) < k := by exact_mod_cast h.positive
  rcases roundTo_eq_or x places with hround | hround
  · exact Or.inl (by rw [hround]; exact toReal_zero.2)
  · have hrounded := roundTo_within h hx hn
    have hrounds := div_roundsTo hfinite h.isFinite (by rw [h.value]; exact hk.ne')
    rw [← hround] at hrounds
    rw [h.value] at hrounds
    have hquotient := hrounds.nearest hrounded.isFinite
    -- What is divided by the scale is a whole number: it is zero, or one unit at least.
    by_cases hzero : j = 0
    · left
      rw [hzero, Int.cast_zero] at hnearest
      rw [hnearest.eq_of_isDouble isDouble_zero, zero_div] at hquotient
      exact hquotient.eq_of_isDouble isDouble_zero
    · right
      refine ⟨hrounded.isFinite, hquotient.le_abs (isDouble_zpow (by norm_num)) ?_⟩
      have hone : 1 ≤ |toReal (Scalar.roundWhole (x * Scalar.powerOfTen places))| := by
        refine hnearest.le_abs (by simpa using isDouble_pow 0) ?_
        exact_mod_cast Int.one_le_abs hzero
      have hshort : (k : ℝ) ≤ 2 ^ 14 := by exact_mod_cast h.short
      have hunit : (2 : ℝ) ^ (-(14 : ℕ) : ℤ) * 2 ^ 14 = 1 := by norm_num
      rw [abs_div, Nat.abs_cast, le_div_iff₀ hk]
      exact (mul_le_mul_of_nonneg_left hshort (by positivity)).trans (hunit.le.trans hone)

/-! ## Lower bounds -/

/-- A sum with a large term is zero or not small. -/
theorem add_atLeast {x y : Float} (hx : x.isFinite = true) (hy : y.isFinite = true)
    (hlarge : 2 ^ 6 ≤ |toReal x|) (hsum : (x + y).isFinite = true) :
    toReal (x + y) = 0 ∨ AtLeast 47 (x + y) := by
  have hnearest := (add_roundsTo hx hy).nearest hsum
  by_cases hother : |toReal y| < 2 ^ 5
  · right
    refine ⟨hsum, hnearest.le_abs (isDouble_zpow (by norm_num)) ?_⟩
    have htriangle := abs_sub_abs_le_abs_sub (toReal x) (-toReal y)
    rw [abs_neg, sub_neg_eq_add] at htriangle
    have hunit : (2 : ℝ) ^ (-(47 : ℕ) : ℤ) ≤ 2 ^ 6 - 2 ^ 5 := by norm_num
    linarith
  · -- Both terms are multiples of the last place of the numbers from 32 on.
    obtain ⟨i, hi⟩ := (isDouble_toReal x).exists_multiple (k := -47)
      (by norm_num at hlarge ⊢; linarith)
    obtain ⟨j, hj⟩ := (isDouble_toReal y).exists_multiple (k := -47)
      (by rw [not_lt] at hother; norm_num at hother ⊢; linarith)
    have hmultiple : toReal x + toReal y = (i + j : ℤ) * 2 ^ (-47 : ℤ) := by
      rw [hi, hj]
      push_cast
      ring
    rw [hmultiple] at hnearest
    by_cases hzero : i + j = 0
    · left
      rw [hzero, Int.cast_zero, zero_mul] at hnearest
      exact hnearest.eq_of_isDouble isDouble_zero
    · right
      exact ⟨hsum, hnearest.le_abs (isDouble_zpow (by norm_num)) (zpow_le_abs_multiple hzero _)⟩

/-- Only the root of a number that is not negative is finite. -/
theorem nonneg_of_isFinite_sqrt {x : Float} (h : x.sqrt.isFinite = true) :
    x.isFinite = true ∧ 0 ≤ toReal x := by
  have hroot : (pack (UnpackedFloat.sqrt Format.binary64 x.toModel.unpack)).unpack.isFinite = true := h
  show x.toModel.unpack.isFinite = true ∧ 0 ≤ exactValue x.toModel.unpack
  cases hx : x.toModel.unpack with
  | notANumber => rw [hx] at hroot; cases hroot
  | zero sign => exact ⟨rfl, le_rfl⟩
  | infinity sign =>
      rw [hx] at hroot
      cases sign with
      | positive => cases hroot
      | negative => cases hroot
  | finite sign m e hm =>
      cases sign with
      | negative =>
          have hnone : UnpackedFloat.sqrt Format.binary64 (.finite .negative m e hm) = .notANumber := by
            rw [UnpackedFloat.sqrt]
          rw [hx, hnone] at hroot
          cases hroot
      | positive => exact ⟨rfl, by rw [exactValue, signum]; positivity⟩

/-- A root is zero or not small. -/
theorem sqrt_atLeast {x : Float} (hfinite : x.sqrt.isFinite = true) (hne : toReal x.sqrt ≠ 0) :
    AtLeast 537 x.sqrt := by
  obtain ⟨hx, hnonneg⟩ := nonneg_of_isFinite_sqrt hfinite
  have hnearest := (sqrt_roundsTo hx hnonneg).nearest hfinite
  refine ⟨hfinite, hnearest.le_abs (isDouble_zpow (by norm_num)) ?_⟩
  have hzero : toReal x ≠ 0 := by
    intro hzero
    rw [hzero, Real.sqrt_zero] at hnearest
    exact hne (hnearest.eq_of_isDouble isDouble_zero)
  have hsmall := (isDouble_toReal x).zpow_le_abs hzero
  have hsquare : ((2 : ℝ) ^ (-(537 : ℕ) : ℤ)) ^ 2 = 2 ^ (-1074 : ℤ) := by
    rw [sq, ← zpow_add₀ (by norm_num)]
    norm_num
  rw [abs_of_nonneg (Real.sqrt_nonneg _)]
  rw [abs_of_nonneg hnonneg] at hsmall
  exact Real.le_sqrt_of_sq_le (hsquare.le.trans hsmall)

end Doubles
end Backtester
