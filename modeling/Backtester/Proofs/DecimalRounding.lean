import Backtester.Number.Binary64
import Backtester.Proofs.Arithmetic

/-!
# Decimals rounded to doubles

A decimal `d · 10 ^ k` is read as the nearest double.  A short one is a product or quotient of two
exact doubles, any other is rounded from an exact product or quotient.

* `toReal_powerOfTen` — the powers of ten that are doubles.
* `ofScientific_mul_roundsTo`, `ofScientific_div_roundsTo` — a decimal with a power of ten in the
  numerator or in the denominator.
* `ofDecimal_roundsTo` — a decimal whose size is not out of the range of all doubles.
* `roundsTo_ofDecimal` — any decimal, which may become infinite or zero.
-/

namespace Backtester
namespace Doubles

open Float.Model
open Float.Model.UnpackedFloat

/-! ## Short decimals -/

/-- A short whole number is a double. -/
theorem toReal_toFloat {n : ℕ} (hn : n < 2 ^ 53) :
    (n.toUInt64.toFloat).isFinite = true ∧ toReal (n.toUInt64.toFloat) = n := by
  have hnat : n.toUInt64.toNat = n := Nat.mod_eq_of_lt (by omega)
  have hrounds : RoundsTo ((n.toUInt64.toNat : ℤ) * 2 ^ (0 : ℤ)) n.toUInt64.toFloat :=
    (rounded_normalize (n.toUInt64.toNat : ℤ) 0 .positive).roundsTo
  rw [hnat, zpow_zero, mul_one, Int.cast_natCast] at hrounds
  have hle : (n : ℝ) ≤ 2 ^ 53 := by exact_mod_cast hn.le
  refine hrounds.eq_of_isDouble ?_ ?_
  · exact_mod_cast isDouble_intCast (k := n) (by rw [Nat.abs_cast]; exact_mod_cast hn)
  · rw [Nat.abs_cast]
    exact hle.trans_lt (two_pow_lt_limit (by norm_num))

/-- A whole number as a significand of 53 bits with an exponent. -/
def IsWhole (n : ℕ) : UnpackedFloat → Bool
  | .finite .positive m e _ => decide (-52 ≤ e) && m * 2 ^ (e + 52).toNat == n * 2 ^ 52
  | _ => false

theorem exactValue_of_isWhole {n : ℕ} {u : UnpackedFloat} (h : IsWhole n u = true) :
    u.isFinite = true ∧ exactValue u = n := by
  rcases u with s | _ | s | ⟨s | s, m, e, hm⟩ <;> try cases h
  simp only [IsWhole, Bool.and_eq_true, decide_eq_true_eq, beq_iff_eq] at h
  obtain ⟨hplace, hvalue⟩ := h
  refine ⟨rfl, ?_⟩
  obtain ⟨j, hj⟩ := Int.eq_ofNat_of_zero_le (show 0 ≤ e + 52 by omega)
  have hreal : (m : ℝ) * 2 ^ j = n * 2 ^ 52 := by
    rw [hj, Int.toNat_natCast] at hvalue
    exact_mod_cast hvalue
  rw [exactValue, signum, one_mul, show e = (j : ℤ) - (52 : ℕ) by omega,
    zpow_sub₀ (by norm_num), zpow_natCast, zpow_natCast, ← mul_div_assoc, hreal]
  field_simp

theorem isWhole_powerOfTen (k : Fin 23) :
    IsWhole (10 ^ k.val) (Float.exactlyRepresentablePowersOfTen[k.val]).toModel.unpack = true := by
  revert k
  decide

/-- The powers of ten up to the twenty-second are doubles. -/
theorem toReal_powerOfTen {k : ℕ} (hk : k < Float.exactlyRepresentablePowersOfTen.size) :
    (Float.exactlyRepresentablePowersOfTen[k]).isFinite = true ∧
      toReal Float.exactlyRepresentablePowersOfTen[k] = 10 ^ k := by
  have hpower := exactValue_of_isWhole (isWhole_powerOfTen ⟨k, hk⟩)
  exact_mod_cast hpower

/-! ## All decimals -/

/-- The unpacked form of a whole number. -/
theorem exactValue_whole {m : ℕ} (hm : 0 < m) : exactValue (.finite .positive m 0 hm) = m := by
  rw [exactValue, signum, zpow_zero]
  ring

theorem rounded_ofScientific_mul (d : ℕ) {k : ℕ} (hk : k ≤ 2048) :
    Rounded (d * 10 ^ k) (UnpackedFloat.ofScientific Format.binary64 d k) := by
  have hlarge : ¬(k : ℤ) > 2 ^ Format.binary64.exponentBits := by
    show ¬(k : ℤ) > 2 ^ 11
    omega
  have hsmall : ¬(k : ℤ) < -(2 ^ Format.binary64.exponentBits + (d.log2 : ℤ)) := by
    show ¬(k : ℤ) < -(2 ^ 11 + (d.log2 : ℤ))
    omega
  rw [UnpackedFloat.ofScientific]
  by_cases hd : d = 0
  · rw [dif_pos hd, hd, Nat.cast_zero, zero_mul]
    exact rounded_zero _
  · rw [dif_neg hd, if_neg hlarge, if_neg hsmall, if_pos (Int.natCast_nonneg k)]
    have hpower : 0 < 10 ^ k := Nat.pow_pos (by norm_num)
    -- The extra bits let the product keep 53 of them.
    have hbits : 2 ^ 53 ≤ d <<< 53 * 10 ^ k := by
      rw [Nat.shiftLeft_eq]
      calc 2 ^ 53 ≤ d * 2 ^ 53 := Nat.le_mul_of_pos_left _ (Nat.pos_of_ne_zero hd)
        _ ≤ d * 2 ^ 53 * 10 ^ k := Nat.le_mul_of_pos_right _ hpower
    have hlog : 53 ≤ (d <<< 53 * 10 ^ k).log2 :=
      (Nat.le_log2 (Nat.pos_iff_ne_zero.mp ((Nat.two_pow_pos 53).trans_le hbits))).mpr hbits
    have hlong {n : ℕ} (hn : 53 ≤ n) : (-53 + 0 : ℤ) ≤ max ((n : ℤ) + 1 + (-53 + 0) - 53) (-1074) := by
      omega
    have h := rounded_exact .positive (m := d <<< 53 * 10 ^ k) (e := -53 + 0) (hlong hlog)
    have hvalue : signum .positive * (((d <<< 53 * 10 ^ k : ℕ) : ℝ) * 2 ^ (-53 + 0 : ℤ)) =
        d * 10 ^ k := by
      rw [signum, one_mul, Nat.shiftLeft_eq]
      push_cast
      norm_num
      ring
    rw [hvalue] at h
    exact h

theorem rounded_ofScientific_div {d k : ℕ} (hd : d ≠ 0) (hpositive : 0 < k)
    (hk : k ≤ 2048 + d.log2) :
    Rounded (d / 10 ^ k) (UnpackedFloat.ofScientific Format.binary64 d (-k)) := by
  have hlarge : ¬(-k : ℤ) > 2 ^ Format.binary64.exponentBits := by
    show ¬(-k : ℤ) > 2 ^ 11
    omega
  have hsmall : ¬(-k : ℤ) < -(2 ^ Format.binary64.exponentBits + (d.log2 : ℤ)) := by
    show ¬(-k : ℤ) < -(2 ^ 11 + (d.log2 : ℤ))
    omega
  rw [UnpackedFloat.ofScientific, dif_neg hd, if_neg hlarge, if_neg hsmall, if_neg (by omega)]
  simp only [neg_neg, Int.toNat_natCast]
  have hpower : 0 < 10 ^ k := Nat.pow_pos (by norm_num)
  have h := rounded_div (u := .finite .positive d 0 (Nat.pos_of_ne_zero hd))
    (v := .finite .positive (10 ^ k) 0 hpower) rfl rfl (by
      rw [exactValue_whole]
      positivity)
  rw [exactValue_whole, exactValue_whole, Nat.cast_pow, Nat.cast_ofNat] at h
  exact h

/-- A decimal whose power of ten is a factor. -/
theorem ofScientific_mul_roundsTo (d : ℕ) {k : ℕ} (hk : k ≤ 2048) :
    RoundsTo (d * 10 ^ k) (Float.ofScientific d false k) := by
  rw [Float.ofScientific]
  split
  · next hshort =>
      obtain ⟨hfinite, hvalue⟩ := toReal_toFloat hshort.1
      obtain ⟨hfinite', hvalue'⟩ := toReal_powerOfTen (Nat.lt_succ_of_le hshort.2)
      have hproduct := mul_roundsTo hfinite hfinite'
      rwa [hvalue, hvalue'] at hproduct
  · exact (rounded_ofScientific_mul d hk).roundsTo

/-- A decimal whose power of ten is a divisor. -/
theorem ofScientific_div_roundsTo {d k : ℕ} (hd : d ≠ 0) (hpositive : 0 < k)
    (hk : k ≤ 2048 + d.log2) : RoundsTo (d / 10 ^ k) (Float.ofScientific d true k) := by
  rw [Float.ofScientific]
  split
  · next hshort =>
      obtain ⟨hfinite, hvalue⟩ := toReal_toFloat hshort.1
      obtain ⟨hfinite', hvalue'⟩ := toReal_powerOfTen (Nat.lt_succ_of_le hshort.2)
      have hquotient := div_roundsTo hfinite hfinite' (by rw [hvalue']; positivity)
      rwa [hvalue, hvalue'] at hquotient
  · have hnegative : Int.negOfNat k = -(k : ℤ) := Int.negOfNat_eq
    show RoundsTo _ (Float.ofModel (pack (UnpackedFloat.ofScientific Format.binary64 d
      (Int.negOfNat k))))
    rw [hnegative]
    exact (rounded_ofScientific_div hd hpositive hk).roundsTo

/-! ## Decimals in range -/

/-- A number has as many digits as powers of ten are needed to exceed it. -/
theorem digitCount_le_iff {n k : ℕ} : Binary64.digitCount n ≤ k ↔ n < 10 ^ k := by
  induction k generalizing n with
  | zero =>
      rw [pow_zero, Nat.lt_one_iff, Binary64.digitCount]
      split <;> omega
  | succ k ih =>
      rw [Binary64.digitCount]
      split
      · next hzero => simp [hzero]
      · rw [Nat.add_le_add_iff_right, ih, Nat.div_lt_iff_lt_mul (by norm_num), pow_succ]

theorem lt_digitCount_iff {n k : ℕ} : k < Binary64.digitCount n ↔ 10 ^ k ≤ n := by
  rw [← not_le, digitCount_le_iff, not_lt]

theorem digitCount_le_log2 (n : ℕ) : Binary64.digitCount n ≤ n.log2 + 1 := by
  rw [digitCount_le_iff]
  calc n < 2 ^ (n.log2 + 1) := Nat.lt_log2_self
    _ ≤ 10 ^ (n.log2 + 1) := Nat.pow_le_pow_left (by norm_num) _

/-- A decimal is read as the nearest double, if it is not out of the range of all doubles. -/
theorem ofDecimal_roundsTo {d : ℕ} {k : ℤ} (hd : d ≠ 0)
    (hlow : -330 ≤ (Binary64.digitCount d : ℤ) + k) (hhigh : (Binary64.digitCount d : ℤ) + k ≤ 310) :
    RoundsTo (d * 10 ^ k) (Binary64.ofDecimal false d k) := by
  have hpositive : 0 < Binary64.digitCount d := lt_digitCount_iff.mpr (Nat.one_le_iff_ne_zero.mpr hd)
  have hlog := digitCount_le_log2 d
  unfold Binary64.ofDecimal Binary64.signed
  dsimp only
  rw [if_neg Bool.false_ne_true, if_neg hd, if_neg (by omega), if_neg (by omega)]
  split
  · next hnonneg =>
      obtain ⟨n, rfl⟩ := Int.eq_ofNat_of_zero_le hnonneg
      rw [zpow_natCast, Int.toNat_natCast]
      exact ofScientific_mul_roundsTo d (by omega)
  · next hnegative =>
      obtain ⟨n, rfl⟩ : ∃ n : ℕ, k = -(n : ℤ) := ⟨(-k).toNat, by omega⟩
      rw [neg_neg, Int.toNat_natCast, zpow_neg, zpow_natCast, ← div_eq_mul_inv]
      exact ofScientific_div_roundsTo hd (by omega) (by omega)

/-! ## Decimals out of range -/

/-- Every quotient of whole numbers has a nearest double, if exponents have no limit. -/
theorem exists_isNearest_div {a b : ℕ} (ha : 0 < a) (hb : 0 < b) :
    ∃ y, IsNearest ((a : ℝ) / b) y := by
  have h := rounded_div (u := .finite .positive a 0 ha) (v := .finite .positive b 0 hb) rfl rfl
    (by rw [exactValue_whole]; positivity)
  rw [exactValue_whole, exactValue_whole] at h
  exact ⟨_, h.nearest⟩

theorem exists_isNearest_decimal {d : ℕ} (hd : d ≠ 0) (k : ℤ) :
    ∃ y, IsNearest ((d : ℝ) * 10 ^ k) y := by
  have hpositive := Nat.pos_of_ne_zero hd
  obtain ⟨n, rfl | rfl⟩ := k.eq_nat_or_neg
  · have hnear := exists_isNearest_div (a := d * 10 ^ n) (b := 1) (by positivity) one_pos
    rwa [Nat.cast_one, div_one, Nat.cast_mul, Nat.cast_pow, Nat.cast_ofNat, ← zpow_natCast] at hnear
  · have hnear := exists_isNearest_div (a := d) (b := 10 ^ n) hpositive (by positivity)
    rwa [Nat.cast_pow, Nat.cast_ofNat, ← zpow_natCast, div_eq_mul_inv, ← zpow_neg] at hnear

/-- A number below half of the smallest double is nearest to zero. -/
theorem isNearest_zero {r : ℝ} (hr : 2 * |r| < 2 ^ (-1074 : ℤ)) : IsNearest r 0 := by
  have hfar (z : ℝ) (hz : IsDouble z) (hne : z ≠ 0) : |r| < |r - z| := by
    have hplace := hz.zpow_le_abs hne
    have htriangle := abs_sub_abs_le_abs_sub z r
    rw [abs_sub_comm] at htriangle
    linarith
  refine ⟨isDouble_zero, fun z hz => ?_, fun z hz hne heq => ?_⟩
  · rw [sub_zero]
    by_cases hne : z = 0
    · rw [hne, sub_zero]
    · exact (hfar z hz hne).le
  · rw [sub_zero] at heq
    exact absurd heq (hfar z hz hne).ne'

theorem roundsTo_zero : RoundsTo 0 (0 : Float) := by
  have hrounds : RoundsTo (((0 : ℕ) : ℝ) * 10 ^ 0) (0 : Float) :=
    ofScientific_mul_roundsTo 0 (k := 0) (by norm_num)
  rwa [Nat.cast_zero, zero_mul] at hrounds

theorem toReal_zero : (0 : Float).isFinite = true ∧ toReal (0 : Float) = 0 :=
  roundsTo_zero.eq_of_isDouble isDouble_zero (by rw [abs_zero]; exact limit_pos)

/-- The size of a decimal, as a power of ten above it and one not above it. -/
theorem decimal_bounds {d : ℕ} (hd : d ≠ 0) (k : ℤ) :
    (10 : ℝ) ^ ((Binary64.digitCount d : ℤ) + k - 1) ≤ d * 10 ^ k ∧
      (d : ℝ) * 10 ^ k < 10 ^ ((Binary64.digitCount d : ℤ) + k) := by
  have hpositive : 0 < Binary64.digitCount d :=
    lt_digitCount_iff.mpr (Nat.one_le_iff_ne_zero.mpr hd)
  obtain ⟨n, hn⟩ := Nat.exists_eq_add_one.mpr hpositive
  have hlow : (10 : ℝ) ^ n ≤ d := by exact_mod_cast lt_digitCount_iff.mp (by omega : n < Binary64.digitCount d)
  have hhigh : (d : ℝ) < 10 ^ (n + 1) := by exact_mod_cast digitCount_le_iff.mp hn.le
  have hpower : (0 : ℝ) < 10 ^ k := by positivity
  rw [hn]
  constructor
  · rw [show ((n + 1 : ℕ) : ℤ) + k - 1 = n + k by push_cast; ring, zpow_add₀ (by norm_num),
      zpow_natCast]
    exact mul_le_mul_of_nonneg_right hlow hpower.le
  · rw [zpow_add₀ (by norm_num), zpow_natCast]
    exact mul_lt_mul_of_pos_right hhigh hpower

theorem roundsTo_infinity_of_large {d : ℕ} {k : ℤ} (hd : d ≠ 0)
    (hlarge : 310 < (Binary64.digitCount d : ℤ) + k) :
    RoundsTo (d * 10 ^ k) Binary64.infinity := by
  have hpowers : (2 : ℝ) ^ 1024 ≤ 10 ^ 310 := by
    exact_mod_cast (by decide +kernel : 2 ^ 1024 ≤ 10 ^ 310)
  have hlimit : limit ≤ d * 10 ^ k := by
    calc limit ≤ 10 ^ (310 : ℤ) := hpowers.trans_eq (zpow_natCast 10 310).symm
      _ ≤ 10 ^ ((Binary64.digitCount d : ℤ) + k - 1) :=
        zpow_le_zpow_right₀ (by norm_num) (by omega)
      _ ≤ d * 10 ^ k := (decimal_bounds hd k).1
  obtain ⟨y, hy⟩ := exists_isNearest_decimal hd k
  exact .above rfl hy (hy.ge_of_ge (isDouble_pow 1024) hlimit)

theorem roundsTo_zero_of_small {d : ℕ} {k : ℤ} (hd : d ≠ 0)
    (hsmall : (Binary64.digitCount d : ℤ) + k < -330) : RoundsTo (d * 10 ^ k) (0 : Float) := by
  have hpowers : (2 : ℝ) * 2 ^ 1074 < 10 ^ 331 := by
    exact_mod_cast (by decide +kernel : 2 * 2 ^ 1074 < 10 ^ 331)
  have hbound : (d : ℝ) * 10 ^ k ≤ 10 ^ (-331 : ℤ) :=
    (decimal_bounds hd k).2.le.trans (zpow_le_zpow_right₀ (by norm_num) (by omega))
  have hnear : IsNearest ((d : ℝ) * 10 ^ k) 0 := by
    apply isNearest_zero
    rw [abs_of_nonneg (by positivity)]
    calc 2 * ((d : ℝ) * 10 ^ k) ≤ 2 * 10 ^ (-331 : ℤ) :=
          mul_le_mul_of_nonneg_left hbound (by norm_num)
      _ < 2 ^ (-1074 : ℤ) := by
          rw [zpow_neg, zpow_neg, ← div_eq_mul_inv, div_lt_iff₀ (by positivity), mul_comm,
            ← div_eq_mul_inv, lt_div_iff₀ (by positivity)]
          exact_mod_cast hpowers
  obtain ⟨hfinite, hvalue⟩ := toReal_zero
  exact .finite hfinite (by rwa [hvalue])

/-- Every decimal is read as the nearest double, or as infinity where that is out of range. -/
theorem roundsTo_ofDecimal (d : ℕ) (k : ℤ) :
    RoundsTo (d * 10 ^ k) (Binary64.ofDecimal false d k) := by
  by_cases hd : d = 0
  · have hzero : Binary64.ofDecimal false d k = 0 := by
      unfold Binary64.ofDecimal
      exact if_pos hd
    rw [hzero, hd, Nat.cast_zero, zero_mul]
    exact roundsTo_zero
  by_cases hlarge : 310 < (Binary64.digitCount d : ℤ) + k
  · have hinfinite : Binary64.ofDecimal false d k = Binary64.infinity := by
      unfold Binary64.ofDecimal
      exact (if_neg hd).trans (if_pos hlarge)
    rw [hinfinite]
    exact roundsTo_infinity_of_large hd hlarge
  by_cases hsmall : (Binary64.digitCount d : ℤ) + k < -330
  · have hzero : Binary64.ofDecimal false d k = 0 := by
      unfold Binary64.ofDecimal
      exact (if_neg hd).trans ((if_neg hlarge).trans (if_pos hsmall))
    rw [hzero]
    exact roundsTo_zero_of_small hd hsmall
  exact ofDecimal_roundsTo hd (not_lt.mp hsmall) (not_lt.mp hlarge)

end Doubles
end Backtester
