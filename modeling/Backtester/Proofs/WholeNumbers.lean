import Backtester.Metrics.Rounding
import Backtester.Proofs.DecimalRounding

/-!
# Whole numbers among the doubles

* `ofNat_roundsTo`, `toReal_ofNat` — counts and numerals as doubles.
* `nonneg_div_ofNat` — a number that is not negative, divided by a count.
* `exists_ofFloat_eq` — the parts read off the bits of a finite double.
* `exists_roundWhole` — rounding to a whole number is off by at most one half.
-/

namespace Backtester
namespace Doubles

open Float.Model
open Float.Model.UnpackedFloat

theorem ofScientific_roundsTo (n : ℕ) : RoundsTo n (Float.ofScientific n false 0) := by
  simpa using ofScientific_mul_roundsTo n (k := 0) (by norm_num)

/-- A whole number of at most 64 bits is rounded. -/
theorem ofNat_roundsTo {n : ℕ} (hn : n < 2 ^ 64) : RoundsTo n (Scalar.ofNat n : Float) := by
  have hdigits : Binary64.digitCount n ≤ 20 := digitCount_le_iff.mpr (by omega)
  show RoundsTo n (Binary64.ofDecimal false n 0)
  unfold Binary64.ofDecimal
  dsimp only
  by_cases hzero : n = 0
  · rw [if_pos hzero, hzero]
    exact ofScientific_roundsTo 0
  · rw [if_neg hzero, if_neg (by omega), if_neg (by omega), if_pos (Int.le_refl 0)]
    exact ofScientific_roundsTo n

theorem one_le_toReal_ofNat {n : ℕ} (hpositive : 0 < n) (hlong : n < 2 ^ 64) :
    (Scalar.ofNat n : Float).isFinite = true ∧ 1 ≤ toReal (Scalar.ofNat n : Float) := by
  have hle : |(n : ℝ)| ≤ 2 ^ 64 := by
    rw [Nat.abs_cast]
    exact_mod_cast hlong.le
  obtain ⟨hfinite, hnearest⟩ := (ofNat_roundsTo hlong).isFinite_of_le (isDouble_pow 64)
    (two_pow_lt_limit (by norm_num)) hle
  exact ⟨hfinite, hnearest.ge_of_ge (by simpa using isDouble_pow 0) (by exact_mod_cast hpositive)⟩

theorem exists_unpack_of_pos {x : Float} (hx : x.isFinite = true) (hpositive : 0 < toReal x) :
    ∃ m e, ∃ hm : 0 < m, x.toModel.unpack = .finite .positive m e hm := by
  have hunpack : x.toModel.unpack.isFinite = true := hx
  unfold toReal at hpositive
  cases hcase : x.toModel.unpack with
  | infinity | notANumber => rw [hcase] at hunpack; cases hunpack
  | zero => simp [hcase, exactValue] at hpositive
  | finite sign m e hm =>
      cases sign with
      | positive => exact ⟨m, e, hm, rfl⟩
      | negative =>
          have hmagnitude : (0 : ℝ) ≤ m * 2 ^ e := by positivity
          rw [hcase, exactValue, signum] at hpositive
          linarith

/-- A number that is not negative, divided by a whole number, is not negative, also where it is
infinite. -/
theorem nonneg_div_ofNat {x : Float} (hx : 0 ≤ x) {n : ℕ} (hpositive : 0 < n)
    (hlong : n < 2 ^ 64) : 0 ≤ x / Scalar.ofNat n := by
  obtain ⟨hfinite, hone⟩ := one_le_toReal_ofNat hpositive hlong
  obtain ⟨m, e, hm, hunpack⟩ := exists_unpack_of_pos hfinite (by linarith)
  rw [← nonNegative_iff] at hx ⊢
  show NonNegative (pack (UnpackedFloat.div Format.binary64 x.toModel.unpack
    (Scalar.ofNat n : Float).toModel.unpack)).unpack
  rw [hunpack]
  exact nonNegative_pack (nonNegative_div hx hm)

/-- A numeral is the number it writes. -/
theorem toReal_ofNat {n : ℕ} (hn : n < 2 ^ 53) :
    (Scalar.ofNat n : Float).isFinite = true ∧ toReal (Scalar.ofNat n : Float) = n := by
  have hle : (n : ℝ) ≤ 2 ^ 53 := by exact_mod_cast hn.le
  refine (ofNat_roundsTo (by omega)).eq_of_isDouble ?_ ?_
  · exact_mod_cast isDouble_intCast (k := n) (by rw [Nat.abs_cast]; exact_mod_cast hn)
  · rw [Nat.abs_cast]
    exact hle.trans_lt (two_pow_lt_limit (by norm_num))

/-! ## Rounding to a whole number -/

/-- The fields of a word as a number. -/
theorem toNat_packComponents (sign : Sign) (exponent : BitVec 11) (mantissa : BitVec 52) :
    (packComponents Format.binary64 sign exponent mantissa).toNat =
      (sign.toBitVec.toNat * 2 ^ 11 + exponent.toNat) * 2 ^ 52 + mantissa.toNat := by
  rw [packComponents, BitVec.toNat_append, ← Nat.shiftLeft_add_eq_or_of_lt mantissa.isLt,
    BitVec.toNat_append, ← Nat.shiftLeft_add_eq_or_of_lt exponent.isLt, Nat.shiftLeft_eq,
    Nat.shiftLeft_eq]

/-- The first bit of a word. -/
def signBit : Sign → Bool
  | .negative => true
  | .positive => false

theorem signum_eq (sign : Sign) : signum sign = if signBit sign then -1 else 1 := by
  cases sign <;> simp [signum, signBit]

/-- The parts that are read off the bits of a double are its fields. -/
theorem ofFloat_eq {x : Float} {sign : Sign} {exponent : BitVec 11} {mantissa : BitVec 52}
    (hword : packComponents Format.binary64 sign exponent mantissa = x.toModel.toBits.toBitVec) :
    Binary64.ofFloat x =
      if exponent.toNat = 2047 then
        if mantissa.toNat = 0 then .infinite (signBit sign) else .nan
      else if exponent.toNat = 0 then .finite (signBit sign) mantissa.toNat (-1074)
      else .finite (signBit sign) (twoTo 52 + mantissa.toNat) (exponent.toNat - 1075) := by
  have hmantissa : mantissa.toNat < 2 ^ 52 := mantissa.isLt
  have hexponent : exponent.toNat < 2 ^ 11 := exponent.isLt
  have hpowers : twoTo 63 = 9223372036854775808 ∧ twoTo 52 = 4503599627370496 ∧ twoTo 11 = 2048 :=
    ⟨rfl, rfl, rfl⟩
  have hbits : x.toBits.toNat =
      (sign.toBitVec.toNat * 2 ^ 11 + exponent.toNat) * 2 ^ 52 + mantissa.toNat := by
    rw [← toNat_packComponents, hword]
    rfl
  have hsign : decide (twoTo 63 ≤ x.toBits.toNat) = signBit sign := by
    rw [hbits, hpowers.1]
    cases sign
    · exact decide_eq_true (by
        have hone : Sign.negative.toBitVec.toNat = 1 := rfl
        omega)
    · exact decide_eq_false (by
        have hzero : Sign.positive.toBitVec.toNat = 0 := rfl
        omega)
  have hexponentBits : x.toBits.toNat / twoTo 52 % twoTo 11 = exponent.toNat := by
    rw [hbits, hpowers.2.1, hpowers.2.2]
    omega
  have hmantissaBits : x.toBits.toNat % twoTo 52 = mantissa.toNat := by
    rw [hbits, hpowers.2.1]
    omega
  unfold Binary64.ofFloat
  dsimp only
  rw [hexponentBits, hmantissaBits, hsign]

/-- A finite double from its parts. -/
def unpacked (sign : Sign) (m : ℕ) (q : ℤ) : UnpackedFloat :=
  if hm : m = 0 then .zero sign else .finite sign m q (Nat.pos_of_ne_zero hm)

/-- The parts that are read off the bits of a finite double make it up. -/
theorem exists_ofFloat_unpacked {x : Float} (hx : x.isFinite = true) :
    ∃ sign m q, Binary64.ofFloat x = .finite (signBit sign) m q ∧
      x.toModel.unpack = unpacked sign m q := by
  obtain ⟨sign, exponent, mantissa, hword⟩ := exists_packComponents x.toModel.toBits.toBitVec
  have hunpack : x.toModel.unpack = UnpackedFloat.unpack Format.binary64
      (packComponents Format.binary64 sign exponent mantissa) := by rw [hword]; rfl
  have hones : exponent ≠ -1#_ := by
    rintro rfl
    have hspecial : x.isFinite = false := by
      show x.toModel.unpack.isFinite = false
      rw [hunpack, unpack_packComponents, if_pos rfl]
      split <;> rfl
    rw [hx] at hspecial
    cases hspecial
  have hmax : exponent.toNat ≠ 2047 := fun h => hones (BitVec.eq_of_toNat_eq h)
  rw [ofFloat_eq hword, if_neg hmax, hunpack, unpack_packComponents, if_neg hones]
  by_cases hsmall : exponent = 0#_
  · have hzero : exponent.toNat = 0 := by rw [hsmall]; rfl
    rw [if_pos hzero, if_pos hsmall]
    refine ⟨sign, _, _, rfl, ?_⟩
    unfold unpacked
    split
    · next hnone => rw [dif_pos (by simp [hnone])]
    · next hsome =>
        have hne : mantissa.toNat ≠ 0 := fun h => hsome (BitVec.eq_of_toNat_eq h)
        rw [dif_neg hne]
  · have hnonzero : exponent.toNat ≠ 0 := fun h => hsmall (BitVec.eq_of_toNat_eq h)
    rw [if_neg hnonzero, if_neg hsmall]
    refine ⟨sign, _, _, rfl, ?_⟩
    have hne : twoTo 52 + mantissa.toNat ≠ 0 :=
      Nat.ne_of_gt (Nat.add_pos_left (Nat.two_pow_pos 52) _)
    rw [unpacked, dif_neg hne]
    rfl

theorem exactValue_unpacked (sign : Sign) (m : ℕ) (q : ℤ) :
    exactValue (unpacked sign m q) = signum sign * (m * 2 ^ q) := by
  unfold unpacked
  split
  · next hm => simp [exactValue, hm]
  · rfl

theorem exists_ofFloat_eq {x : Float} (hx : x.isFinite = true) :
    ∃ negative m q, Binary64.ofFloat x = .finite negative m q ∧
      toReal x = (if negative then -1 else 1) * (m * 2 ^ q) := by
  obtain ⟨sign, m, q, hparts, hunpack⟩ := exists_ofFloat_unpacked hx
  refine ⟨signBit sign, m, q, hparts, ?_⟩
  rw [toReal, hunpack, exactValue_unpacked, signum_eq]

theorem toReal_of_ofFloat {x : Float} (hx : x.isFinite = true) {m : ℕ} {q : ℤ}
    (h : Binary64.ofFloat x = .finite false m q) : toReal x = m * 2 ^ q := by
  obtain ⟨negative, m', q', hparts, hvalue⟩ := exists_ofFloat_eq hx
  rw [h] at hparts
  cases hparts
  rw [hvalue, if_neg Bool.false_ne_true, one_mul]

/-- Rounding half up is off by at most one half. -/
theorem abs_sub_roundHalfUp (m : ℕ) (q : ℤ) :
    |(m : ℝ) * 2 ^ q - Binary64.roundHalfUp m q| ≤ 1 / 2 := by
  unfold Binary64.roundHalfUp
  have hpower (n : ℕ) : twoTo n = 2 ^ n := rfl
  rw [hpower, hpower]
  dsimp only
  have hvalue : (m : ℝ) * 2 ^ q = (m * 2 ^ q.toNat : ℕ) / (2 ^ (-q).toNat : ℕ) := by
    have hsplit : q = (q.toNat : ℤ) - ((-q).toNat : ℤ) := by omega
    conv_lhs => rw [hsplit, zpow_sub₀ (by norm_num), zpow_natCast, zpow_natCast]
    push_cast
    ring
  rw [hvalue]
  have hunit : 0 < 2 ^ (-q).toNat := Nat.two_pow_pos _
  generalize m * 2 ^ q.toNat = whole
  generalize 2 ^ (-q).toNat = unit at hunit ⊢
  have hpos : (0 : ℝ) < unit := by exact_mod_cast hunit
  have hlow := Nat.div_mul_le_self (2 * whole + unit) (2 * unit)
  have hhigh := Nat.lt_div_mul_add (a := 2 * whole + unit) (b := 2 * unit) (by omega)
  generalize (2 * whole + unit) / (2 * unit) = result at hlow hhigh ⊢
  have hlow' : (result : ℝ) * (2 * unit) ≤ 2 * whole + unit := by exact_mod_cast hlow
  have hhigh' : (2 : ℝ) * whole + unit < result * (2 * unit) + 2 * unit := by exact_mod_cast hhigh
  have hdifference : (whole : ℝ) / unit - result = (whole - result * unit) / unit := by
    field_simp
  rw [hdifference, abs_le]
  constructor
  · rw [le_div_iff₀ hpos]
    linarith
  · rw [div_le_iff₀ hpos]
    linarith

/-- Rounding a finite double to a whole number is off by at most one half. -/
theorem exists_roundWhole {x : Float} (hx : x.isFinite = true) :
    ∃ k : ℤ, |toReal x - k| ≤ 1 / 2 ∧ RoundsTo k (Scalar.roundWhole x) := by
  obtain ⟨negative, m, q, hparts, hvalue⟩ := exists_ofFloat_eq hx
  have hrounds : RoundsTo (Binary64.roundHalfUp m q) (Float.ofNat (Binary64.roundHalfUp m q)) :=
    ofScientific_roundsTo _
  have hhalf := abs_sub_roundHalfUp m q
  have hwhole : (Scalar.roundWhole x : Float) =
      Binary64.signed negative (Float.ofNat (Binary64.roundHalfUp m q)) := by
    show Binary64.roundWhole x = _
    rw [Binary64.roundWhole, hparts]
  rw [hwhole, hvalue]
  cases negative with
  | false =>
      refine ⟨Binary64.roundHalfUp m q, by simpa using hhalf, ?_⟩
      rw [Int.cast_natCast]
      exact hrounds
  | true =>
      refine ⟨-Binary64.roundHalfUp m q, ?_, ?_⟩
      · rw [if_pos rfl, Int.cast_neg, Int.cast_natCast, neg_one_mul, neg_sub_neg, abs_sub_comm]
        exact hhalf
      · rw [Int.cast_neg, Int.cast_natCast]
        exact hrounds.neg

end Doubles
end Backtester
