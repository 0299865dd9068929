import Backtester.Number.Binary64
import Mathlib

/-!
# Packing and rounding doubles

A double is a word of 64 bits in three fields, which unpack into a sign, a significand and an
exponent.  An operation unpacks its operands, rounds the exact result to 53 bits and packs it again.

* `unpack_packComponents` — what the fields of a word say.
* `pack_unpack` — packing what was unpacked gives the double back.
* `unpack_pack_normal` — packing loses nothing of a significand that has its leading one.
* `roundWithAccuracy_eq` — rounding shifts, rounds the significand and shifts again.
-/

namespace Backtester
namespace Doubles

open Float.Model
open Float.Model.UnpackedFloat

/-! ## The fields of a word -/

theorem toBitVec_ofBitVec (b : BitVec 1) : (Sign.ofBitVec b).toBitVec = b := by
  revert b
  decide

/-- The three fields of a word make it up. -/
theorem packComponents_unpack (b : BitVec Format.binary64.numBits) :
    packComponents Format.binary64 (.ofBitVec (unpackSign b)) (unpackExponent b)
      (unpackMantissa b) = b := by
  rw [packComponents, toBitVec_ofBitVec]
  apply BitVec.eq_of_getLsbD_eq
  intro i hi
  have hbits : i < 64 := hi
  simp only [unpackSign, unpackExponent, unpackMantissa, BitVec.getLsbD_append,
    BitVec.getLsbD_cast, BitVec.getLsbD_extractLsb]
  by_cases hmantissa : i < 52
  · rw [if_pos hmantissa]
    simp
    omega
  · by_cases hexponent : i - 52 < 11
    · rw [if_neg hmantissa, if_pos hexponent, Nat.add_sub_cancel' (Nat.le_of_not_lt hmantissa)]
      simp
      omega
    · have hlast : i = 63 := by omega
      subst hlast
      rw [if_neg hmantissa, if_neg hexponent]
      rfl

theorem ofBitVec_unpackSign (sign : Sign) (exponent : BitVec 11) (mantissa : BitVec 52) :
    Sign.ofBitVec (unpackSign (packComponents Format.binary64 sign exponent mantissa)) = sign := by
  have hbit : unpackSign (packComponents Format.binary64 sign exponent mantissa) =
      sign.toBitVec := by
    apply BitVec.eq_of_getLsbD_eq
    intro i hi
    obtain rfl : i = 0 := by omega
    simp only [unpackSign, packComponents, BitVec.getLsbD_cast, BitVec.getLsbD_extractLsb,
      BitVec.getLsbD_append]
    simp
  rw [hbit]
  cases sign <;> rfl

/-- A significand with its leading one. -/
theorem toNat_leading (mantissa : BitVec 52) :
    (1#1 ++ mantissa).toNat = 2 ^ 52 + mantissa.toNat := by
  rw [BitVec.toNat_append, ← Nat.shiftLeft_add_eq_or_of_lt mantissa.isLt]
  rfl

/-- What the three fields of a word say. -/
theorem unpack_packComponents (sign : Sign) (exponent : BitVec 11) (mantissa : BitVec 52) :
    UnpackedFloat.unpack Format.binary64 (packComponents Format.binary64 sign exponent mantissa) =
      if exponent = -1#_ then
        if mantissa = 0#_ then .infinity sign else .notANumber
      else if exponent = 0#_ then
        if h : mantissa = 0#_ then .zero sign
        else .finite sign mantissa.toNat (-1074) (by
          simpa [BitVec.toNat_pos, BitVec.pos_iff_ne_zero])
      else .finite sign (2 ^ 52 + mantissa.toNat) (exponent.toNat - 1075) (by omega) := by
  unfold UnpackedFloat.unpack
  simp only [ofBitVec_unpackSign, unpackExponent_packComponents, unpackMantissa_packComponents,
    toNat_leading]
  split
  · rfl
  · split 
    · rename_i h
      subst h
      rfl
    · rfl

/-- A word is made up of three fields. -/
theorem exists_packComponents (b : BitVec Format.binary64.numBits) :
    ∃ sign exponent mantissa, packComponents Format.binary64 sign exponent mantissa = b :=
  ⟨_, _, _, packComponents_unpack b⟩

/-! ## There and back -/

/-- Packing a significand that has its leading one. -/
theorem pack_normal (sign : Sign) {m : Nat} {e : Int} (hm : 0 < m) (hlow : 2 ^ 52 ≤ m)
    (hhigh : m < 2 ^ 53) (he : e ≤ 971) :
    UnpackedFloat.pack Format.binary64 (.finite sign m e hm) =
      packComponents Format.binary64 sign (.ofNat 11 (e + 1075).toNat) (.ofNat 52 m) := by
  have hlog : m.log2 = 52 := (Nat.log2_eq_iff (by omega)).mpr ⟨hlow, hhigh⟩
  have hbiased : (e + Format.binary64.exponentBias +
      Format.binary64.mantissaBitsWithoutImplicit).toNat = (e + 1075).toNat := by
    congr 1
    show e + 1023 + 52 = e + 1075
    omega
  have hrange : ¬2 ^ 11 ≤ (e + 1075).toNat + 1 := by omega
  rw [UnpackedFloat.pack, hlog, hbiased, if_neg hrange]
  rfl

/-- Packing a significand without a leading one. -/
theorem pack_subnormal (sign : Sign) {m : Nat} (hm : 0 < m) (hhigh : m < 2 ^ 52) :
    UnpackedFloat.pack Format.binary64 (.finite sign m (-1074) hm) =
      packComponents Format.binary64 sign 0#11 (.ofNat 52 m) := by
  have hlt : m.log2 < 52 := (Nat.log2_lt (by omega)).mpr hhigh
  have hlog : m.log2 + 1 ≠ Format.binary64.mantissaBits := by
    show m.log2 + 1 ≠ 53
    omega
  have hbiased : ¬2 ^ 11 ≤ ((-1074 : Int) + Format.binary64.exponentBias +
      Format.binary64.mantissaBitsWithoutImplicit).toNat + 1 := by
    decide
  rw [UnpackedFloat.pack, if_neg hbiased, if_neg hlog]

/-- Packing what a valid word says gives the word. -/
theorem pack_unpack_word {b : BitVec Format.binary64.numBits} (hvalid : Format.binary64.Valid b) :
    UnpackedFloat.pack Format.binary64 (UnpackedFloat.unpack Format.binary64 b) = b := by
  obtain ⟨sign, exponent, mantissa, rfl⟩ := exists_packComponents b
  have hnan := hvalid.eq_packedNaN
  rw [unpackExponent_packComponents, unpackMantissa_packComponents] at hnan
  rw [unpack_packComponents]
  by_cases hones : exponent = -1#_
  · rw [if_pos hones]
    by_cases hzero : mantissa = 0#_
    · rw [if_pos hzero, hones, hzero]
      rfl
    · rw [if_neg hzero, hnan hones hzero]
      rfl
  · rw [if_neg hones]
    by_cases hsmall : exponent = 0#_
    · rw [if_pos hsmall]
      by_cases hzero : mantissa = 0#_
      · rw [dif_pos hzero, hsmall, hzero]
        rfl
      · rw [dif_neg hzero, pack_subnormal _ _ mantissa.isLt, hsmall, BitVec.ofNat_toNat,
          BitVec.setWidth_eq]
    · rw [if_neg hsmall]
      have hlt : exponent.toNat < 2 ^ 11 := exponent.isLt
      have hmax : exponent.toNat ≠ 2047 := fun h => hones (BitVec.eq_of_toNat_eq h)
      have hmantissa : mantissa.toNat < 2 ^ 52 := mantissa.isLt
      rw [pack_normal _ _ (by omega) (by omega) (by omega)]
      congr 1
      · apply BitVec.eq_of_toNat_eq
        rw [BitVec.toNat_ofNat]
        omega
      · apply BitVec.eq_of_toNat_eq
        rw [BitVec.toNat_ofNat]
        omega

theorem pack_unpack (x : Float) : Float.ofModel (pack x.toModel.unpack) = x := by
  obtain ⟨⟨⟨word⟩, hvalid⟩⟩ := x
  rw [Float.ofModel.injEq, Float.Model.mk.injEq]
  exact congrArg UInt64.ofBitVec (pack_unpack_word hvalid)

/-- Packing loses nothing of a significand that has its leading one. -/
theorem unpack_pack_normal (sign : Sign) {m : Nat} {e : Int} (hm : 0 < m) (hlow : 2 ^ 52 ≤ m)
    (hhigh : m < 2 ^ 53) (hsmall : -1074 ≤ e) (hlarge : e ≤ 971) :
    (pack (.finite sign m e hm)).unpack = .finite sign m e hm := by
  have hexponent : (BitVec.ofNat 11 (e + 1075).toNat).toNat = (e + 1075).toNat := by
    rw [BitVec.toNat_ofNat]
    omega
  have hmantissa : (BitVec.ofNat 52 m).toNat = m - 2 ^ 52 := by
    rw [BitVec.toNat_ofNat]
    omega
  have hones : BitVec.ofNat 11 (e + 1075).toNat ≠ -1#_ := by
    intro h
    have hmax : (e + 1075).toNat = 2047 := hexponent.symm.trans (congrArg BitVec.toNat h)
    omega
  have hzero : BitVec.ofNat 11 (e + 1075).toNat ≠ 0#_ := by
    intro h
    have hmin : (e + 1075).toNat = 0 := hexponent.symm.trans (congrArg BitVec.toNat h)
    omega
  show UnpackedFloat.unpack Format.binary64 (UnpackedFloat.pack Format.binary64 _) = _
  rw [pack_normal sign hm hlow hhigh hlarge, unpack_packComponents, if_neg hones, if_neg hzero,
    UnpackedFloat.finite.injEq, hexponent, hmantissa]
  refine ⟨rfl, ?_, ?_⟩
  · omega
  · omega

/-! ## Rounding -/

theorem mantissa_shiftRight (extended : ExtendedMantissa) (n : Nat) :
    (extended >>> n).mantissa = extended.mantissa / 2 ^ n := by
  induction n with
  | zero =>
      show extended.mantissa = _
      rw [Nat.pow_zero, Nat.div_one]
  | succ n ih =>
      show (extended >>> n).mantissa / 2 = _
      rw [ih, Nat.div_div_eq_div_mul, ← Nat.pow_succ]

/-- Rounding a significand adds at most one to it. -/
theorem roundedMantissa_bounds (extended : ExtendedMantissa) :
    extended.mantissa ≤ extended.roundedMantissa ∧
      extended.roundedMantissa ≤ extended.mantissa + 1 := by
  rcases extended with ⟨m, half, rest⟩
  cases half <;> cases rest
  · exact ⟨Nat.le_refl _, Nat.le_succ _⟩
  · exact ⟨Nat.le_refl _, Nat.le_succ _⟩
  · show m ≤ m + m % 2 ∧ m + m % 2 ≤ m + 1
    omega
  · exact ⟨Nat.le_succ _, Nat.le_refl _⟩

/-- The accuracy does not touch the significand itself. -/
theorem mantissa_ofMantissaAndAccuracy (m : Nat) (accuracy : Accuracy) :
    (ExtendedMantissa.ofMantissaAndAccuracy m accuracy).mantissa = m := by
  rcases accuracy with _ | order
  · rfl
  · cases order <;> rfl

/-- Rounding shifts, rounds the significand and shifts again. -/
theorem roundWithAccuracy_eq {spec : Format} (sign : Sign) {m : Nat} {e e₁ e₂ : Int}
    {accuracy : Accuracy} {first second : ExtendedMantissa}
    (hfirst : shiftToTargetExponent spec m e accuracy = (first, e₁))
    (hsecond : shiftToTargetExponent spec first.roundedMantissa e₁ .exact = (second, e₂))
    (hpositive : 0 < second.mantissa) :
    roundWithAccuracy spec sign m e accuracy = .finite sign second.mantissa e₂ hpositive := by
  simp only [roundWithAccuracy, hfirst, hsecond]
  rw [dif_neg (by omega)]

end Doubles
end Backtester
