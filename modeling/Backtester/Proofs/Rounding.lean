import Backtester.Proofs.Nearest
import Backtester.Proofs.Packing

/-!
# Rounding words

The exact result of an operation reaches the rounding step as a significand, an exponent and a
note on what lies behind the significand.  Rounding gives the nearest double, and packing keeps it
or, out of range, makes it an infinity.

* `Describes` — what the note on a significand says about the exact result.
* `exactValue`, `Canonical` — the number an unpacked double stands for, and the one form of it
  that words hold.
* `nearest_roundWithAccuracy` — rounding gives the nearest double in that form.
* `unpack_pack_canonical`, `unpack_pack_large` — what packing keeps.
-/

namespace Backtester
namespace Doubles

open Float.Model
open Float.Model.UnpackedFloat

/-! ## What lies behind a significand -/

/-- Where a number lies between a significand and the next one. -/
def Describes : Accuracy → ℕ → ℝ → Prop
  | .exact, m, t => t = m
  | .inexact .lt, m, t => m < t ∧ t < m + 1 / 2
  | .inexact .eq, m, t => t = m + 1 / 2
  | .inexact .gt, m, t => m + 1 / 2 < t ∧ t < m + 1

/-- A significand with its residual bits says where a number lies. -/
def Locates (extended : ExtendedMantissa) (t : ℝ) : Prop :=
  Describes extended.accuracy extended.mantissa t

theorem locates_ofMantissaAndAccuracy {accuracy : Accuracy} {m : ℕ} {t : ℝ}
    (h : Describes accuracy m t) : Locates (.ofMantissaAndAccuracy m accuracy) t := by
  rcases accuracy with _ | order
  · exact h
  · cases order <;> exact h

theorem Locates.bounds {extended : ExtendedMantissa} {t : ℝ} (h : Locates extended t) :
    extended.mantissa ≤ t ∧ t < extended.mantissa + 1 := by
  rcases extended with ⟨m, half, rest⟩
  cases half <;> cases rest <;> simp only [Locates, Describes, ExtendedMantissa.accuracy] at h ⊢
  · exact ⟨h.ge, by linarith⟩
  · exact ⟨h.1.le, by linarith⟩
  · exact ⟨by linarith, by linarith⟩
  · exact ⟨by linarith, h.2⟩

/-- Shifting by one place halves the number. -/
theorem Locates.shiftRightOne {extended : ExtendedMantissa} {t : ℝ} (h : Locates extended t) :
    Locates extended.shiftRightOne (t / 2) := by
  rcases extended with ⟨m, half, rest⟩
  obtain ⟨k, rfl | rfl⟩ := Nat.even_or_odd' m
  · have hdiv : 2 * k / 2 = k := by omega
    have hmod : (2 * k % 2 != 0) = false := by simp
    cases half <;> cases rest <;>
      simp only [Locates, Describes, ExtendedMantissa.accuracy, ExtendedMantissa.shiftRightOne,
        hdiv, hmod, Bool.or_false, Bool.or_true, Nat.cast_mul, Nat.cast_ofNat]
        at h ⊢
    · linarith
    · constructor <;> linarith
    · constructor <;> linarith
    · constructor <;> linarith
  · have hdiv : (2 * k + 1) / 2 = k := by omega
    have hmod : ((2 * k + 1) % 2 != 0) = true := by simp
    cases half <;> cases rest <;>
      simp only [Locates, Describes, ExtendedMantissa.accuracy, ExtendedMantissa.shiftRightOne,
        hdiv, hmod, Bool.or_false, Bool.or_true, Nat.cast_add, Nat.cast_mul,
        Nat.cast_ofNat, Nat.cast_one] at h ⊢
    · linarith
    · constructor <;> linarith
    · constructor <;> linarith
    · constructor <;> linarith

theorem Locates.shiftRight {extended : ExtendedMantissa} {t : ℝ} (h : Locates extended t) (n : ℕ) :
    Locates (extended >>> n) (t / 2 ^ n) := by
  induction n with
  | zero => rw [pow_zero, div_one]; exact h
  | succ n ih =>
      have hstep := ih.shiftRightOne
      rw [div_div, ← pow_succ] at hstep
      exact hstep

/-- Rounding a significand is off by at most half a place. -/
theorem Locates.abs_sub_roundedMantissa {extended : ExtendedMantissa} {t : ℝ}
    (h : Locates extended t) : |t - extended.roundedMantissa| ≤ 1 / 2 := by
  rcases extended with ⟨m, half, rest⟩
  rw [abs_le]
  cases half <;> cases rest <;>
    simp only [Locates, Describes, ExtendedMantissa.accuracy, ExtendedMantissa.roundedMantissa,
      Accuracy.roundToNearestEven, Nat.cast_add, Nat.cast_one] at h ⊢
  · constructor <;> linarith
  · constructor <;> linarith
  · rcases Nat.mod_two_eq_zero_or_one m with hm | hm <;> rw [hm, h] <;> constructor <;> norm_num
  · constructor <;> linarith

/-- Half a place between two significands, rounding takes the even one. -/
theorem Locates.even_roundedMantissa {extended : ExtendedMantissa} {t : ℝ}
    (h : Locates extended t) (htie : |t - extended.roundedMantissa| = 1 / 2) :
    Even extended.roundedMantissa := by
  rcases extended with ⟨m, half, rest⟩
  rw [abs_eq (by norm_num)] at htie
  cases half <;> cases rest <;>
    simp only [Locates, Describes, ExtendedMantissa.accuracy, ExtendedMantissa.roundedMantissa,
      Accuracy.roundToNearestEven, Nat.cast_add, Nat.cast_one] at h htie ⊢
  · rcases htie with htie | htie <;> linarith
  · rcases htie with htie | htie <;> linarith
  · exact Nat.even_add.mpr (by rw [Nat.even_iff, Nat.even_iff]; omega)
  · rcases htie with htie | htie <;> linarith

/-! ## Values -/

/-- The factor of a sign. -/
def signum : Sign → ℝ
  | .negative => -1
  | .positive => 1

theorem abs_signum (sign : Sign) : |signum sign| = 1 := by
  cases sign <;> simp [signum]

/-- The number that an unpacked double stands for; zero for those that stand for none. -/
noncomputable def exactValue : UnpackedFloat → ℝ
  | .finite sign m e _ => signum sign * (m * 2 ^ e)
  | _ => 0

/-- The form in which a word holds a number: 53 bits, or the smallest exponent. -/
def Canonical : UnpackedFloat → Prop
  | .finite _ m e _ => m < 2 ^ 53 ∧ -1074 ≤ e ∧ (e = -1074 ∨ 2 ^ 52 ≤ m)
  | _ => True

theorem targetExponent_eq (m : ℕ) (e : ℤ) :
    Format.binary64.targetExponent (totalExponent m e) = max ((m.log2 : ℤ) + 1 + e - 53) (-1074) :=
  rfl

/-- Shifting to the target exponent leaves at most 53 bits, and all of them if the number is not
below the smallest exponent. -/
theorem exists_shiftToTargetExponent_locates {accuracy : Accuracy} {m : ℕ} {e : ℤ} {t : ℝ}
    (h : Describes accuracy m t) (hlong : e ≤ max ((m.log2 : ℤ) + 1 + e - 53) (-1074)) :
    ∃ first e₁, shiftToTargetExponent Format.binary64 m e accuracy = (first, e₁) ∧
      Locates first (t * 2 ^ (e - e₁)) ∧ first.mantissa < 2 ^ 53 ∧ -1074 ≤ e₁ ∧
        (e₁ = -1074 ∨ 2 ^ 52 ≤ first.mantissa) := by
  generalize htarget : max ((m.log2 : ℤ) + 1 + e - 53) (-1074) = target at hlong
  obtain ⟨n, hn⟩ := Int.eq_ofNat_of_zero_le (show 0 ≤ target - e by omega)
  have hshift : shiftToTargetExponent Format.binary64 m e accuracy =
      (ExtendedMantissa.ofMantissaAndAccuracy m accuracy >>> n, e + n) := by
    rw [shiftToTargetExponent, targetExponent_eq, htarget, shiftToExponent, hn]
    rfl
  refine ⟨_, _, hshift, ?_, ?_, by omega, ?_⟩
  · have hlocates := (locates_ofMantissaAndAccuracy h).shiftRight n
    rwa [div_eq_mul_inv, ← zpow_natCast, ← zpow_neg, show -(n : ℤ) = e - (e + n) by ring]
      at hlocates
  · rw [mantissa_shiftRight, mantissa_ofMantissaAndAccuracy,
      Nat.div_lt_iff_lt_mul (Nat.two_pow_pos _), ← Nat.pow_add]
    have hlog : m.log2 + 1 ≤ 53 + n := by omega
    calc m < 2 ^ (m.log2 + 1) := Nat.lt_log2_self
      _ ≤ 2 ^ (53 + n) := Nat.pow_le_pow_right (by decide) hlog
  · by_cases hsmall : e + n = -1074
    · exact Or.inl hsmall
    · right
      have hlog : m.log2 = 52 + n := by omega
      have hm : m ≠ 0 := by
        rintro rfl
        rw [Nat.log2_zero] at hlog
        omega
      rw [mantissa_shiftRight, mantissa_ofMantissaAndAccuracy,
        Nat.le_div_iff_mul_le (Nat.two_pow_pos _), ← Nat.pow_add, ← hlog]
      exact Nat.log2_self_le hm

/-- The second shift only takes back a carry into a 54th bit. -/
theorem exists_shiftToTargetExponent_carry {n : ℕ} {e : ℤ} (hn : n ≤ 2 ^ 53) (he : -1074 ≤ e)
    (hfull : e = -1074 ∨ 2 ^ 52 ≤ n) :
    ∃ second e₂, shiftToTargetExponent Format.binary64 n e .exact = (second, e₂) ∧
      (second.mantissa : ℝ) * 2 ^ e₂ = n * 2 ^ e ∧ second.mantissa < 2 ^ 53 ∧ -1074 ≤ e₂ ∧
        (e₂ = -1074 ∨ 2 ^ 52 ≤ second.mantissa) := by
  rcases hn.eq_or_lt with rfl | hlt
  · have hshift : shiftToTargetExponent Format.binary64 (2 ^ 53) e .exact =
        (ExtendedMantissa.ofMantissaAndAccuracy (2 ^ 53) .exact >>> 1, e + 1) := by
      have htarget : max (((2 ^ 53).log2 : ℤ) + 1 + e - 53) (-1074) = e + 1 := by
        rw [Nat.log2_two_pow]
        omega
      rw [shiftToTargetExponent, targetExponent_eq, htarget, shiftToExponent]
      have hone : (e + 1 - e).toNat = 1 := by omega
      rw [hone]
      rfl
    refine ⟨_, _, hshift, ?_, by decide, by omega, Or.inr (by decide)⟩
    rw [mantissa_shiftRight, mantissa_ofMantissaAndAccuracy, zpow_add₀ (by norm_num)]
    norm_num
    ring
  · have hlog : n.log2 ≤ 52 := by
      rcases Nat.eq_zero_or_pos n with rfl | hpositive
      · simp
      · have hlog := (Nat.log2_lt (by omega)).mpr hlt
        omega
    have hshift : shiftToTargetExponent Format.binary64 n e .exact =
        (ExtendedMantissa.ofMantissaAndAccuracy n .exact, e) := by
      rw [shiftToTargetExponent, targetExponent_eq, shiftToExponent]
      have hzero : (max ((n.log2 : ℤ) + 1 + e - 53) (-1074) - e).toNat = 0 := by omega
      rw [hzero]
      simp
      rfl
    exact ⟨_, _, hshift, rfl, hlt, he, hfull⟩

/-- Rounding gives the nearest double. -/
theorem nearest_roundWithAccuracy (sign : Sign) {accuracy : Accuracy} {m : ℕ} {e : ℤ} {t : ℝ}
    (h : Describes accuracy m t) (hlong : e ≤ max ((m.log2 : ℤ) + 1 + e - 53) (-1074)) :
    (roundWithAccuracy Format.binary64 sign m e accuracy).isFinite = true ∧
      Canonical (roundWithAccuracy Format.binary64 sign m e accuracy) ∧
        IsNearest (signum sign * (t * 2 ^ e))
          (exactValue (roundWithAccuracy Format.binary64 sign m e accuracy)) := by
  obtain ⟨first, e₁, hfirst, hlocates, hshort, hsmall, hfull⟩ :=
    exists_shiftToTargetExponent_locates h hlong
  have hhalf := hlocates.abs_sub_roundedMantissa
  obtain ⟨hdown, hup⟩ := roundedMantissa_bounds first
  have hmantissa := hlocates.bounds.1
  have hnearest : IsNearest (t * 2 ^ e) (first.roundedMantissa * 2 ^ e₁) := by
    have hgrid := isNearest_of_grid hhalf hlocates.even_roundedMantissa (by omega) hsmall
      (hfull.imp_right fun hle => le_trans (by exact_mod_cast hle) hmantissa)
    rwa [mul_assoc, ← zpow_add₀ (by norm_num), sub_add_cancel] at hgrid
  obtain ⟨second, e₂, hsecond, hvalue, hshort', hsmall', hfull'⟩ :=
    exists_shiftToTargetExponent_carry (n := first.roundedMantissa) (by omega) hsmall
      (hfull.imp_right fun hle => hle.trans hdown)
  rw [← hvalue] at hnearest
  have hsigned (u : UnpackedFloat) (hu : exactValue u = signum sign * (second.mantissa * 2 ^ e₂)) :
      IsNearest (signum sign * (t * 2 ^ e)) (exactValue u) := by
    rw [hu]
    cases sign with
    | positive => simpa [signum] using hnearest
    | negative => simpa [signum] using hnearest.neg
  by_cases hzero : second.mantissa = 0
  · have hround : roundWithAccuracy Format.binary64 sign m e accuracy = .zero sign := by
      simp only [roundWithAccuracy, hfirst, hsecond, dif_pos hzero]
    rw [hround]
    exact ⟨rfl, trivial, hsigned _ (by simp [exactValue, hzero])⟩
  · rw [roundWithAccuracy_eq sign hfirst hsecond (Nat.pos_of_ne_zero hzero)]
    exact ⟨rfl, ⟨hshort', hsmall', hfull'⟩, hsigned _ rfl⟩

/-! ## Packing -/

/-- Packing loses nothing of a significand without a leading one. -/
theorem unpack_pack_subnormal (sign : Sign) {m : ℕ} (hm : 0 < m) (hhigh : m < 2 ^ 52) :
    (pack (.finite sign m (-1074) hm)).unpack = .finite sign m (-1074) hm := by
  have hmantissa : (BitVec.ofNat 52 m).toNat = m := by
    rw [BitVec.toNat_ofNat]
    exact Nat.mod_eq_of_lt hhigh
  have hzero : BitVec.ofNat 52 m ≠ 0#52 := by
    intro h
    rw [h] at hmantissa
    have hnone : m = 0 := hmantissa.symm
    omega
  show UnpackedFloat.unpack Format.binary64 (UnpackedFloat.pack Format.binary64 _) = _
  rw [pack_subnormal sign hm hhigh, unpack_packComponents, if_neg (by decide), if_pos rfl,
    dif_neg hzero, UnpackedFloat.finite.injEq, hmantissa]
  exact ⟨rfl, rfl, rfl⟩

/-- Packing keeps a canonical number in range. -/
theorem unpack_pack_canonical {sign : Sign} {m : ℕ} {e : ℤ} {hm : 0 < m}
    (hcanonical : Canonical (.finite sign m e hm)) (he : e ≤ 971) :
    (pack (.finite sign m e hm)).unpack = .finite sign m e hm := by
  obtain ⟨hshort, hsmall, hfull⟩ := hcanonical
  by_cases hleading : 2 ^ 52 ≤ m
  · exact unpack_pack_normal sign hm hleading hshort hsmall he
  · obtain rfl := hfull.resolve_right hleading
    exact unpack_pack_subnormal sign hm (by omega)

/-- Packing makes a number out of range an infinity. -/
theorem unpack_pack_large (sign : Sign) {m : ℕ} {e : ℤ} (hm : 0 < m) (he : 972 ≤ e) :
    (pack (.finite sign m e hm)).unpack = .infinity sign := by
  have hbiased : 2 ^ 11 ≤ (e + Format.binary64.exponentBias +
      Format.binary64.mantissaBitsWithoutImplicit).toNat + 1 := by
    show 2 ^ 11 ≤ (e + 1023 + 52).toNat + 1
    omega
  show UnpackedFloat.unpack Format.binary64 (UnpackedFloat.pack Format.binary64 _) = _
  rw [UnpackedFloat.pack, if_pos hbiased]
  cases sign <;> rfl

/-- What a word holds is canonical and in range. -/
theorem canonical_unpack (x : Float) :
    Canonical x.toModel.unpack ∧
      ∀ sign m e hm, x.toModel.unpack = .finite sign m e hm → e ≤ 971 := by
  obtain ⟨sign, exponent, mantissa, hword⟩ := exists_packComponents x.toModel.toBits.toBitVec
  have hunpack : x.toModel.unpack = UnpackedFloat.unpack Format.binary64
      (packComponents Format.binary64 sign exponent mantissa) := by rw [hword]; rfl
  have hmantissa : mantissa.toNat < 2 ^ 52 := mantissa.isLt
  have hexponent : exponent.toNat < 2 ^ 11 := exponent.isLt
  rw [hunpack, unpack_packComponents]
  by_cases hones : exponent = -1#_
  · rw [if_pos hones]
    split
    · exact ⟨trivial, fun _ _ _ _ h => by cases h⟩
    · exact ⟨trivial, fun _ _ _ _ h => by cases h⟩
  · have hmax : exponent.toNat ≠ 2047 := fun h => hones (BitVec.eq_of_toNat_eq h)
    rw [if_neg hones]
    split
    · split
      · exact ⟨trivial, fun _ _ _ _ h => by cases h⟩
      · exact ⟨⟨by omega, le_refl _, Or.inl rfl⟩, fun _ _ _ _ h => by cases h; decide⟩
    · next hzero =>
        have hmin : exponent.toNat ≠ 0 := fun h => hzero (BitVec.eq_of_toNat_eq h)
        refine ⟨⟨by omega, by omega, Or.inr (by omega)⟩, fun _ _ _ _ h => ?_⟩
        cases h
        omega

/-- The first power of two beyond the doubles. -/
noncomputable def limit : ℝ := 2 ^ 1024

theorem limit_pos : 0 < limit := by
  unfold limit
  positivity

/-- A canonical number is below the limit of the doubles exactly when packing keeps it. -/
theorem abs_exactValue_lt_iff {sign : Sign} {m : ℕ} {e : ℤ} {hm : 0 < m}
    (hcanonical : Canonical (.finite sign m e hm)) :
    |exactValue (.finite sign m e hm)| < limit ↔ e ≤ 971 := by
  obtain ⟨hshort, hsmall, hfull⟩ := hcanonical
  have hpos : (0 : ℝ) < 2 ^ e := by positivity
  have hnonneg : (0 : ℝ) ≤ m * 2 ^ e := by positivity
  rw [exactValue, abs_mul, abs_signum, one_mul, abs_of_nonneg hnonneg]
  constructor
  · intro hlt
    by_contra hlarge
    have hleading : (2 : ℝ) ^ 52 ≤ m := by exact_mod_cast hfull.resolve_left (by omega)
    have hpower : (2 : ℝ) ^ (972 : ℤ) ≤ 2 ^ e := zpow_le_zpow_right₀ (by norm_num) (by omega)
    have hlimit : limit = 2 ^ 52 * 2 ^ (972 : ℤ) := by
      rw [limit, ← zpow_natCast, ← zpow_natCast, ← zpow_add₀ (by norm_num)]
      norm_num
    rw [hlimit] at hlt
    exact absurd hlt (not_lt.mpr (mul_le_mul hleading hpower (by positivity) (by positivity)))
  · intro he
    have hmlt : (m : ℝ) < 2 ^ 53 := by exact_mod_cast hshort
    have hpower : (2 : ℝ) ^ e ≤ 2 ^ (971 : ℤ) := zpow_le_zpow_right₀ (by norm_num) he
    have hlimit : limit = 2 ^ 53 * 2 ^ (971 : ℤ) := by
      rw [limit, ← zpow_natCast, ← zpow_natCast, ← zpow_add₀ (by norm_num)]
      norm_num
    rw [hlimit]
    exact mul_lt_mul hmlt hpower hpos (by positivity)

end Doubles
end Backtester
