import Backtester.Proofs.Doubles
import Backtester.Proofs.Rounding

/-!
# Double arithmetic as rounded real arithmetic

* `toReal` — the number that a finite double stands for.
* `RoundsTo` — a double is what a real result becomes: the nearest double, or an infinity of its
  sign where the nearest one is out of range.
* `RoundsTo.isFinite_of_lt` — a result that is nowhere near the end of the range is finite.
* `add_roundsTo`, `sub_roundsTo`, `mul_roundsTo`, `div_roundsTo`, `sqrt_roundsTo` — each operation
  rounds its exact result.
* `lt_iff_toReal`, `le_iff_toReal`, `beq_iff_toReal` — comparisons compare the numbers.
-/

namespace Backtester
namespace Doubles

open Float.Model
open Float.Model.UnpackedFloat

/-- The number that a finite double stands for. -/
noncomputable def toReal (x : Float) : ℝ := exactValue x.toModel.unpack

/-- A double is the nearest one to a real number, or an infinity where that one is out of range. -/
inductive RoundsTo (r : ℝ) (x : Float) : Prop
  | finite (hfinite : x.isFinite = true) (hnearest : IsNearest r (toReal x))
  | above {y : ℝ} (hx : x.toModel.unpack = .infinity .positive) (hnearest : IsNearest r y)
      (hy : limit ≤ y)
  | below {y : ℝ} (hx : x.toModel.unpack = .infinity .negative) (hnearest : IsNearest r y)
      (hy : y ≤ -limit)

/-- An unpacked result before packing: a canonical form of the nearest double. -/
structure Rounded (r : ℝ) (u : UnpackedFloat) : Prop where
  isFinite : u.isFinite = true
  canonical : Canonical u
  nearest : IsNearest r (exactValue u)

theorem Rounded.roundsTo {r : ℝ} {u : UnpackedFloat} (h : Rounded r u) :
    RoundsTo r (Float.ofModel (pack u)) := by
  obtain ⟨hfinite, hcanonical, hnearest⟩ := h
  have hunpack : (Float.ofModel (pack u)).toModel.unpack = (pack u).unpack := rfl
  have hkeep (hu : (pack u).unpack = u) : RoundsTo r (Float.ofModel (pack u)) := by
    refine .finite ?_ ?_
    · show ((pack u).unpack).isFinite = true
      rw [hu, hfinite]
    · rw [toReal, hunpack, hu]
      exact hnearest
  cases u with
  | infinity sign => cases hfinite
  | notANumber => cases hfinite
  | zero sign => exact hkeep (by cases sign <;> rfl)
  | finite sign m e hm =>
      by_cases he : e ≤ 971
      · exact hkeep (unpack_pack_canonical hcanonical he)
      · have hlarge := not_lt.mp (mt (abs_exactValue_lt_iff hcanonical).mp he)
        have hinfinite := unpack_pack_large sign hm (not_le.mp he)
        have hnonneg : (0 : ℝ) ≤ m * 2 ^ e := by positivity
        cases sign with
        | positive =>
            refine .above (hunpack.trans hinfinite) hnearest ?_
            rwa [abs_of_nonneg (by simpa [exactValue, signum] using hnonneg)] at hlarge
        | negative =>
            refine .below (hunpack.trans hinfinite) hnearest ?_
            rw [abs_of_nonpos (by simpa [exactValue, signum] using hnonneg)] at hlarge
            linarith

theorem isDouble_exactValue {u : UnpackedFloat} (h : Canonical u) : IsDouble (exactValue u) := by
  cases u with
  | finite sign m e hm =>
      obtain ⟨hshort, hsmall, -⟩ := h
      have hdouble : IsDouble (m * 2 ^ e : ℝ) :=
        ⟨m, e, by rw [Nat.abs_cast]; exact_mod_cast hshort, hsmall, by push_cast; rfl⟩
      cases sign with
      | positive => simpa [exactValue, signum] using hdouble
      | negative => simpa [exactValue, signum] using hdouble.neg
  | infinity => exact isDouble_zero
  | notANumber => exact isDouble_zero
  | zero => exact isDouble_zero

theorem isDouble_toReal (x : Float) : IsDouble (toReal x) :=
  isDouble_exactValue (canonical_unpack x).1

theorem two_pow_lt_limit {n : ℕ} (hn : n ≤ 1023) : (2 : ℝ) ^ n < limit :=
  pow_lt_pow_right₀ (by norm_num) (by omega)

theorem RoundsTo.nearest {r : ℝ} {x : Float} (h : RoundsTo r x) (hfinite : x.isFinite = true) :
    IsNearest r (toReal x) := by
  have hunpack : x.toModel.unpack.isFinite = true := hfinite
  cases h with
  | finite _ hnearest => exact hnearest
  | above hx => rw [hx] at hunpack; cases hunpack
  | below hx => rw [hx] at hunpack; cases hunpack

/-- The one place where the range of the doubles enters. -/
theorem RoundsTo.isFinite_of_lt {r : ℝ} {x : Float} (h : RoundsTo r x)
    (hsmall : ∀ y, IsNearest r y → |y| < limit) : x.isFinite = true ∧ IsNearest r (toReal x) := by
  cases h with
  | finite hfinite hnearest => exact ⟨hfinite, hnearest⟩
  | above hx hnearest hy => exact absurd (lt_of_abs_lt (hsmall _ hnearest)) (not_lt.mpr hy)
  | below hx hnearest hy => exact absurd (neg_lt_of_abs_lt (hsmall _ hnearest)) (not_lt.mpr hy)

theorem RoundsTo.isFinite_of_le {r b : ℝ} {x : Float} (h : RoundsTo r x) (hb : IsDouble b)
    (hlimit : b < limit) (hr : |r| ≤ b) : x.isFinite = true ∧ IsNearest r (toReal x) :=
  h.isFinite_of_lt fun _ hy => (hy.abs_le_of_abs_le hb hr).trans_lt hlimit

/-- A double in range is rounded to itself. -/
theorem RoundsTo.eq_of_isDouble {r : ℝ} {x : Float} (h : RoundsTo r x) (hr : IsDouble r)
    (hlimit : |r| < limit) : x.isFinite = true ∧ toReal x = r := by
  obtain ⟨hfinite, hnearest⟩ := h.isFinite_of_lt fun y hy => by rwa [hy.eq_of_isDouble hr]
  exact ⟨hfinite, hnearest.eq_of_isDouble hr⟩

theorem rounded_self {u : UnpackedFloat} (hfinite : u.isFinite = true) (h : Canonical u) :
    Rounded (exactValue u) u :=
  ⟨hfinite, h, .of_isDouble (isDouble_exactValue h)⟩

theorem rounded_roundWithAccuracy (sign : Sign) {accuracy : Accuracy} {m : ℕ} {e : ℤ} {t : ℝ}
    (h : Describes accuracy m t) (hlong : e ≤ max ((m.log2 : ℤ) + 1 + e - 53) (-1074)) :
    Rounded (signum sign * (t * 2 ^ e)) (roundWithAccuracy Format.binary64 sign m e accuracy) := by
  obtain ⟨hfinite, hcanonical, hnearest⟩ := nearest_roundWithAccuracy sign h hlong
  exact ⟨hfinite, hcanonical, hnearest⟩

theorem rounded_exact (sign : Sign) {m : ℕ} {e : ℤ}
    (hlong : e ≤ max ((m.log2 : ℤ) + 1 + e - 53) (-1074)) :
    Rounded (signum sign * (m * 2 ^ e)) (roundWithAccuracy Format.binary64 sign m e .exact) :=
  rounded_roundWithAccuracy sign (show Describes .exact m (m : ℝ) from rfl) hlong

theorem log2_shiftLeft {m : ℕ} (hm : m ≠ 0) (n : ℕ) : (m <<< n).log2 = m.log2 + n := by
  induction n with
  | zero => rfl
  | succ n ih =>
      have hne : m <<< n ≠ 0 := by
        rw [Nat.shiftLeft_eq]
        exact Nat.mul_ne_zero hm (Nat.two_pow_pos n).ne'
      rw [Nat.shiftLeft_succ, Nat.log2_two_mul hne, ih]
      rfl

theorem rounded_round (sign : Sign) {m : ℕ} (hm : m ≠ 0) (e : ℤ) :
    Rounded (signum sign * (m * 2 ^ e)) (UnpackedFloat.round Format.binary64 sign m e) := by
  rw [Float.Model.UnpackedFloat.round, targetExponent_eq]
  generalize htarget : max ((m.log2 : ℤ) + 1 + e - 53) (-1074) = target
  simp only [decreaseExponent]
  generalize hshift : (e - target).toNat = n
  have hlog : (m <<< n).log2 = m.log2 + n := log2_shiftLeft hm n
  have h := rounded_exact sign (m := m <<< n) (e := e - n) (by rw [hlog]; push_cast; omega)
  have hvalue : ((m <<< n : ℕ) : ℝ) * 2 ^ (e - n) = m * 2 ^ e := by
    rw [Nat.shiftLeft_eq, zpow_sub₀ (by norm_num), zpow_natCast]
    push_cast
    field_simp
  rwa [hvalue] at h

theorem rounded_normalize (m e : ℤ) (zeroSign : Sign) :
    Rounded (m * 2 ^ e) (UnpackedFloat.normalize Format.binary64 m e zeroSign) := by
  rw [Float.Model.UnpackedFloat.normalize]
  rcases lt_trichotomy m 0 with hm | rfl | hm
  · rw [Int.compare_eq_lt.mpr hm]
    have h := rounded_round .negative (m := (-m).toNat) (by omega) e
    have hcast : (((-m).toNat : ℕ) : ℝ) = -m := by exact_mod_cast Int.toNat_of_nonneg (by omega)
    rw [hcast, signum] at h
    convert h using 1
    ring
  · exact ⟨rfl, trivial, by simpa [exactValue] using IsNearest.of_isDouble isDouble_zero⟩
  · rw [Int.compare_eq_gt.mpr hm]
    have h := rounded_round .positive (m := m.toNat) (by omega) e
    have hcast : ((m.toNat : ℕ) : ℝ) = m := by exact_mod_cast Int.toNat_of_nonneg hm.le
    rw [hcast, signum, one_mul] at h
    exact h

/-! ## Sums -/

theorem apply_eq (sign : Sign) (n : ℤ) : ((sign.apply n : ℤ) : ℝ) = signum sign * n := by
  cases sign <;> simp [Sign.apply, signum]

/-- Shifting a significand to a smaller exponent keeps the number. -/
theorem shiftLeft_value (m : ℕ) {e e' : ℤ} (h : e' ≤ e) :
    ((m <<< (e - e').toNat : ℕ) : ℝ) * 2 ^ e' = m * 2 ^ e := by
  obtain ⟨n, hn⟩ := Int.eq_ofNat_of_zero_le (show 0 ≤ e - e' by omega)
  rw [Nat.shiftLeft_eq, hn, Int.toNat_natCast, show e = e' + n by omega, zpow_add₀ (by norm_num),
    zpow_natCast]
  push_cast
  ring

/-- Both significands are shifted to the smaller exponent, where sum and difference are exact. -/
theorem shifted_value (sign sign' : Sign) (m m' : ℕ) (e e' : ℤ) :
    ((sign.apply (m <<< (e - min e e').toNat : ℕ) : ℤ) : ℝ) * 2 ^ min e e' =
        signum sign * (m * 2 ^ e) ∧
      ((sign'.apply (m' <<< (e' - min e e').toNat : ℕ) : ℤ) : ℝ) * 2 ^ min e e' =
        signum sign' * (m' * 2 ^ e') := by
  rw [apply_eq, apply_eq, mul_assoc, mul_assoc, Int.cast_natCast, Int.cast_natCast,
    shiftLeft_value m (min_le_left e e'), shiftLeft_value m' (min_le_right e e')]
  exact ⟨rfl, rfl⟩

theorem rounded_zero (sign : Sign) : Rounded 0 (.zero sign) :=
  ⟨rfl, trivial, .of_isDouble isDouble_zero⟩

theorem rounded_add {u v : UnpackedFloat} (hu : u.isFinite = true) (hv : v.isFinite = true)
    (hcu : Canonical u) (hcv : Canonical v) :
    Rounded (exactValue u + exactValue v) (UnpackedFloat.add Format.binary64 u v) := by
  cases u with
  | infinity => cases hu
  | notANumber => cases hu
  | zero sign =>
      cases v with
      | infinity => cases hv
      | notANumber => cases hv
      | zero sign' =>
          have hsum : exactValue (.zero sign) + exactValue (.zero sign') = 0 := by simp [exactValue]
          rw [hsum]
          cases sign <;> cases sign' <;> exact rounded_zero _
      | finite sign' m e hm =>
          have hsum : exactValue (.zero sign) + exactValue (.finite sign' m e hm) =
              exactValue (.finite sign' m e hm) := by simp [exactValue]
          rw [hsum]
          exact rounded_self hv hcv
  | finite sign m e hm =>
      cases v with
      | infinity => cases hv
      | notANumber => cases hv
      | zero sign' =>
          have hsum : exactValue (.finite sign m e hm) + exactValue (.zero sign') =
              exactValue (.finite sign m e hm) := by simp [exactValue]
          rw [hsum]
          exact rounded_self hu hcu
      | finite sign' m' e' hm' =>
          -- Only here is anything rounded: over the smaller exponent the sum is a whole number.
          have h := rounded_normalize (sign.apply (m <<< (e - min e e').toNat : ℕ) +
            sign'.apply (m' <<< (e' - min e e').toNat : ℕ)) (min e e') .positive
          obtain ⟨hleft, hright⟩ := shifted_value sign sign' m m' e e'
          rw [Int.cast_add, add_mul, hleft, hright] at h
          exact h

theorem add_roundsTo {x y : Float} (hx : x.isFinite = true) (hy : y.isFinite = true) :
    RoundsTo (toReal x + toReal y) (x + y) :=
  (rounded_add hx hy (canonical_unpack x).1 (canonical_unpack y).1).roundsTo

theorem canonical_neg {u : UnpackedFloat} (h : Canonical u) : Canonical u.neg := by
  cases u with
  | finite sign m e hm => exact h
  | infinity | notANumber | zero => trivial

theorem exactValue_neg (u : UnpackedFloat) : exactValue u.neg = -exactValue u := by
  cases u with
  | finite sign m e hm =>
      have hsign : signum (-sign) = -signum sign := by
        cases sign
        · show signum .positive = _
          norm_num [signum]
        · rfl
      rw [UnpackedFloat.neg, exactValue, exactValue, hsign, neg_mul]
  | infinity | notANumber | zero => simp [UnpackedFloat.neg, exactValue]

theorem apply_neg (sign : Sign) (n : ℤ) : (-sign).apply n = -sign.apply n := by
  cases sign
  · show Sign.apply .positive n = _
    simp [Sign.apply]
  · rfl

/-- Subtracting is adding the negative, also on zeros of either sign, infinities and NaN. -/
theorem sub_eq_add_neg_unpacked (u v : UnpackedFloat) :
    UnpackedFloat.sub Format.binary64 u v = UnpackedFloat.add Format.binary64 u v.neg := by
  cases u with
  | notANumber => rfl
  | infinity sign =>
      cases v with
      | infinity sign' => cases sign <;> cases sign' <;> rfl
      | notANumber | zero | finite => rfl
  | zero sign =>
      cases v with
      | zero sign' => cases sign <;> cases sign' <;> rfl
      | notANumber | infinity | finite => rfl
  | finite sign m e hm =>
      cases v with
      | finite sign' m' e' hm' =>
          show UnpackedFloat.normalize _ _ _ _ = UnpackedFloat.normalize _ _ _ _
          rw [apply_neg, ← sub_eq_add_neg]
      | notANumber | infinity | zero => rfl

theorem isFinite_neg {u : UnpackedFloat} (h : u.isFinite = true) : u.neg.isFinite = true := by
  cases u with
  | infinity | notANumber => cases h
  | zero | finite => rfl

theorem rounded_sub {u v : UnpackedFloat} (hu : u.isFinite = true) (hv : v.isFinite = true)
    (hcu : Canonical u) (hcv : Canonical v) :
    Rounded (exactValue u - exactValue v) (UnpackedFloat.sub Format.binary64 u v) := by
  rw [sub_eq_add_neg_unpacked, sub_eq_add_neg, ← exactValue_neg]
  exact rounded_add hu (isFinite_neg hv) hcu (canonical_neg hcv)

theorem sub_roundsTo {x y : Float} (hx : x.isFinite = true) (hy : y.isFinite = true) :
    RoundsTo (toReal x - toReal y) (x - y) :=
  (rounded_sub hx hy (canonical_unpack x).1 (canonical_unpack y).1).roundsTo

/-! ## Products and quotients -/

theorem signum_mul (sign sign' : Sign) : signum (sign * sign') = signum sign * signum sign' := by
  cases sign <;> cases sign'
  · show signum .positive = _
    norm_num [signum]
  · show signum .negative = _
    norm_num [signum]
  · show signum .negative = _
    norm_num [signum]
  · show signum .positive = _
    norm_num [signum]

theorem rounded_mul {u v : UnpackedFloat} (hu : u.isFinite = true) (hv : v.isFinite = true)
    (hcu : Canonical u) (hcv : Canonical v) :
    Rounded (exactValue u * exactValue v) (UnpackedFloat.mul Format.binary64 u v) := by
  cases u with
  | infinity => cases hu
  | notANumber => cases hu
  | zero sign =>
      have hproduct : exactValue (.zero sign) * exactValue v = 0 := by simp [exactValue]
      rw [hproduct]
      cases v with
      | infinity => cases hv
      | notANumber => cases hv
      | zero sign' => exact rounded_zero _
      | finite => exact rounded_zero _
  | finite sign m e hm =>
      cases v with
      | infinity => cases hv
      | notANumber => cases hv
      | zero sign' =>
          have hproduct : exactValue (.finite sign m e hm) * exactValue (.zero sign') = 0 := by
            simp [exactValue]
          rw [hproduct]
          exact rounded_zero _
      | finite sign' m' e' hm' =>
          obtain ⟨-, hsmall, hfull⟩ := hcu
          obtain ⟨-, hsmall', hfull'⟩ := hcv
          -- One factor has its leading one, or the product is below every double.
          have hlong : e + e' ≤ max (((m * m').log2 : ℤ) + 1 + (e + e') - 53) (-1074) := by
            by_cases htiny : e + e' ≤ -1074
            · exact htiny.trans (le_max_right _ _)
            · have hlog : 52 ≤ (m * m').log2 := by
                rw [Nat.le_log2 (Nat.mul_pos hm hm').ne']
                rcases hfull with rfl | hleading
                · exact (hfull'.resolve_left (by omega)).trans (Nat.le_mul_of_pos_left m' hm)
                · exact hleading.trans (Nat.le_mul_of_pos_right m hm')
              omega
          have h := rounded_exact (sign * sign') (m := m * m') (e := e + e') hlong
          have hvalue : signum (sign * sign') * (((m * m' : ℕ) : ℝ) * 2 ^ (e + e')) =
              exactValue (.finite sign m e hm) * exactValue (.finite sign' m' e' hm') := by
            rw [signum_mul, zpow_add₀ (by norm_num), exactValue, exactValue]
            push_cast
            ring
          rw [hvalue] at h
          exact h

theorem mul_roundsTo {x y : Float} (hx : x.isFinite = true) (hy : y.isFinite = true) :
    RoundsTo (toReal x * toReal y) (x * y) :=
  (rounded_mul hx hy (canonical_unpack x).1 (canonical_unpack y).1).roundsTo

/-- The remainder of a division says where the quotient lies. -/
theorem describes_fraction (m : ℕ) {d : ℕ} (hd : 0 < d) :
    Describes (accuracyOfFraction (m % d) d) (m / d) ((m : ℝ) / d) := by
  have hpos : (0 : ℝ) < d := by exact_mod_cast hd
  have hsplit : (m : ℝ) / d = (m / d : ℕ) + (m % d : ℕ) / (d : ℝ) := by
    rw [eq_comm, ← mul_right_cancel_iff_of_pos hpos, add_mul, div_mul_cancel₀ _ hpos.ne',
      div_mul_cancel₀ _ hpos.ne']
    exact_mod_cast Nat.div_add_mod' m d
  have hlt : ((m % d : ℕ) : ℝ) / d < 1 := by
    rw [div_lt_one hpos]
    exact_mod_cast Nat.mod_lt m hd
  generalize m / d = quotient at hsplit ⊢
  generalize m % d = remainder at hsplit hlt ⊢
  rw [hsplit, accuracyOfFraction]
  split
  · next hzero => simp [Describes, hzero]
  · next hzero =>
      have hpositive : (0 : ℝ) < remainder := by exact_mod_cast Nat.pos_of_ne_zero hzero
      have hfraction : (0 : ℝ) < remainder / d := by positivity
      rcases lt_trichotomy (2 * remainder) d with h | h | h
      · rw [Nat.compare_eq_lt.mpr h]
        have hhalf : (remainder : ℝ) / d < 1 / 2 := by
          rw [div_lt_div_iff₀ hpos (by norm_num)]
          have hcast : (2 : ℝ) * remainder < d := by exact_mod_cast h
          linarith
        exact ⟨by linarith, by linarith⟩
      · rw [Nat.compare_eq_eq.mpr h]
        have hhalf : (remainder : ℝ) / d = 1 / 2 := by
          rw [div_eq_div_iff hpos.ne' (by norm_num)]
          have hcast : (2 : ℝ) * remainder = d := by exact_mod_cast h
          linarith
        rw [hhalf]
        rfl
      · rw [Nat.compare_eq_gt.mpr h]
        have hhalf : 1 / 2 < (remainder : ℝ) / d := by
          rw [div_lt_div_iff₀ (by norm_num) hpos]
          have hcast : (d : ℝ) < 2 * remainder := by exact_mod_cast h
          linarith
        exact ⟨by linarith, by linarith⟩

theorem signum_div (sign sign' : Sign) : signum (sign / sign') = signum sign / signum sign' := by
  cases sign <;> cases sign'
  · show signum .positive = _
    norm_num [signum]
  · show signum .negative = _
    norm_num [signum]
  · show signum .negative = _
    norm_num [signum]
  · show signum .positive = _
    norm_num [signum]

/-- A quotient is computed to 53 bits at least, unless it is below every double. -/
theorem two_pow_le_quotient {m m' n : ℕ} (hm : m ≠ 0) (hn : 53 + m'.log2 ≤ m.log2 + n) :
    2 ^ 52 ≤ (m <<< n) / m' ∨ m' = 0 := by
  rcases Nat.eq_zero_or_pos m' with rfl | hm'
  · exact Or.inr rfl
  · left
    rw [Nat.le_div_iff_mul_le hm', Nat.shiftLeft_eq]
    calc 2 ^ 52 * m' ≤ 2 ^ 52 * 2 ^ (m'.log2 + 1) := Nat.mul_le_mul_left _ Nat.lt_log2_self.le
      _ = 2 ^ (53 + m'.log2) := by rw [← Nat.pow_add]; congr 1; omega
      _ ≤ 2 ^ (m.log2 + n) := Nat.pow_le_pow_right (by decide) hn
      _ = 2 ^ m.log2 * 2 ^ n := Nat.pow_add ..
      _ ≤ m * 2 ^ n := Nat.mul_le_mul_right _ (Nat.log2_self_le hm)

theorem rounded_div {u v : UnpackedFloat} (hu : u.isFinite = true) (hv : v.isFinite = true)
    (hne : exactValue v ≠ 0) :
    Rounded (exactValue u / exactValue v) (UnpackedFloat.div Format.binary64 u v) := by
  cases v with
  | infinity => cases hv
  | notANumber => cases hv
  | zero => exact absurd rfl hne
  | finite sign' m' e' hm' =>
      cases u with
      | infinity => cases hu
      | notANumber => cases hu
      | zero sign =>
          have hquotient : exactValue (.zero sign) / exactValue (.finite sign' m' e' hm') = 0 := by
            simp [exactValue]
          rw [hquotient]
          exact rounded_zero _
      | finite sign m e hm =>
          have htarget : Format.binary64.targetExponent (totalExponent m e - totalExponent m' e') =
              max ((m.log2 : ℤ) + 1 + e - (m'.log2 + 1 + e') - 53) (-1074) := rfl
          simp only [UnpackedFloat.div, divCore, htarget]
          generalize hgoal : min (e - e') (max ((m.log2 : ℤ) + 1 + e - (m'.log2 + 1 + e') - 53)
            (-1074)) = target
          obtain ⟨n, hn⟩ := Int.eq_ofNat_of_zero_le (show 0 ≤ e - e' - target by omega)
          rw [hn, Int.toNat_natCast]
          -- The whole quotient needs 53 bits unless its exponent is below every double's: a shorter
          -- one would lack places that the result has.
          have hlong : target ≤ max ((((m <<< n) / m').log2 : ℤ) + 1 + target - 53) (-1074) := by
            by_cases htiny : target ≤ -1074
            · exact htiny.trans (le_max_right _ _)
            · have hbits : 2 ^ 52 ≤ (m <<< n) / m' :=
                (two_pow_le_quotient hm.ne' (by omega)).resolve_right hm'.ne'
              have hlog : 52 ≤ ((m <<< n) / m').log2 := (Nat.le_log2 (by omega)).mpr hbits
              omega
          have h := rounded_roundWithAccuracy (sign / sign') (describes_fraction (m <<< n) hm')
            hlong
          have hpos : (0 : ℝ) < m' := by exact_mod_cast hm'
          have hsign : signum sign' ≠ 0 := by cases sign' <;> norm_num [signum]
          have hvalue : signum (sign / sign') * (((m <<< n : ℕ) : ℝ) / m' * 2 ^ target) =
              exactValue (.finite sign m e hm) / exactValue (.finite sign' m' e' hm') := by
            rw [signum_div, exactValue, exactValue, Nat.shiftLeft_eq,
              show e = (n : ℤ) + target + e' by omega, zpow_add₀ (by norm_num),
              zpow_add₀ (by norm_num), zpow_natCast]
            push_cast
            field_simp
          rw [hvalue] at h
          exact h

theorem div_roundsTo {x y : Float} (hx : x.isFinite = true) (hy : y.isFinite = true)
    (hne : toReal y ≠ 0) : RoundsTo (toReal x / toReal y) (x / y) :=
  (rounded_div hx hy hne).roundsTo

/-! ## Square roots -/

/-- The remainder of a whole square root says where the square root lies. -/
theorem describes_sqrt (m : ℕ) :
    Describes (if m - m.sqrt * m.sqrt = 0 then .exact
      else .inexact (if m - m.sqrt * m.sqrt ≤ m.sqrt then .lt else .gt)) m.sqrt (√(m : ℝ)) := by
  have hle : m.sqrt * m.sqrt ≤ m := Nat.sqrt_le m
  have hlt : m < (m.sqrt + 1) * (m.sqrt + 1) := Nat.lt_succ_sqrt m
  obtain ⟨rest, hrest⟩ := Nat.exists_eq_add_of_le hle
  have hsub : m - m.sqrt * m.sqrt = rest := by omega
  rw [hsub]
  generalize m.sqrt = root at hrest hlt
  have hsquare : (m : ℝ) = root * root + rest := by exact_mod_cast hrest
  have hroot : (0 : ℝ) ≤ root := by positivity
  split
  · next hzero =>
      show √(m : ℝ) = root
      rw [hsquare, hzero, Nat.cast_zero, show (root : ℝ) * root + 0 = root ^ 2 by ring,
        Real.sqrt_sq hroot]
  · next hzero =>
      have hpositive : (1 : ℝ) ≤ rest := by exact_mod_cast Nat.pos_of_ne_zero hzero
      split
      · next hsmall =>
          have hcast : (rest : ℝ) ≤ root := by exact_mod_cast hsmall
          constructor
          · rw [Real.lt_sqrt hroot, hsquare]
            nlinarith
          · rw [Real.sqrt_lt' (by linarith), hsquare]
            nlinarith
      · next hlarge =>
          have hcast : (root : ℝ) + 1 ≤ rest := by exact_mod_cast not_le.mp hlarge
          have hupper : (m : ℝ) < (root + 1) * (root + 1) := by exact_mod_cast hlt
          constructor
          · rw [Real.lt_sqrt (by linarith), hsquare]
            nlinarith
          · rw [Real.sqrt_lt' (by linarith)]
            nlinarith

theorem rounded_sqrt {u : UnpackedFloat} (hu : u.isFinite = true) (hnonneg : 0 ≤ exactValue u) :
    Rounded (√(exactValue u)) (UnpackedFloat.sqrt Format.binary64 u) := by
  cases u with
  | infinity => cases hu
  | notANumber => cases hu
  | zero sign =>
      have hroot : √(exactValue (.zero sign)) = 0 := by simp [exactValue]
      rw [hroot]
      exact rounded_zero sign
  | finite sign m e hm =>
      have hpos : (0 : ℝ) < m * 2 ^ e := by
        have hcast : (0 : ℝ) < m := by exact_mod_cast hm
        positivity
      cases sign with
      | negative =>
          simp only [exactValue, signum] at hnonneg
          linarith
      | positive =>
          have htarget : Format.binary64.targetExponent ((totalExponent m e + 1).ediv 2) =
              max (((m.log2 : ℤ) + 1 + e + 1) / 2 - 53) (-1074) := rfl
          have hhalf : e.ediv 2 = e / 2 := rfl
          simp only [UnpackedFloat.sqrt, sqrtCore, htarget, hhalf]
          generalize hgoal : min (e / 2) (max (((m.log2 : ℤ) + 1 + e + 1) / 2 - 53) (-1074)) = target
          obtain ⟨n, hn⟩ := Int.eq_ofNat_of_zero_le (show 0 ≤ e - 2 * target by omega)
          rw [hn, Int.toNat_natCast]
          -- The same for the whole root, where 105 bits under it are needed for 53 in it.
          have hlong : target ≤ max (((m <<< n).sqrt.log2 : ℤ) + 1 + target - 53) (-1074) := by
            by_cases htiny : target ≤ -1074
            · exact htiny.trans (le_max_right _ _)
            · have hbits : 2 ^ 52 * 2 ^ 52 ≤ m <<< n := by
                have hlog : 104 ≤ (m <<< n).log2 := by
                  rw [log2_shiftLeft hm.ne']
                  omega
                have hne : m <<< n ≠ 0 := by
                  intro hzero
                  rw [hzero] at hlog
                  simp at hlog
                exact (Nat.le_log2 hne).mp hlog
              have hroot : 2 ^ 52 ≤ (m <<< n).sqrt := Nat.le_sqrt.mpr hbits
              have hlog : 52 ≤ (m <<< n).sqrt.log2 := (Nat.le_log2 (by omega)).mpr hroot
              omega
          have h := rounded_roundWithAccuracy .positive (describes_sqrt (m <<< n)) hlong
          have hvalue : signum .positive * (√((m <<< n : ℕ) : ℝ) * 2 ^ target) =
              √(exactValue (.finite .positive m e hm)) := by
            have hpower : (0 : ℝ) ≤ 2 ^ target := by positivity
            rw [exactValue, signum, one_mul, one_mul, Nat.shiftLeft_eq,
              show e = (n : ℤ) + (target + target) by omega, zpow_add₀ (by norm_num),
              zpow_add₀ (by norm_num), zpow_natCast, ← mul_assoc, Real.sqrt_mul (by positivity),
              Real.sqrt_mul_self hpower]
            push_cast
            rfl
          rw [hvalue] at h
          exact h

theorem sqrt_roundsTo {x : Float} (hx : x.isFinite = true) (hnonneg : 0 ≤ toReal x) :
    RoundsTo (√(toReal x)) x.sqrt :=
  (rounded_sqrt hx hnonneg).roundsTo

/-! ## Comparisons -/

/-- What an ordering says about two numbers. -/
def Orders (order : Ordering) (a b : ℝ) : Prop :=
  match order with
  | .lt => a < b
  | .eq => a = b
  | .gt => b < a

theorem Orders.swap {order : Ordering} {a b : ℝ} (h : Orders order a b) :
    Orders order.swap (-a) (-b) := by
  cases order with
  | lt => exact neg_lt_neg h
  | eq => exact congrArg _ h
  | gt => exact neg_lt_neg h

theorem magnitude_lt {m m' : ℕ} {e e' : ℤ} (hshort : m < 2 ^ 53) (hsmall : -1074 ≤ e)
    (hfull' : e' = -1074 ∨ 2 ^ 52 ≤ m') (h : e < e') : (m : ℝ) * 2 ^ e < m' * 2 ^ e' := by
  have hleading : (2 : ℝ) ^ 52 ≤ m' := by exact_mod_cast hfull'.resolve_left (by omega)
  have hmlt : (m : ℝ) < 2 ^ 53 := by exact_mod_cast hshort
  have hpos : (0 : ℝ) < 2 ^ e := by positivity
  have hpower : (2 : ℝ) ^ (e + 1) ≤ 2 ^ e' := zpow_le_zpow_right₀ (by norm_num) (by omega)
  rw [zpow_add₀ (by norm_num), zpow_one] at hpower
  calc (m : ℝ) * 2 ^ e < 2 ^ 53 * 2 ^ e := mul_lt_mul_of_pos_right hmlt hpos
    _ = 2 ^ 52 * (2 ^ e * 2) := by ring
    _ ≤ m' * 2 ^ e' := mul_le_mul hleading hpower (by positivity) (by positivity)

/-- Canonical magnitudes compare by exponent first. -/
theorem orders_magnitude {m m' : ℕ} {e e' : ℤ} (hshort : m < 2 ^ 53) (hshort' : m' < 2 ^ 53)
    (hsmall : -1074 ≤ e) (hsmall' : -1074 ≤ e') (hfull : e = -1074 ∨ 2 ^ 52 ≤ m)
    (hfull' : e' = -1074 ∨ 2 ^ 52 ≤ m') :
    Orders ((compare e e').then (compare m m')) (m * 2 ^ e) (m' * 2 ^ e') := by
  rcases lt_trichotomy e e' with he | rfl | he
  · rw [Int.compare_eq_lt.mpr he]
    exact magnitude_lt hshort hsmall hfull' he
  · have hpos : (0 : ℝ) < 2 ^ e := by positivity
    rw [Int.compare_eq_eq.mpr rfl]
    rcases lt_trichotomy m m' with hm | rfl | hm
    · rw [Nat.compare_eq_lt.mpr hm]
      exact mul_lt_mul_of_pos_right (by exact_mod_cast hm) hpos
    · rw [Nat.compare_eq_eq.mpr rfl]
      rfl
    · rw [Nat.compare_eq_gt.mpr hm]
      exact mul_lt_mul_of_pos_right (by exact_mod_cast hm) hpos
  · rw [Int.compare_eq_gt.mpr he]
    exact magnitude_lt hshort' hsmall' hfull he

theorem exists_compare_orders {u v : UnpackedFloat} (hu : u.isFinite = true)
    (hv : v.isFinite = true) (hcu : Canonical u) (hcv : Canonical v) :
    ∃ order, u.compare v = some order ∧ Orders order (exactValue u) (exactValue v) := by
  have hpos {m : ℕ} (e : ℤ) (hm : 0 < m) : (0 : ℝ) < m * 2 ^ e := by
    have hcast : (0 : ℝ) < m := by exact_mod_cast hm
    positivity
  cases u with
  | infinity => cases hu
  | notANumber => cases hu
  | zero sign =>
      cases v with
      | infinity => cases hv
      | notANumber => cases hv
      | zero sign' => exact ⟨.eq, rfl, rfl⟩
      | finite sign' m' e' hm' =>
          cases sign' with
          | negative => exact ⟨.gt, rfl, by simpa [Orders, exactValue, signum] using hpos e' hm'⟩
          | positive => exact ⟨.lt, rfl, by simpa [Orders, exactValue, signum] using hpos e' hm'⟩
  | finite sign m e hm =>
      cases v with
      | infinity => cases hv
      | notANumber => cases hv
      | zero sign' =>
          cases sign with
          | negative => exact ⟨.lt, rfl, by simpa [Orders, exactValue, signum] using hpos e hm⟩
          | positive => exact ⟨.gt, rfl, by simpa [Orders, exactValue, signum] using hpos e hm⟩
      | finite sign' m' e' hm' =>
          obtain ⟨hshort, hsmall, hfull⟩ := hcu
          obtain ⟨hshort', hsmall', hfull'⟩ := hcv
          have hmagnitude := orders_magnitude hshort hshort' hsmall hsmall' hfull hfull'
          have hleft := hpos e hm
          have hright := hpos e' hm'
          cases sign with
          | negative =>
              cases sign' with
              | negative => exact ⟨_, rfl, by simpa [exactValue, signum] using hmagnitude.swap⟩
              | positive =>
                  refine ⟨.lt, rfl, ?_⟩
                  simp only [Orders, exactValue, signum]
                  linarith
          | positive =>
              cases sign' with
              | negative =>
                  refine ⟨.gt, rfl, ?_⟩
                  simp only [Orders, exactValue, signum]
                  linarith
              | positive => exact ⟨_, rfl, by simpa [exactValue, signum] using hmagnitude⟩

theorem lt_iff_toReal {x y : Float} (hx : x.isFinite = true) (hy : y.isFinite = true) :
    x < y ↔ toReal x < toReal y := by
  obtain ⟨order, hcompare, horders⟩ :=
    exists_compare_orders hx hy (canonical_unpack x).1 (canonical_unpack y).1
  rw [lt_iff, hcompare, Option.some.injEq]
  cases order with
  | lt => exact iff_of_true rfl horders
  | eq => exact iff_of_false (by decide) (not_lt.mpr (le_of_eq horders.symm))
  | gt => exact iff_of_false (by decide) (not_lt.mpr (show toReal y < toReal x from horders).le)

theorem le_iff_toReal {x y : Float} (hx : x.isFinite = true) (hy : y.isFinite = true) :
    x ≤ y ↔ toReal x ≤ toReal y := by
  obtain ⟨order, hcompare, horders⟩ :=
    exists_compare_orders hx hy (canonical_unpack x).1 (canonical_unpack y).1
  rw [le_iff, hcompare, Option.some.injEq, Option.some.injEq]
  cases order with
  | lt => exact iff_of_true (Or.inl rfl) (show toReal x < toReal y from horders).le
  | eq => exact iff_of_true (Or.inr rfl) (le_of_eq horders)
  | gt => exact iff_of_false (by decide) (not_le.mpr horders)

theorem beq_iff_toReal {x y : Float} (hx : x.isFinite = true) (hy : y.isFinite = true) :
    (x == y) = true ↔ toReal x = toReal y := by
  obtain ⟨order, hcompare, horders⟩ :=
    exists_compare_orders hx hy (canonical_unpack x).1 (canonical_unpack y).1
  have hbeq : (x == y) = (x.toModel.unpack.compare y.toModel.unpack == some .eq) := rfl
  rw [hbeq, hcompare, beq_iff_eq, Option.some.injEq]
  cases order with
  | lt => exact iff_of_false (by decide) (show toReal x < toReal y from horders).ne
  | eq => exact iff_of_true rfl horders
  | gt => exact iff_of_false (by decide) (show toReal y < toReal x from horders).ne'

/-- What lies between two finite doubles is finite. -/
theorem isFinite_of_between {x y z : Float} (hx : x.isFinite = true) (hz : z.isFinite = true)
    (hxy : x ≤ y) (hyz : y ≤ z) : y.isFinite = true := by
  have hcases (w : Float) : w.isFinite = w.toModel.unpack.isFinite := rfl
  rw [hcases] at hx hz ⊢
  rw [le_iff] at hxy hyz
  generalize x.toModel.unpack = u at hx hxy
  generalize z.toModel.unpack = w at hz hyz
  generalize y.toModel.unpack = v at hxy hyz
  cases v with
  | zero | finite => rfl
  | notANumber => cases u <;> simp [UnpackedFloat.compare] at hxy
  | infinity sign =>
      cases sign with
      | negative =>
          cases u with
          | infinity | notANumber => cases hx
          | zero | finite => simp [UnpackedFloat.compare] at hxy
      | positive =>
          cases w with
          | infinity | notANumber => cases hz
          | zero | finite => simp [UnpackedFloat.compare] at hyz

/-! ## Signs -/

theorem unpack_neg (x : Float) : (-x).toModel.unpack = x.toModel.unpack.neg := by
  show (pack x.toModel.unpack.neg).unpack = x.toModel.unpack.neg
  obtain ⟨hcanonical, hrange⟩ := canonical_unpack x
  cases hx : x.toModel.unpack with
  | infinity sign => cases sign <;> rfl
  | notANumber => rfl
  | zero sign => cases sign <;> rfl
  | finite sign m e hm =>
      rw [hx] at hcanonical
      exact unpack_pack_canonical (canonical_neg hcanonical) (hrange _ _ _ _ hx)

theorem toReal_neg (x : Float) : toReal (-x) = -toReal x ∧ (-x).isFinite = x.isFinite := by
  constructor
  · rw [toReal, unpack_neg, exactValue_neg]
    rfl
  · show (-x).toModel.unpack.isFinite = x.toModel.unpack.isFinite
    rw [unpack_neg]
    cases x.toModel.unpack <;> rfl

theorem RoundsTo.neg {r : ℝ} {x : Float} (h : RoundsTo r x) : RoundsTo (-r) (-x) := by
  cases h with
  | finite hfinite hnearest =>
      refine .finite ((toReal_neg x).2.trans hfinite) ?_
      rw [(toReal_neg x).1]
      exact hnearest.neg
  | above hx hnearest hy => exact .below (by rw [unpack_neg, hx]; rfl) hnearest.neg (neg_le_neg hy)
  | below hx hnearest hy =>
      exact .above (by rw [unpack_neg, hx]; rfl) hnearest.neg (by linarith)

theorem toReal_abs (x : Float) : toReal x.abs = |toReal x| ∧ x.abs.isFinite = x.isFinite := by
  have hunpack : x.abs.toModel.unpack = (pack x.toModel.unpack.abs).unpack := rfl
  have hpacked : (pack x.toModel.unpack.abs).unpack = x.toModel.unpack.abs := by
    obtain ⟨hcanonical, hrange⟩ := canonical_unpack x
    cases hx : x.toModel.unpack with
    | infinity sign => cases sign <;> rfl
    | notANumber => rfl
    | zero sign => cases sign <;> rfl
    | finite sign m e hm =>
        rw [hx] at hcanonical
        exact unpack_pack_canonical (show Canonical (.finite .positive m e hm) from hcanonical)
          (hrange _ _ _ _ hx)
  constructor
  · rw [toReal, hunpack, hpacked, toReal]
    cases x.toModel.unpack with
    | infinity | notANumber | zero => simp [UnpackedFloat.abs, exactValue]
    | finite sign m e hm =>
        have hpos : (0 : ℝ) ≤ m * 2 ^ e := by positivity
        rw [exactValue, abs_mul, abs_signum, one_mul, abs_of_nonneg hpos]
        simp [UnpackedFloat.abs, exactValue, signum]
  · show x.abs.toModel.unpack.isFinite = x.toModel.unpack.isFinite
    rw [hunpack, hpacked]
    cases x.toModel.unpack <;> rfl

end Doubles
end Backtester
