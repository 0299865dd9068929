import Backtester.Proofs.ExitPrices
import Backtester.Proofs.Ratchet

/-!
# Stops as doubles

Doubles are ordered as the extended number line is, apart from not-a-number, and the stop of a
position that is opened at a finite price with a finite fraction is never that: it may be infinite,
but one and the fraction add up to a finite double, so that no zero meets an infinity.

* `le_iff_toEReal` — doubles are compared by their places on the extended number line; this makes
  them an `OrderedScalar`.
* `RoundsTo.isFinite_of_near` — a result close to a finite double is in range, since the largest
  double is far from the end of the range.
* `stopIsNumber_opening` — the stop of an opening at a finite price is a number.
-/

namespace Backtester

namespace Doubles

open Float.Model
open Float.Model.UnpackedFloat

/-- The place of a double on the extended number line. -/
noncomputable def toEReal (x : Float) : EReal :=
  match x.toModel.unpack with
  | .infinity .positive => ⊤
  | .infinity .negative => ⊥
  | u => (exactValue u : EReal)

variable {x y : Float}

theorem le_iff_toEReal (hx : x.isNaN = false) (hy : y.isNaN = false) :
    x ≤ y ↔ toEReal x ≤ toEReal y := by
  have hfinite (hx : x.toModel.unpack.isFinite = true) (hy : y.toModel.unpack.isFinite = true) :=
    le_iff_toReal (x := x) (y := y) hx hy
  rw [isNaN_eq_false_iff] at hx hy
  unfold toEReal
  unfold toReal at hfinite
  -- Only two finite numbers are compared by their values; an infinity goes by its sign.
  cases hxu : x.toModel.unpack with
  | notANumber => exact absurd hxu hx
  | infinity sign =>
      rw [le_iff, hxu]
      cases hyu : y.toModel.unpack with
      | notANumber => exact absurd hyu hy
      | infinity sign' => cases sign <;> cases sign' <;> simp [UnpackedFloat.compare] <;> rfl
      | zero | finite => cases sign <;> simp [UnpackedFloat.compare]
  | zero | finite =>
      cases hyu : y.toModel.unpack with
      | notANumber => exact absurd hyu hy
      | infinity sign' =>
          rw [le_iff, hxu, hyu]
          cases sign' <;> simp [UnpackedFloat.compare]
      | zero | finite =>
          rw [hxu, hyu] at hfinite
          rw [hfinite rfl rfl]
          exact EReal.coe_le_coe_iff.symm

instance : OrderedScalar Float := by
  refine .of_place toEReal (fun x y => ⟨fun h => ?_, fun ⟨hx, hy, h⟩ => ?_⟩) fun _ _ => le_of_lt
  · obtain ⟨hx, hy⟩ := isNaN_of_le h
    exact ⟨hx, hy, (le_iff_toEReal hx hy).mp h⟩
  · exact (le_iff_toEReal hx hy).mpr h

/-- A rounded result is a number. -/
theorem RoundsTo.isNaN {r : ℝ} (h : RoundsTo r x) : x.isNaN = false := by
  rw [isNaN_eq_false_iff]
  cases h with
  | finite hfinite =>
      intro hnan
      have hunpack : x.toModel.unpack.isFinite = true := hfinite
      rw [hnan] at hunpack
      cases hunpack
  | above hx => simp [hx]
  | below hx => simp [hx]

/-- The largest double is far from the end of the range. -/
theorem IsDouble.abs_add_two_lt {z : ℝ} (h : IsDouble z) (hz : |z| < limit) : |z| + 2 < limit := by
  have hroom : (2 : ℝ) ^ 55 < limit := two_pow_lt_limit (by norm_num)
  by_cases hsmall : |z| < 2 ^ 54
  · norm_num at hsmall hroom
    linarith
  · -- Both are multiples of four.
    have hlarge : (2 : ℝ) ^ ((2 : ℤ) + 52) ≤ |z| := by exact_mod_cast not_lt.mp hsmall
    obtain ⟨j, rfl⟩ := h.exists_multiple hlarge
    obtain ⟨top, hlimit⟩ : ∃ top : ℤ, limit = top * 2 ^ (2 : ℤ) := by
      refine ⟨2 ^ 1022, ?_⟩
      rw [Int.cast_pow]
      exact pow_add 2 1022 2
    have hfour : (0 : ℝ) < 2 ^ (2 : ℤ) := by norm_num
    rw [abs_mul, abs_of_pos hfour, hlimit] at hz ⊢
    have hint : |j| < top := by
      have hreal := lt_of_mul_lt_mul_right hz hfour.le
      exact_mod_cast hreal
    have hstep : |(j : ℝ)| + 1 ≤ top := by exact_mod_cast hint
    norm_num
    linarith

/-- A result that is at most one off a finite double is in range. -/
theorem RoundsTo.isFinite_of_near {r s : ℝ} (h : RoundsTo r x) (hs : IsDouble s)
    (hlimit : |s| < limit) (hnear : |r - s| ≤ 1) : x.isFinite = true := by
  refine (h.isFinite_of_lt fun z hz => ?_).1
  have hclose := (hz.nearest s hs).trans hnear
  have hroom := hs.abs_add_two_lt hlimit
  rw [abs_le] at hclose hnear
  rw [abs_lt]
  constructor
  · linarith [neg_abs_le s]
  · linarith [le_abs_self s]

/-- One less, or more, a finite double is finite. -/
theorem isFinite_one_sub_add (hx : x.isFinite = true) :
    (Scalar.ofNat 1 - x : Float).isFinite = true ∧ (Scalar.ofNat 1 + x : Float).isFinite = true := by
  obtain ⟨hone, hvalue⟩ := toReal_ofNat (n := 1) (by norm_num)
  have hsub := sub_roundsTo hone hx
  have hadd := add_roundsTo hone hx
  rw [hvalue, Nat.cast_one] at hsub hadd
  constructor
  · refine hsub.isFinite_of_near (isDouble_toReal x).neg ?_ ?_
    · rw [abs_neg]
      exact abs_toReal_lt_limit hx
    · rw [sub_neg_eq_add, sub_add_cancel, abs_one]
  · refine hadd.isFinite_of_near (isDouble_toReal x) (abs_toReal_lt_limit hx) ?_
    rw [add_sub_cancel_right, abs_one]

/-- A finite price with a finite fraction of it taken off or put on is a number. -/
theorem isNaN_level (hx : x.isFinite = true) (hy : y.isFinite = true) :
    (x * (Scalar.ofNat 1 - y)).isNaN = false ∧ (x * (Scalar.ofNat 1 + y)).isNaN = false := by
  obtain ⟨hsub, hadd⟩ := isFinite_one_sub_add hy
  exact ⟨(mul_roundsTo hx hsub).isNaN, (mul_roundsTo hx hadd).isNaN⟩

end Doubles

/-- The stop of an opening at a finite price is a number. -/
theorem stopIsNumber_opening {risk : Risk Float}
    (hfraction : ∀ fraction ∈ risk.stopLoss, fraction.isFinite = true) (time : Int) {price : Float}
    (hprice : price.isFinite = true) : (risk.opening time price).StopIsNumber := by
  intro stop hstop
  obtain ⟨fraction, hmem, rfl⟩ := Option.map_eq_some_iff.mp hstop
  obtain ⟨hsub, hadd⟩ := Doubles.isNaN_level hprice (hfraction fraction hmem)
  cases risk.direction with
  | long => exact hsub
  | short => exact hadd

end Backtester
