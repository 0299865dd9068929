import Backtester.Proofs.Neighbours
import Backtester.Proofs.NumberTexts
import Backtester.Proofs.StopLevels

/-!
# Differences of doubles

Rounding keeps the order of numbers, so differences of doubles compare as exact differences do, and
no difference is so small that it is rounded to zero.

* `RoundsTo.le_of_lt` — of two numbers the smaller one is not rounded to the larger double.
* `sub_le_sub_left` — less is left when more is taken away.
* `sub_beq_zero_iff` — only equal numbers have the difference zero.
-/

namespace Backtester
namespace Doubles

open Float.Model
open Float.Model.UnpackedFloat

/-! ## Rounding keeps order -/

/-- Of two numbers the smaller one has no larger nearest double: otherwise the first would lie above
the middle of the two doubles and the second below it. -/
theorem IsNearest.le_of_lt {r s a b : ℝ} (ha : IsNearest r a) (hb : IsNearest s b) (h : r < s) :
    a ≤ b := by
  by_contra hlt
  rw [not_le] at hlt
  have hfirst := sq_le_sq.mpr (ha.nearest b hb.isDouble)
  have hsecond := sq_le_sq.mpr (hb.nearest a ha.isDouble)
  nlinarith

variable {x y z : Float}

theorem RoundsTo.le_of_lt {r s : ℝ} (hx : RoundsTo r x) (hy : RoundsTo s y) (h : r < s) :
    x ≤ y := by
  have hplaces := le_iff_toEReal hx.isNaN hy.isNaN
  unfold toEReal at hplaces
  have hpositive := limit_pos
  cases hx with
  | below hxu =>
      rw [hplaces, hxu]
      exact bot_le
  | finite hxf ha =>
      have hbounds := abs_lt.mp (abs_toReal_lt_limit hxf)
      cases hy with
      | above hyu =>
          rw [hplaces, hyu]
          exact le_top
      | finite hyf hb => exact (le_iff_toReal hxf hyf).mpr (ha.le_of_lt hb h)
      | below hyu hb hlimit => linarith [ha.le_of_lt hb h]
  | above hxu ha hlimit =>
      cases hy with
      | above hyu => rw [hplaces, hxu, hyu]
      | finite hyf hb => linarith [ha.le_of_lt hb h, (abs_lt.mp (abs_toReal_lt_limit hyf)).2]
      | below hyu hb hlimit' => linarith [ha.le_of_lt hb h]

theorem isNaN_of_isFinite (hx : x.isFinite = true) : x.isNaN = false :=
  (isNaN_of_le ((le_iff_toReal hx hx).mpr le_rfl)).1

theorem nonpos_iff_toReal (hx : x.isFinite = true) : x ≤ 0 ↔ toReal x ≤ 0 := by
  rw [le_iff_toReal hx toReal_zero.1, toReal_zero.2]

theorem neg_iff_toReal (hx : x.isFinite = true) : x < 0 ↔ toReal x < 0 := by
  rw [lt_iff_toReal hx toReal_zero.1, toReal_zero.2]

/-! ## Differences -/

theorem sub_self_eq_zero (hx : x.isFinite = true) : x - x = 0 := by
  have hunpack : x.toModel.unpack.isFinite = true := hx
  have hzero : UnpackedFloat.sub Format.binary64 x.toModel.unpack x.toModel.unpack =
      .zero .positive := by
    cases hcase : x.toModel.unpack with
    | infinity | notANumber => rw [hcase] at hunpack; cases hunpack
    | zero sign => cases sign <;> rfl
    | finite sign m e hm =>
        simp only [UnpackedFloat.sub, Int.sub_self]
        rfl
  show Float.ofModel (pack (UnpackedFloat.sub Format.binary64 x.toModel.unpack x.toModel.unpack)) = 0
  rw [hzero]
  rfl

theorem toReal_sub_of_zero (hx : x.isFinite = true) (hy : y.isFinite = true) (hzero : toReal y = 0) :
    (x - y).isFinite = true ∧ toReal (x - y) = toReal x := by
  have hrounds := sub_roundsTo hx hy
  rw [hzero, sub_zero] at hrounds
  exact hrounds.eq_of_isDouble (isDouble_toReal x) (abs_toReal_lt_limit hx)

/-- Less is left when more is taken away. -/
theorem sub_le_sub_left (hx : x.isFinite = true) (hy : y.isFinite = true) (hz : z.isFinite = true)
    (h : y ≤ z) : x - z ≤ x - y := by
  rcases ((le_iff_toReal hy hz).mp h).lt_or_eq with hlt | heq
  · exact (sub_roundsTo hx hz).le_of_lt (sub_roundsTo hx hy) (by linarith)
  · by_cases hzero : toReal y = 0
    · -- Zeros of different signs are different doubles, but both leave the number as it is.
      obtain ⟨hfiniteY, hvalueY⟩ := toReal_sub_of_zero hx hy hzero
      obtain ⟨hfiniteZ, hvalueZ⟩ := toReal_sub_of_zero hx hz (heq.symm.trans hzero)
      rw [le_iff_toReal hfiniteZ hfiniteY, hvalueY, hvalueZ]
    · obtain rfl := eq_of_toReal hy hz heq hzero
      exact OrderedScalar.le_refl (sub_roundsTo hx hy).isNaN

theorem isFinite_of_beq_zero (h : (x == Scalar.ofNat 0) = true) : x.isFinite = true := by
  have hcompare : (x.toModel.unpack.compare (.zero .positive) == some .eq) = true := h
  show x.toModel.unpack.isFinite = true
  cases hcase : x.toModel.unpack with
  | zero | finite => rfl
  | notANumber => rw [hcase] at hcompare; cases hcompare
  | infinity sign => rw [hcase] at hcompare; cases sign <;> cases hcompare

/-- Only equal numbers have the difference zero, since doubles lie no nearer together than the
smallest double is to zero. -/
theorem sub_beq_zero_iff (hx : x.isFinite = true) (hy : y.isFinite = true) :
    ((x - y) == Scalar.ofNat 0) = true ↔ toReal x = toReal y := by
  have hrounds := sub_roundsTo hx hy
  constructor
  · intro hbeq
    have hfinite := isFinite_of_beq_zero hbeq
    have hnearest := hrounds.nearest hfinite
    rw [beq_zero_iff hfinite] at hbeq
    obtain ⟨i, hi⟩ := (isDouble_toReal x).exists_multiple_of_place (Or.inl rfl)
    obtain ⟨j, hj⟩ := (isDouble_toReal y).exists_multiple_of_place (Or.inl rfl)
    have hmultiple : toReal x - toReal y = (i - j : ℤ) * 2 ^ (-1074 : ℤ) := by
      rw [hi, hj]
      push_cast
      ring
    by_contra hne
    have hint : i - j ≠ 0 := by
      intro hsame
      rw [hsame, Int.cast_zero, zero_mul, sub_eq_zero] at hmultiple
      exact hne hmultiple
    have hfar : (2 : ℝ) ^ (-1074 : ℤ) ≤ |toReal x - toReal y| := by
      rw [hmultiple]
      exact zpow_le_abs_multiple hint _
    have hpositive : (0 : ℝ) < 2 ^ (-1074 : ℤ) := by positivity
    have hresult := hnearest.le_abs (isDouble_zpow le_rfl) hfar
    rw [hbeq, abs_zero] at hresult
    linarith
  · intro heq
    rw [heq, sub_self] at hrounds
    obtain ⟨hfinite, hvalue⟩ := hrounds.eq_of_isDouble isDouble_zero (by rw [abs_zero]; exact limit_pos)
    exact (beq_zero_iff hfinite).mpr hvalue

end Doubles

end Backtester
