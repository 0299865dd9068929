import Backtester.Proofs.ExitPrices

/-!
# Operands of finite results

Infinities and not-a-number pass through arithmetic, so a finite result says that what it was
computed from is finite.  Only a divisor need not be: a number over an infinity is zero.

* `isFinite_of_add`, `isFinite_of_sub`, `isFinite_of_mul`, `isFinite_of_div` — the operands of a
  finite sum, difference and product, and the numerator of a finite quotient.
* `isFinite_of_foldl_add` — the start and the terms of a finite sum.
* `toReal_sub_of_left_zero` — a zero less any double is the double's negative.
* `toReal_div_eq_zero` — a finite quotient with a zero on top is zero, whatever divides it.
-/

namespace Backtester
namespace Doubles

open Float.Model
open Float.Model.UnpackedFloat

section

variable {u v : UnpackedFloat}

/-- Infinities and not-a-number are packed as they are. -/
theorem isFinite_of_pack (h : (pack u).unpack.isFinite = true) : u.isFinite = true := by
  cases u with
  | zero | finite => rfl
  | notANumber => cases h
  | infinity sign => cases sign <;> cases h

theorem isFinite_of_unpacked_add (h : (UnpackedFloat.add Format.binary64 u v).isFinite = true) :
    u.isFinite = true ∧ v.isFinite = true := by
  cases u with
  | notANumber => cases v <;> cases h
  | infinity sign =>
      cases v with
      | infinity sign' => cases sign <;> cases sign' <;> cases h
      | notANumber | zero | finite => cases h
  | zero | finite =>
      cases v with
      | notANumber | infinity => cases h
      | zero | finite => exact ⟨rfl, rfl⟩

theorem isFinite_of_unpacked_mul (h : (UnpackedFloat.mul Format.binary64 u v).isFinite = true) :
    u.isFinite = true ∧ v.isFinite = true := by
  cases u with
  | notANumber | infinity => cases v <;> cases h
  | zero | finite =>
      cases v with
      | notANumber | infinity => cases h
      | zero | finite => exact ⟨rfl, rfl⟩

theorem isFinite_of_unpacked_div (h : (UnpackedFloat.div Format.binary64 u v).isFinite = true) :
    u.isFinite = true := by
  cases u with
  | notANumber | infinity => cases v <;> cases h
  | zero | finite => rfl

end

variable {x y : Float}

theorem isFinite_of_add (h : (x + y).isFinite = true) : x.isFinite = true ∧ y.isFinite = true :=
  isFinite_of_unpacked_add (isFinite_of_pack h)

theorem isFinite_of_sub (h : (x - y).isFinite = true) : x.isFinite = true ∧ y.isFinite = true := by
  have hresult : (UnpackedFloat.sub Format.binary64 x.toModel.unpack y.toModel.unpack).isFinite =
      true := isFinite_of_pack h
  rw [sub_eq_add_neg_unpacked] at hresult
  obtain ⟨hx, hy⟩ := isFinite_of_unpacked_add hresult
  rw [← unpack_neg] at hy
  exact ⟨hx, (toReal_neg y).2.symm.trans hy⟩

theorem isFinite_of_mul (h : (x * y).isFinite = true) : x.isFinite = true ∧ y.isFinite = true :=
  isFinite_of_unpacked_mul (isFinite_of_pack h)

theorem isFinite_of_div (h : (x / y).isFinite = true) : x.isFinite = true :=
  isFinite_of_unpacked_div (isFinite_of_pack h)

/-- By induction on the terms: what is added up so far is an operand of the rest. -/
theorem isFinite_of_foldl_add {xs : List Float} {start : Float}
    (h : (xs.foldl (· + ·) start).isFinite = true) :
    start.isFinite = true ∧ ∀ x ∈ xs, x.isFinite = true := by
  induction xs generalizing start with
  | nil => exact ⟨h, List.forall_mem_nil _⟩
  | cons x rest ih =>
      obtain ⟨hnext, hrest⟩ := ih h
      obtain ⟨hstart, hx⟩ := isFinite_of_add hnext
      exact ⟨hstart, List.forall_mem_cons.mpr ⟨hx, hrest⟩⟩

/-! ## Zeros -/

/-- What is not finite stands for no number, which is given as zero. -/
theorem toReal_of_not_isFinite (hx : ¬x.isFinite = true) : toReal x = 0 := by
  have hunpack : ¬x.toModel.unpack.isFinite = true := hx
  unfold toReal
  cases hcase : x.toModel.unpack with
  | infinity | notANumber | zero => rfl
  | finite => exact absurd (by rw [hcase]; rfl) hunpack

/-- A zero less a double is the negative of the double, also where that is not finite and so counts
as zero. -/
theorem toReal_sub_of_left_zero (hx : x.isFinite = true) (hzero : toReal x = 0) :
    toReal (x - y) = -toReal y := by
  by_cases hy : y.isFinite = true
  · have hrounds := sub_roundsTo hx hy
    rw [hzero, zero_sub] at hrounds
    exact (hrounds.eq_of_isDouble (isDouble_toReal y).neg
      (by rw [abs_neg]; exact abs_toReal_lt_limit hy)).2
  · rw [toReal_of_not_isFinite hy, toReal_of_not_isFinite fun h => hy (isFinite_of_sub h).2, neg_zero]

theorem exists_unpack_zero (hx : x.isFinite = true) (hzero : toReal x = 0) :
    ∃ sign, x.toModel.unpack = .zero sign := by
  have hunpack : x.toModel.unpack.isFinite = true := hx
  unfold toReal at hzero
  cases hcase : x.toModel.unpack with
  | infinity | notANumber => rw [hcase] at hunpack; cases hunpack
  | zero sign => exact ⟨sign, rfl⟩
  | finite sign m e hm =>
      have hcast : (0 : ℝ) < m := by exact_mod_cast hm
      have hmagnitude : (0 : ℝ) < m * 2 ^ e := by positivity
      rw [hcase] at hzero
      cases sign with
      | positive => simp only [exactValue, signum] at hzero; linarith
      | negative => simp only [exactValue, signum] at hzero; linarith

theorem exists_unpacked_zero_div {sign : Sign} {v : UnpackedFloat}
    (h : (UnpackedFloat.div Format.binary64 (.zero sign) v).isFinite = true) :
    ∃ sign', UnpackedFloat.div Format.binary64 (.zero sign) v = .zero sign' := by
  cases v with
  | notANumber | zero => cases h
  | infinity | finite => exact ⟨_, rfl⟩

/-- Zero over anything is zero, or not finite. -/
theorem toReal_div_eq_zero (hzero : toReal x = 0) (h : (x / y).isFinite = true) :
    toReal (x / y) = 0 := by
  obtain ⟨sign, hx⟩ := exists_unpack_zero (isFinite_of_div h) hzero
  have hresult : (UnpackedFloat.div Format.binary64 x.toModel.unpack y.toModel.unpack).isFinite =
      true := isFinite_of_pack h
  show exactValue
    (pack (UnpackedFloat.div Format.binary64 x.toModel.unpack y.toModel.unpack)).unpack = 0
  rw [hx] at hresult ⊢
  obtain ⟨sign', hquotient⟩ := exists_unpacked_zero_div hresult
  rw [hquotient]
  cases sign' <;> rfl

end Doubles
end Backtester
