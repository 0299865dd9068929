import Backtester.Proofs.Packing

/-!
# Facts about doubles

The laws of double arithmetic that the accounting and the averages rest on.

* `zero_add`, `add_zero` — zero is neutral, except that it turns negative zero into zero.
* `isNaN_add_right`, `isNaN_sub_right`, `isNaN_mul_right` — with a right operand that is not a
  number, neither is the result.
* `isNaN_of_le` — only numbers compare.
* `le_of_not_lt`, `not_lt_iff` — doubles other than not-a-number are totally ordered.
* `NonNegative` — a zero of either sign, or a number above it; sums and quotients of these are such
  again and so never not-a-number.
-/

namespace Backtester
namespace Doubles

open Float.Model
open Float.Model.UnpackedFloat

theorem isNaN_eq_false_iff (x : Float) : x.isNaN = false ↔ x.toModel.unpack ≠ .notANumber := by
  show x.toModel.unpack.isNaN = false ↔ _
  cases x.toModel.unpack <;> simp [UnpackedFloat.isNaN]

theorem isNaN_eq_true_iff (x : Float) : x.isNaN = true ↔ x.toModel.unpack = .notANumber := by
  rw [← Bool.not_eq_false, isNaN_eq_false_iff, not_not]

/-! ## Not-a-number -/

/-- Before packing, the operations keep a right operand that is not a number. -/
theorem unpacked_notANumber_right (u : UnpackedFloat) :
    UnpackedFloat.add Format.binary64 u .notANumber = .notANumber ∧
      UnpackedFloat.sub Format.binary64 u .notANumber = .notANumber ∧
      UnpackedFloat.mul Format.binary64 u .notANumber = .notANumber := by
  cases u with
  | zero sign => cases sign <;> exact ⟨rfl, rfl, rfl⟩
  | infinity sign => cases sign <;> exact ⟨rfl, rfl, rfl⟩
  | notANumber => exact ⟨rfl, rfl, rfl⟩
  | finite sign m e hm => cases sign <;> exact ⟨rfl, rfl, rfl⟩

theorem isNaN_add_right (x : Float) {y : Float} (hy : y.isNaN = true) : (x + y).isNaN = true := by
  rw [isNaN_eq_true_iff] at hy ⊢
  show (pack (UnpackedFloat.add Format.binary64 x.toModel.unpack y.toModel.unpack)).unpack = _
  rw [hy, (unpacked_notANumber_right _).1]
  rfl

theorem isNaN_sub_right (x : Float) {y : Float} (hy : y.isNaN = true) : (x - y).isNaN = true := by
  rw [isNaN_eq_true_iff] at hy ⊢
  show (pack (UnpackedFloat.sub Format.binary64 x.toModel.unpack y.toModel.unpack)).unpack = _
  rw [hy, (unpacked_notANumber_right _).2.1]
  rfl

theorem isNaN_mul_right (x : Float) {y : Float} (hy : y.isNaN = true) : (x * y).isNaN = true := by
  rw [isNaN_eq_true_iff] at hy ⊢
  show (pack (UnpackedFloat.mul Format.binary64 x.toModel.unpack y.toModel.unpack)).unpack = _
  rw [hy, (unpacked_notANumber_right _).2.2]
  rfl

/-! ## Zero -/

theorem eq_negativeZero_iff (x : Float) : x = -0 ↔ x.toModel.unpack = .zero .negative := by
  constructor
  · rintro rfl
    rfl
  · intro h
    rw [← pack_unpack x, h]
    rfl

/-- Before packing, zero is neutral on both sides of everything but negative zero. -/
theorem unpacked_add_zero {u : UnpackedFloat} (hu : u ≠ .zero .negative) :
    UnpackedFloat.add Format.binary64 (.zero .positive) u = u ∧
      UnpackedFloat.add Format.binary64 u (.zero .positive) = u := by
  cases u with
  | zero sign =>
      cases sign with
      | positive => exact ⟨rfl, rfl⟩
      | negative => exact absurd rfl hu
  | infinity sign => exact ⟨rfl, rfl⟩
  | notANumber => exact ⟨rfl, rfl⟩
  | finite sign m e hm => exact ⟨rfl, rfl⟩

theorem zero_add {x : Float} (hx : x ≠ -0) : 0 + x = x := by
  have hparts := unpacked_add_zero (mt (eq_negativeZero_iff x).mpr hx)
  show Float.ofModel
    (pack (UnpackedFloat.add Format.binary64 (.zero .positive) x.toModel.unpack)) = x
  rw [hparts.1, pack_unpack]

theorem add_zero {x : Float} (hx : x ≠ -0) : x + 0 = x := by
  have hparts := unpacked_add_zero (mt (eq_negativeZero_iff x).mpr hx)
  show Float.ofModel
    (pack (UnpackedFloat.add Format.binary64 x.toModel.unpack (.zero .positive))) = x
  rw [hparts.2, pack_unpack]

/-! ## Order -/

theorem lt_iff (x y : Float) :
    x < y ↔ x.toModel.unpack.compare y.toModel.unpack = some .lt := by
  show (decide (_ = true) = true) ↔ _
  rw [decide_eq_true_eq]
  exact beq_iff_eq

theorem le_iff (x y : Float) :
    x ≤ y ↔ x.toModel.unpack.compare y.toModel.unpack = some .lt ∨
      x.toModel.unpack.compare y.toModel.unpack = some .eq := by
  show (decide (_ = true) = true) ↔ _
  rw [decide_eq_true_eq]
  show (x.toModel.unpack.compare y.toModel.unpack).any (·.isLE) = true ↔ _
  rcases x.toModel.unpack.compare y.toModel.unpack with _ | order
  · simp
  · cases order <;> simp

theorem le_of_lt {x y : Float} (h : x < y) : x ≤ y := by
  rw [le_iff]
  exact Or.inl ((lt_iff x y).mp h)

theorem compare_notANumber_right (u : UnpackedFloat) : u.compare .notANumber = none := by
  rcases u with s | _ | s | ⟨s, m, e, hm⟩
  · cases s <;> rfl
  · rfl
  · rfl
  · cases s <;> rfl

/-- What compares is a number, on both sides. -/
theorem isNaN_of_le {x y : Float} (h : x ≤ y) : x.isNaN = false ∧ y.isNaN = false := by
  rw [isNaN_eq_false_iff, isNaN_eq_false_iff]
  rw [le_iff] at h
  constructor
  · intro hx
    rw [hx] at h
    simp [UnpackedFloat.compare] at h
  · intro hy
    rw [hy, compare_notANumber_right] at h
    simp at h

/-- Nothing lies below not-a-number. -/
theorem not_le_nan (x : Float) : ¬x ≤ Scalar.nan := by
  intro h
  cases (isNaN_of_le h).2

/-- Two doubles other than not-a-number compare, one way and the other. -/
theorem exists_compare {u v : UnpackedFloat} (hu : u ≠ .notANumber) (hv : v ≠ .notANumber) :
    ∃ order, u.compare v = some order ∧ v.compare u = some order.swap := by
  have hfields (m₁ m₂ : Nat) (e₁ e₂ : Int) :
      ((compare e₁ e₂).then (compare m₁ m₂)).swap = (compare e₂ e₁).then (compare m₂ m₁) := by
    rw [Ordering.swap_then, Int.compare_swap, Nat.compare_swap]
  -- Only finite numbers of one sign are compared by their fields; all else goes by kind and sign.
  rcases u with s | _ | s | ⟨s, m, e, hm⟩
  · rcases v with s' | _ | s' | ⟨s', m', e', hm'⟩
    · cases s <;> cases s' <;> exact ⟨_, rfl, rfl⟩
    · exact absurd rfl hv
    · cases s <;> exact ⟨_, rfl, rfl⟩
    · cases s <;> cases s' <;> exact ⟨_, rfl, rfl⟩
  · exact absurd rfl hu
  · rcases v with s' | _ | s' | ⟨s', m', e', hm'⟩
    · cases s' <;> exact ⟨_, rfl, rfl⟩
    · exact absurd rfl hv
    · exact ⟨_, rfl, rfl⟩
    · cases s' <;> exact ⟨_, rfl, rfl⟩
  · rcases v with s' | _ | s' | ⟨s', m', e', hm'⟩
    · cases s <;> cases s' <;> exact ⟨_, rfl, rfl⟩
    · exact absurd rfl hv
    · cases s <;> exact ⟨_, rfl, rfl⟩
    · cases s with
      | negative =>
          cases s' with
          | negative =>
              refine ⟨_, rfl, ?_⟩
              rw [hfields]
              rfl
          | positive => exact ⟨_, rfl, rfl⟩
      | positive =>
          cases s' with
          | negative => exact ⟨_, rfl, rfl⟩
          | positive =>
              refine ⟨_, rfl, ?_⟩
              rw [hfields]
              rfl

/-- Doubles other than not-a-number are totally ordered. -/
theorem le_of_not_lt {x y : Float} (hx : x.isNaN = false) (hy : y.isNaN = false) (h : ¬x < y) :
    y ≤ x := by
  rw [isNaN_eq_false_iff] at hx hy
  obtain ⟨order, hforth, hback⟩ := exists_compare hx hy
  rw [lt_iff, hforth] at h
  rw [le_iff, hback]
  cases order with
  | lt => exact absurd rfl h
  | eq => exact Or.inr rfl
  | gt => exact Or.inl rfl

/-- A double that is not below a number is not a number itself, or not below it in order. -/
theorem not_lt_iff {x y : Float} (hy : y.isNaN = false) :
    ¬x < y ↔ x.isNaN = true ∨ y ≤ x := by
  by_cases hx : x.isNaN = true
  · rw [iff_true_intro hx, true_or, iff_true, lt_iff]
    rw [(isNaN_eq_true_iff x).mp hx]
    cases y.toModel.unpack <;> simp [Float.Model.UnpackedFloat.compare]
  · rw [Bool.not_eq_true] at hx
    constructor
    · exact fun h => Or.inr (le_of_not_lt hx hy h)
    · rintro (hnan | hle) hlt
      · rw [hx] at hnan
        cases hnan
      · rw [isNaN_eq_false_iff] at hx hy
        obtain ⟨order, hforth, hback⟩ := exists_compare hx hy
        rw [lt_iff, hforth] at hlt
        rw [le_iff, hback] at hle
        obtain rfl := Option.some.inj hlt
        rcases hle with hle | hle <;> cases hle

/-! ## Non-negative doubles -/

/-- A zero of either sign, or a number above it. -/
inductive NonNegative : UnpackedFloat → Prop
  | zero (sign : Sign) : NonNegative (.zero sign)
  | infinity : NonNegative (.infinity .positive)
  | finite (m : Nat) (e : Int) (hm : 0 < m) : NonNegative (.finite .positive m e hm)

theorem nonNegative_iff (x : Float) : NonNegative x.toModel.unpack ↔ 0 ≤ x := by
  rw [le_iff]
  show _ ↔ UnpackedFloat.compare (.zero .positive) x.toModel.unpack = some .lt ∨
    UnpackedFloat.compare (.zero .positive) x.toModel.unpack = some .eq
  generalize x.toModel.unpack = u
  constructor
  · intro h
    cases h with
    | zero sign => exact Or.inr rfl
    | infinity => exact Or.inl rfl
    | finite m e hm => exact Or.inl rfl
  · intro h
    rcases u with s | _ | s | ⟨s, m, e, hm⟩
    · cases s with
      | negative => simp [UnpackedFloat.compare] at h
      | positive => exact .infinity
    · simp [UnpackedFloat.compare] at h
    · exact .zero s
    · cases s with
      | negative => simp [UnpackedFloat.compare] at h
      | positive => exact .finite m e hm

theorem NonNegative.ne_notANumber {u : UnpackedFloat} (h : NonNegative u) : u ≠ .notANumber := by
  rintro rfl
  cases h

/-- A word with a positive sign is non-negative, unless it is not a number. -/
theorem nonNegative_packComponents {exponent : BitVec 11} {mantissa : BitVec 52}
    (h : exponent = -1#_ → mantissa = 0#_) :
    NonNegative (UnpackedFloat.unpack Format.binary64
      (packComponents Format.binary64 .positive exponent mantissa)) := by
  rw [unpack_packComponents]
  by_cases hones : exponent = -1#_
  · rw [if_pos hones, if_pos (h hones)]
    exact .infinity
  · rw [if_neg hones]
    split
    · split
      · exact .zero _
      · exact .finite _ _ _
    · exact .finite _ _ _

/-- Packing may lose digits of a number or leave the range, but it keeps the sign. -/
theorem nonNegative_pack {u : UnpackedFloat} (h : NonNegative u) : NonNegative (pack u).unpack := by
  cases h with
  | zero sign => cases sign <;> exact .zero _
  | infinity => exact nonNegative_packComponents fun _ => rfl
  | finite m e hm =>
      show NonNegative (UnpackedFloat.unpack _ (UnpackedFloat.pack _ _))
      simp only [UnpackedFloat.pack]
      split
      · -- Too large for the format, so infinite.
        exact nonNegative_packComponents fun _ => rfl
      · rename_i hrange
        split
        · refine nonNegative_packComponents fun hones => absurd ?_ hrange
          have hvalue : _ % 2 ^ 11 = 2047 :=
            (BitVec.toNat_ofNat _ _).symm.trans (congrArg BitVec.toNat hones)
          show 2 ^ 11 ≤ _
          omega
        · exact nonNegative_packComponents fun hones => absurd hones (by decide)

theorem nonNegative_roundWithAccuracy (spec : Format) (m : Nat) (e : Int) (accuracy : Accuracy) :
    NonNegative (roundWithAccuracy spec .positive m e accuracy) := by
  unfold roundWithAccuracy
  dsimp only
  split
  · exact .zero _
  · exact .finite _ _ _

theorem nonNegative_normalize (spec : Format) {m : Int} (hm : 0 < m) (e : Int) (zeroSign : Sign) :
    NonNegative (UnpackedFloat.normalize spec m e zeroSign) := by
  have hcompare : compare m 0 = .gt := Int.compare_eq_gt.mpr hm
  rw [UnpackedFloat.normalize, hcompare]
  exact nonNegative_roundWithAccuracy ..

theorem nonNegative_add {u v : UnpackedFloat} (hu : NonNegative u) (hv : NonNegative v) :
    NonNegative (UnpackedFloat.add Format.binary64 u v) := by
  cases hu with
  | zero sign =>
      cases hv with
      | zero sign' => cases sign <;> cases sign' <;> exact .zero _
      | infinity => exact .infinity
      | finite m' e' hm' => exact .finite m' e' hm'
  | infinity => cases hv <;> exact .infinity
  | finite m e hm =>
      cases hv with
      | zero sign' => exact .finite m e hm
      | infinity => exact .infinity
      | finite m' e' hm' =>
          -- Both significands are shifted to the smaller exponent, where the sum is exact.
          apply nonNegative_normalize
          show 0 < ((m <<< (e - min e e').toNat : Nat) : Int) + (m' <<< (e' - min e e').toNat : Nat)
          have hshift : 0 < m <<< (e - min e e').toNat := by
            rw [Nat.shiftLeft_eq]
            exact Nat.mul_pos hm (Nat.two_pow_pos _)
          exact Int.add_pos_of_pos_of_nonneg (Int.natCast_pos.mpr hshift) (Int.natCast_nonneg _)

theorem nonNegative_div {u : UnpackedFloat} (hu : NonNegative u) {m : Nat} {e : Int} (hm : 0 < m) :
    NonNegative (UnpackedFloat.div Format.binary64 u (.finite .positive m e hm)) := by
  cases hu with
  | zero sign => exact .zero _
  | infinity => exact .infinity
  | finite m' e' hm' => exact nonNegative_roundWithAccuracy ..

/-! ## Sums -/

theorem isNaN_of_nonneg {x : Float} (h : 0 ≤ x) : x.isNaN = false :=
  (isNaN_eq_false_iff x).mpr ((nonNegative_iff x).mpr h).ne_notANumber

theorem nonneg_add {x y : Float} (hx : 0 ≤ x) (hy : 0 ≤ y) : 0 ≤ x + y := by
  rw [← nonNegative_iff] at hx hy ⊢
  exact nonNegative_pack (nonNegative_add hx hy)

theorem nonneg_sum {xs : List Float} (h : ∀ x ∈ xs, 0 ≤ x) : 0 ≤ Scalar.sum xs := by
  -- The induction carries any non-negative total; the sum starts at negative zero, which is one.
  have hfold (total : Float) (htotal : 0 ≤ total) : 0 ≤ xs.foldl (· + ·) total := by
    induction xs generalizing total with
    | nil => exact htotal
    | cons x rest ih =>
        apply ih
        · intro y hy
          exact h y (List.mem_cons_of_mem x hy)
        · exact nonneg_add htotal (h x List.mem_cons_self)
  exact hfold (-0) (by decide)

end Doubles
end Backtester
