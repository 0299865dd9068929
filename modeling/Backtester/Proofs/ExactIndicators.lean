import Backtester.Proofs.FrameShape
import Backtester.Proofs.Past
import Backtester.Proofs.Scaling

/-!
# Indicators in exact arithmetic

Over closes that are real numbers, the value of a series on a row is either undefined, by the period
and the row alone, or a real number with a closed form.

* `windowMean`, `windowSquares` — the mean of a window, and the squared distances from it.
* `getElem?_simpleAverage_number`, `getElem?_standardDeviation_number` — the series made of them.
* `exponentialAverage_number` — an exponential average keeps between any bounds of the closes.
* `lastChanges`, `meanRise`, `meanFall` — the changes up to a row, and the means of their parts.
* `getElem?_relativeStrength_number`, `strengthIndex_number` — the relative strength made of these.
-/

namespace Backtester

open Exact

theorem getElem?_undefinedSeries {α : Type} [Scalar α] {xs : List α} {row : ℕ}
    (hrow : row < xs.length) : (undefinedSeries xs)[row]? = some Scalar.nan := by
  rw [undefinedSeries, List.getElem?_replicate, if_pos hrow]

section

variable {closes : List ℝ} {period row : ℕ}

/-! ## Windows -/

/-- The mean of the closes of a window. -/
noncomputable def windowMean (closes : List ℝ) (period row : ℕ) : ℝ :=
  (window closes period row).sum / period

/-- The sum of the squared distances of the closes of a window from their mean. -/
noncomputable def windowSquares (closes : List ℝ) (period row : ℕ) : ℝ :=
  ((window closes period row).map fun x =>
    (x - windowMean closes period row) * (x - windowMean closes period row)).sum

theorem length_window {α : Type} {xs : List α} (hfull : period ≤ row + 1) (hrow : row < xs.length) :
    (window xs period row).length = period := by
  rw [window, List.length_take, List.length_drop]
  omega

theorem sum_window_number (hperiod : period ≠ 0) :
    Scalar.sum (window (closes.map number) period row) / Scalar.ofNat period =
      number (windowMean closes period row) := by
  rw [window_map, sum_number, ofNat_eq_number, number_div _ (Nat.cast_ne_zero.mpr hperiod)]
  rfl

theorem getElem?_simpleAverage_number (hrow : row < closes.length) :
    (simpleAverage (closes.map number) period)[row]? =
      some (if period = 0 ∨ row + 1 < period then nan
        else number (windowMean closes period row)) := by
  have hlength : row < (closes.map number).length := by rwa [List.length_map]
  unfold simpleAverage
  by_cases hzero : period = 0
  · rw [if_pos hzero, if_pos (Or.inl hzero), getElem?_undefinedSeries hlength]
    rfl
  · rw [if_neg hzero, List.getElem?_map, List.getElem?_range hlength, Option.map_some,
      sum_window_number hzero]
    simp only [hzero, false_or]
    rfl

theorem windowSquares_nonneg : 0 ≤ windowSquares closes period row := by
  refine List.sum_nonneg fun square hsquare => ?_
  obtain ⟨x, -, rfl⟩ := List.mem_map.mp hsquare
  exact mul_self_nonneg _

theorem windowDeviation_number (hperiod : 2 ≤ period) :
    windowDeviation (window (closes.map number) period row) period =
      number √(windowSquares closes period row / (period - 1 : ℕ)) := by
  have hcount : ((period - 1 : ℕ) : ℝ) ≠ 0 := Nat.cast_ne_zero.mpr (by omega)
  unfold windowDeviation
  dsimp only
  rw [sum_window_number (by omega), window_map, List.map_map]
  have hsquares : ((fun x : Exact => (x - number (windowMean closes period row)) *
      (x - number (windowMean closes period row))) ∘ number) =
      number ∘ fun x =>
        (x - windowMean closes period row) * (x - windowMean closes period row) := by
    funext x
    simp only [Function.comp_apply, number_sub, number_mul]
  rw [hsquares, ← List.map_map, sum_number, ofNat_eq_number, number_div _ hcount, sqrt_number]
  · rfl
  · exact div_nonneg windowSquares_nonneg (Nat.cast_nonneg _)

theorem getElem?_standardDeviation_number (hrow : row < closes.length) :
    (standardDeviation (closes.map number) period)[row]? =
      some (if period < 2 ∨ row + 1 < period then nan
        else number √(windowSquares closes period row / (period - 1 : ℕ))) := by
  have hlength : row < (closes.map number).length := by rwa [List.length_map]
  unfold standardDeviation
  by_cases hsmall : period < 2
  · rw [if_pos hsmall, if_pos (Or.inl hsmall), getElem?_undefinedSeries hlength]
    rfl
  · rw [if_neg hsmall, List.getElem?_map, List.getElem?_range hlength, Option.map_some,
      windowDeviation_number (not_lt.mp hsmall)]
    simp only [hsmall, false_or]
    rfl

/-! ## Exponential averages -/

/-- One step of an exponential average goes from the last value towards the next close. -/
theorem weighted_between {weight low high x last : ℝ} (hweight : 0 ≤ weight ∧ weight ≤ 1)
    (hx : low ≤ x ∧ x ≤ high) (hlast : low ≤ last ∧ last ≤ high) :
    low ≤ x * weight + last * (1 - weight) ∧ x * weight + last * (1 - weight) ≤ high := by
  constructor
  · nlinarith
  · nlinarith

/-- An exponential average is a series of real numbers between any bounds of the closes. -/
theorem averageFrom_number {weight : ℝ} (hweight : 0 ≤ weight ∧ weight ≤ 1) (last : ℝ)
    (xs : List ℝ) :
    ∃ ys : List ℝ, averageFrom (number weight) (number last) (xs.map number) = ys.map number ∧
      ∀ low high, (low ≤ last ∧ last ≤ high) → (∀ x ∈ xs, low ≤ x ∧ x ≤ high) →
        ∀ y ∈ ys, low ≤ y ∧ y ≤ high := by
  induction xs generalizing last with
  | nil => exact ⟨[], rfl, fun _ _ _ _ => List.forall_mem_nil _⟩
  | cons x rest ih =>
      obtain ⟨ys, hys, hbetween⟩ := ih (x * weight + last * (1 - weight))
      refine ⟨(x * weight + last * (1 - weight)) :: ys, ?_, fun low high hlast hxs => ?_⟩
      · rw [List.map_cons, averageFrom, numeral_eq_number 1, Nat.cast_one, number_sub, number_mul,
          number_mul, number_add, hys, List.map_cons]
      · obtain ⟨hx, hrest⟩ := List.forall_mem_cons.mp hxs
        have hnext := weighted_between hweight hx hlast
        exact List.forall_mem_cons.mpr ⟨hnext, hbetween low high hnext hrest⟩

theorem exponentialAverage_number (hperiod : period ≠ 0) (closes : List ℝ) :
    ∃ ys : List ℝ, exponentialAverage (closes.map number) period = ys.map number ∧
      ys.length = closes.length ∧
      ∀ low high, (∀ x ∈ closes, low ≤ x ∧ x ≤ high) → ∀ y ∈ ys, low ≤ y ∧ y ≤ high := by
  have hone : (1 : ℝ) ≤ period := Nat.one_le_cast.mpr (Nat.pos_of_ne_zero hperiod)
  have hweight : 2 / (Scalar.ofNat period + 1) = number (2 / (period + 1)) := by
    rw [ofNat_eq_number, numeral_eq_number 1, numeral_eq_number 2, number_add, Nat.cast_one,
      Nat.cast_ofNat, number_div _ (by positivity)]
  have hbounds : (0 : ℝ) ≤ 2 / (period + 1) ∧ (2 : ℝ) / (period + 1) ≤ 1 :=
    ⟨by positivity, (div_le_one (by positivity)).mpr (by linarith)⟩
  suffices hseries : ∃ ys : List ℝ, exponentialAverage (closes.map number) period = ys.map number ∧
      ∀ low high, (∀ x ∈ closes, low ≤ x ∧ x ≤ high) → ∀ y ∈ ys, low ≤ y ∧ y ≤ high by
    obtain ⟨ys, hys, hbetween⟩ := hseries
    have hlength := congrArg List.length hys
    rw [length_exponentialAverage, List.length_map, List.length_map] at hlength
    exact ⟨ys, hys, hlength.symm, hbetween⟩
  cases closes with
  | nil => exact ⟨[], by simp [exponentialAverage, hperiod], fun _ _ _ => List.forall_mem_nil _⟩
  | cons first rest =>
      obtain ⟨ys, hys, hbetween⟩ := averageFrom_number hbounds first rest
      refine ⟨first :: ys, ?_, fun low high hcloses => ?_⟩
      · simp only [exponentialAverage, if_neg hperiod, List.map_cons, hweight, hys]
      · obtain ⟨hfirst, hrest⟩ := List.forall_mem_cons.mp hcloses
        exact List.forall_mem_cons.mpr ⟨hfirst, hbetween low high hfirst hrest⟩

theorem zipWith_sub_number (xs ys : List ℝ) :
    List.zipWith (· - ·) (xs.map number) (ys.map number) =
      (List.zipWith (· - ·) xs ys).map number := by
  rw [List.zipWith_map, List.map_zipWith]
  simp only [number_sub]

/-! ## Relative strength -/

/-- The changes of the closes from each row to the next. -/
def closeChanges (closes : List ℝ) : List ℝ :=
  List.zipWith (fun previous x => x - previous) closes closes.tail

/-- The last changes up to a row. -/
def lastChanges (closes : List ℝ) (period row : ℕ) : List ℝ :=
  ((closeChanges closes).drop (row - period)).take period

theorem changes_number : changes (closes.map number) = (closeChanges closes).map number := by
  rw [changes, closeChanges, ← List.map_tail, List.zipWith_map, List.map_zipWith]
  simp only [number_sub]

theorem rise_number (change : ℝ) : rise (number change) = number (max change 0) := by
  rw [rise, max_comm, max_def_lt, apply_ite number, zero_eq_number]
  rfl

theorem fall_number (change : ℝ) : fall (number change) = number (max (-change) 0) := by
  rw [fall, max_comm, max_def_lt, apply_ite number, zero_eq_number]
  simp only [number_lt, Left.neg_pos_iff]
  rfl

theorem window_cons {α : Type} (x : α) (xs : List α) (hfull : period ≤ row) :
    window (x :: xs) period row = (xs.drop (row - period)).take period := by
  rw [window, show row + 1 - period = row - period + 1 by omega, List.drop_succ_cons]

/-- The mean over a window of one part of the changes. -/
theorem sum_window_changes {part : Exact → Exact} {f : ℝ → ℝ}
    (hpart : ∀ change, part (number change) = number (f change)) (hperiod : period ≠ 0)
    (hfull : period ≤ row) :
    Scalar.sum (window (0 :: (changes (closes.map number)).map part) period row) /
        Scalar.ofNat period =
      number (((lastChanges closes period row).map f).sum / period) := by
  have hparts : part ∘ number = number ∘ f := funext hpart
  rw [window_cons _ _ hfull, changes_number, List.map_map, hparts, ← List.map_map, ← List.map_drop,
    ← List.map_take, sum_number, ofNat_eq_number, number_div _ (Nat.cast_ne_zero.mpr hperiod),
    ← List.map_drop, ← List.map_take]
  rfl

/-- The mean rise over the last changes up to a row. -/
noncomputable def meanRise (closes : List ℝ) (period row : ℕ) : ℝ :=
  ((lastChanges closes period row).map (max · 0)).sum / period

/-- The mean fall over the last changes up to a row, as a magnitude. -/
noncomputable def meanFall (closes : List ℝ) (period row : ℕ) : ℝ :=
  ((lastChanges closes period row).map fun change => max (-change) 0).sum / period

theorem getElem?_relativeStrength_number (hrow : row < closes.length) :
    (relativeStrength (closes.map number) period)[row]? =
      some (if period = 0 ∨ row < period then nan
        else strengthIndex (number (meanRise closes period row))
          (number (meanFall closes period row))) := by
  have hlength : row < (closes.map number).length := by rwa [List.length_map]
  unfold relativeStrength
  by_cases hundefined : period = 0 ∨ (closes.map number).length ≤ period
  · rw [if_pos hundefined, getElem?_undefinedSeries hlength, if_pos (by omega)]
    rfl
  · rw [if_neg hundefined, List.getElem?_map, List.getElem?_range hlength, Option.map_some]
    obtain ⟨hperiod, -⟩ := not_or.mp hundefined
    by_cases hwarm : row < period
    · rw [if_pos hwarm, if_pos (Or.inr hwarm)]
      rfl
    · rw [if_neg hwarm, if_neg (not_or.mpr ⟨hperiod, hwarm⟩),
        sum_window_changes rise_number hperiod (not_lt.mp hwarm),
        sum_window_changes fall_number hperiod (not_lt.mp hwarm)]
      rfl

/-- A relative strength lies between zero and one hundred, and reaches them where nothing falls and
where nothing rises. -/
theorem strengthIndex_number {up down : ℝ} (hup : 0 ≤ up) (hdown : 0 ≤ down) :
    ∃ strength, strengthIndex (number up) (number down) = number strength ∧
      0 ≤ strength ∧ strength ≤ 100 ∧ (strength = 100 ↔ down = 0) ∧
      (strength = 0 ↔ down ≠ 0 ∧ up = 0) := by
  rw [strengthIndex, zero_eq_number, numeral_eq_number 100, numeral_eq_number 1, Nat.cast_ofNat,
    Nat.cast_one]
  by_cases hflat : down = 0
  · exact ⟨100, if_pos ((number_beq _ _).mpr hflat), by norm_num, le_rfl, by simp [hflat],
      by simp [hflat]⟩
  · have hpositive : 0 < down := lt_of_le_of_ne hdown (Ne.symm hflat)
    have hratio : 0 ≤ up / down := div_nonneg hup hdown
    have hshare : 100 / (1 + up / down) ≤ 100 := div_le_self (by norm_num) (by linarith)
    have hpart : 0 < 100 / (1 + up / down) := by positivity
    refine ⟨100 - 100 / (1 + up / down), ?_, by linarith, by linarith,
      iff_of_false (by linarith) hflat, ?_⟩
    · rw [if_neg (mt (number_beq _ _).mp hflat), number_div _ hflat, number_add,
        number_div _ (by linarith), number_sub]
    · rw [sub_eq_zero, eq_div_iff (by linarith)]
      constructor
      · intro h
        have hzero : up / down = 0 := by linarith
        exact ⟨hflat, (div_eq_zero_iff.mp hzero).resolve_right hflat⟩
      · rintro ⟨-, rfl⟩
        rw [zero_div, add_zero, mul_one]

end

end Backtester
