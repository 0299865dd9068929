import Backtester.Proofs.ExactIndicators
import Backtester.Proofs.WarmUp

/-!
# The ranges of indicators

In exact arithmetic, an indicator holds real numbers from the end of its warm-up on, and they keep
to their ranges: averages to the closes they are made of, a relative strength to the interval from
zero to one hundred, and the lines of a band to their order.

* `closesOn`, `BetweenExtremes`, `RisesOn`, `FallsOn` — what the ranges are said of.
* `Indicator.KeepsRange`, `Indicator.AtRest` — the ranges of each kind, and what is left of them
  where all closes are the same.
* `windowMean_between`, `exponentialAverage_between`, `relativeStrength_between` — the ranges of the
  series.
* `Indicator.warmAt_iff` — on which rows a kind is warmed up.
* `indicators_keep_ranges` — every kind holds numbers in its ranges from then on.
-/

namespace Backtester

open Exact

/-! ## Closes of some rows -/

/-- The closes from one row to another. -/
def closesOn (closes : List ℝ) (first last : ℕ) : Set ℝ :=
  {x | ∃ i, first ≤ i ∧ i ≤ last ∧ closes[i]? = some x}

/-- A value lies between the least and the greatest of some values. -/
def BetweenExtremes (values : Set ℝ) (x : ℝ) : Prop :=
  ∃ low high, IsLeast values low ∧ IsGreatest values high ∧ low ≤ x ∧ x ≤ high

/-- From one row to another, some close stands in a relation to the close after it. -/
def MovesOn (relation : ℝ → ℝ → Prop) (closes : List ℝ) (first last : ℕ) : Prop :=
  ∃ i previous next, first ≤ i ∧ i < last ∧ closes[i]? = some previous ∧
    closes[i + 1]? = some next ∧ relation previous next

/-- From one row to another, some close is higher than the close before it. -/
def RisesOn : List ℝ → ℕ → ℕ → Prop := MovesOn fun previous next => previous < next

/-- From one row to another, some close is lower than the close before it. -/
def FallsOn : List ℝ → ℕ → ℕ → Prop := MovesOn fun previous next => next < previous

/-! ## What an indicator holds -/

namespace Indicator

/-- The values of an indicator's columns on a row of some closes. -/
noncomputable def valuesAt (kind : Indicator) (closes : List ℝ) (row : ℕ) : List (Option Exact) :=
  (kind.outputs (closes.map number)).map fun values => values[row]?

/-- The warm-up of each of an indicator's columns is over. -/
def WarmAt (kind : Indicator) (row : ℕ) : Prop := ∀ name ∈ kind.columnNames, kind.warmUp name ≤ row

/-- The ranges of an indicator's columns on a row of some closes. -/
def KeepsRange (closes : List ℝ) (row : ℕ) : Indicator → List ℝ → Prop
  | sma period, [average] => BetweenExtremes (closesOn closes (row + 1 - period) row) average
  | ema _, [average] => BetweenExtremes (closesOn closes 0 row) average
  | rsi period, [strength] =>
      0 ≤ strength ∧ strength ≤ 100 ∧
      (strength = 100 ↔ ¬FallsOn closes (row - period) row) ∧
      (strength = 0 ↔ FallsOn closes (row - period) row ∧ ¬RisesOn closes (row - period) row)
  | macd _ _ _, [line, average, histogram] => histogram = line - average
  | bollinger _ _, [upper, middle, lower] => lower ≤ middle ∧ middle ≤ upper
  | unknown _ _, [close] => closes[row]? = some close
  | _, _ => False

/-- What an indicator's columns hold where all closes are the same. -/
def AtRest (closes : List ℝ) (row : ℕ) (c : ℝ) : Indicator → List ℝ → Prop
  | sma _, [average] => average = c
  | ema _, [average] => average = c
  | rsi _, [strength] => strength = 100
  | macd _ _ _, [line, average, histogram] => line = 0 ∧ average = 0 ∧ histogram = 0
  | bollinger period _, [upper, middle, lower] =>
      (standardDeviation (closes.map number) period)[row]? = some (number 0) ∧
      upper = c ∧ middle = c ∧ lower = c
  | unknown _ _, [close] => close = c
  | _, _ => False

/-- On a row of some closes an indicator holds real numbers that keep to its ranges. -/
def HoldsRange (kind : Indicator) (closes : List ℝ) (row : ℕ) : Prop :=
  ∃ xs : List ℝ, kind.valuesAt closes row = xs.map (fun x => some (number x)) ∧
    kind.KeepsRange closes row xs ∧ ∀ c, (∀ x ∈ closes, x = c) → kind.AtRest closes row c xs

end Indicator

/-! ## Lists -/

theorem mem_slice_iff {α : Type} {xs : List α} {first count : ℕ} {x : α} :
    x ∈ (xs.drop first).take count ↔ ∃ i, first ≤ i ∧ i < first + count ∧ xs[i]? = some x := by
  constructor
  · intro hx
    obtain ⟨k, hk⟩ := List.mem_iff_getElem?.mp hx
    rw [List.getElem?_take] at hk
    split at hk
    · next hlt =>
        rw [List.getElem?_drop] at hk
        exact ⟨first + k, by omega, by omega, hk⟩
    · cases hk
  · rintro ⟨i, hfirst, hlast, hi⟩
    refine List.mem_iff_getElem?.mpr ⟨i - first, ?_⟩
    rw [List.getElem?_take, if_pos (by omega), List.getElem?_drop, Nat.add_sub_cancel' hfirst, hi]

theorem sum_eq_zero_iff_of_nonneg {xs : List ℝ} (h : ∀ x ∈ xs, 0 ≤ x) :
    xs.sum = 0 ↔ ∀ x ∈ xs, x = 0 :=
  ⟨fun hsum _ hx => List.all_zero_of_le_zero_le_of_sum_eq_zero h hsum hx, List.sum_eq_zero⟩

/-- What lies between any bounds of some values lies between the least and the greatest of them. -/
theorem betweenExtremes_of_bounds {xs : List ℝ} (hne : xs ≠ []) {a : ℝ}
    (h : ∀ low high, (∀ x ∈ xs, low ≤ x ∧ x ≤ high) → low ≤ a ∧ a ≤ high) :
    BetweenExtremes {x | x ∈ xs} a := by
  have hfinite := List.finite_toSet xs
  have hsome : {x | x ∈ xs}.Nonempty := List.exists_mem_of_ne_nil xs hne
  obtain ⟨low, hlow, hleast⟩ := Set.exists_min_image _ id hfinite hsome
  obtain ⟨high, hhigh, hgreatest⟩ := Set.exists_max_image _ id hfinite hsome
  exact ⟨low, high, ⟨hlow, hleast⟩, ⟨hhigh, hgreatest⟩,
    h low high fun x hx => ⟨hleast x hx, hgreatest x hx⟩⟩

theorem BetweenExtremes.eq_of_forall_eq {values : Set ℝ} {x c : ℝ} (h : BetweenExtremes values x)
    (hconstant : ∀ y ∈ values, y = c) : x = c := by
  obtain ⟨low, high, hleast, hgreatest, hlow, hhigh⟩ := h
  rw [hconstant low hleast.1] at hlow
  rw [hconstant high hgreatest.1] at hhigh
  exact le_antisymm hhigh hlow

/-- What lies between any bounds of equal values equals them. -/
theorem eq_of_between_bounds {xs ys : List ℝ} {c : ℝ} (hxs : ∀ x ∈ xs, x = c)
    (h : ∀ low high, (∀ x ∈ xs, low ≤ x ∧ x ≤ high) → ∀ y ∈ ys, low ≤ y ∧ y ≤ high) :
    ∀ y ∈ ys, y = c := by
  intro y hy
  obtain ⟨hlow, hhigh⟩ := h c c (fun x hx => ⟨(hxs x hx).ge, (hxs x hx).le⟩) y hy
  exact le_antisymm hhigh hlow

section

variable {closes : List ℝ} {period row : ℕ}

theorem closesOn_constant {first last : ℕ} {c : ℝ} (hconstant : ∀ x ∈ closes, x = c) :
    ∀ x ∈ closesOn closes first last, x = c := by
  rintro x ⟨i, -, -, hi⟩
  exact hconstant x (List.mem_of_getElem? hi)

theorem setOf_mem_slice {first count : ℕ} (hlast : first + count = row + 1) :
    {x | x ∈ (closes.drop first).take count} = closesOn closes first row := by
  ext x
  rw [Set.mem_ofPred_eq, mem_slice_iff]
  exact exists_congr fun i => by rw [hlast, Nat.lt_succ_iff]

/-- The mean of a window lies between its least and its greatest close. -/
theorem windowMean_between (hperiod : period ≠ 0) (hfull : period ≤ row + 1)
    (hrow : row < closes.length) :
    BetweenExtremes (closesOn closes (row + 1 - period) row) (windowMean closes period row) := by
  have hlength := length_window hfull hrow
  have hne : window closes period row ≠ [] := by
    rw [← List.length_pos_iff, hlength]
    exact Nat.pos_of_ne_zero hperiod
  rw [← setOf_mem_slice (Nat.sub_add_cancel hfull)]
  refine betweenExtremes_of_bounds hne fun low high hbounds => ?_
  have hmean := mean_between hne hbounds
  rwa [hlength] at hmean

/-- An exponential average lies between the least and the greatest close so far. -/
theorem exponentialAverage_between (hperiod : period ≠ 0) (hrow : row < closes.length) :
    ∃ average, (exponentialAverage (closes.map number) period)[row]? = some (number average) ∧
      BetweenExtremes (closesOn closes 0 row) average := by
  -- The value of the row is the last one of the average over the closes up to it.
  obtain ⟨ys, hys, hlength, hbetween⟩ := exponentialAverage_number hperiod (closes.take (row + 1))
  rw [List.length_take, Nat.min_eq_left hrow] at hlength
  have hlast : row < ys.length := by omega
  rw [List.map_take, exponentialAverage_take] at hys
  refine ⟨ys[row], ?_, ?_⟩
  · rw [← List.getElem?_take_of_lt (Nat.lt_succ_self row), hys, List.getElem?_map,
      List.getElem?_eq_getElem hlast]
    rfl
  · have hne : closes.take (row + 1) ≠ [] := by
      rw [← List.length_pos_iff, List.length_take]
      omega
    rw [← setOf_mem_slice (Nat.zero_add (row + 1)), List.drop_zero]
    exact betweenExtremes_of_bounds hne fun low high hbounds =>
      hbetween low high hbounds _ (List.getElem_mem hlast)

/-- The last changes are those between the rows. -/
theorem mem_lastChanges_iff (hfull : period ≤ row) {change : ℝ} :
    change ∈ lastChanges closes period row ↔
      MovesOn (fun previous next => next - previous = change) closes (row - period) row := by
  rw [lastChanges, mem_slice_iff, Nat.sub_add_cancel hfull]
  simp only [closeChanges, List.getElem?_zipWith_eq_some, List.getElem?_tail]
  constructor
  · rintro ⟨i, hfirst, hlast, previous, next, hprevious, hnext, hchange⟩
    exact ⟨i, previous, next, hfirst, hlast, hprevious, hnext, hchange⟩
  · rintro ⟨i, previous, next, hfirst, hlast, hprevious, hnext, hchange⟩
    exact ⟨i, hfirst, hlast, previous, next, hprevious, hnext, hchange⟩

/-- The mean of a part of the changes is zero if none of them has that part. -/
theorem mean_changes_eq_zero_iff (hperiod : period ≠ 0) (hfull : period ≤ row) {part : ℝ → ℝ}
    (hnonneg : ∀ change, 0 ≤ part change) {relation : ℝ → ℝ → Prop}
    (hpart : ∀ previous next, part (next - previous) = 0 ↔ ¬relation previous next) :
    ((lastChanges closes period row).map part).sum / period = 0 ↔
      ¬MovesOn relation closes (row - period) row := by
  rw [div_eq_zero_iff, or_iff_left (Nat.cast_ne_zero.mpr hperiod), sum_eq_zero_iff_of_nonneg]
  · constructor
    · rintro hzero ⟨i, previous, next, hfirst, hlast, hprevious, hnext, hrelation⟩
      have hmem := (mem_lastChanges_iff hfull).mpr
        ⟨i, previous, next, hfirst, hlast, hprevious, hnext, rfl⟩
      exact (hpart previous next).mp (hzero _ (List.mem_map_of_mem hmem)) hrelation
    · intro hnone value hvalue
      obtain ⟨change, hchange, rfl⟩ := List.mem_map.mp hvalue
      obtain ⟨i, previous, next, hfirst, hlast, hprevious, hnext, rfl⟩ :=
        (mem_lastChanges_iff hfull).mp hchange
      exact (hpart previous next).mpr fun hrelation =>
        hnone ⟨i, previous, next, hfirst, hlast, hprevious, hnext, hrelation⟩
  · intro value hvalue
    obtain ⟨change, -, rfl⟩ := List.mem_map.mp hvalue
    exact hnonneg change

theorem meanRise_eq_zero_iff (hperiod : period ≠ 0) (hfull : period ≤ row) :
    meanRise closes period row = 0 ↔ ¬RisesOn closes (row - period) row :=
  mean_changes_eq_zero_iff hperiod hfull (fun _ => le_max_right _ _) fun previous next => by
    rw [max_eq_right_iff, sub_nonpos, not_lt]

theorem meanFall_eq_zero_iff (hperiod : period ≠ 0) (hfull : period ≤ row) :
    meanFall closes period row = 0 ↔ ¬FallsOn closes (row - period) row :=
  mean_changes_eq_zero_iff hperiod hfull (fun _ => le_max_right _ _) fun previous next => by
    rw [max_eq_right_iff, neg_sub, sub_nonpos, not_lt]

theorem mean_changes_nonneg {part : ℝ → ℝ} (hnonneg : ∀ change, 0 ≤ part change) :
    0 ≤ ((lastChanges closes period row).map part).sum / period := by
  refine div_nonneg (List.sum_nonneg fun value hvalue => ?_) (Nat.cast_nonneg _)
  obtain ⟨change, -, rfl⟩ := List.mem_map.mp hvalue
  exact hnonneg change

/-- A relative strength is one hundred where no close of its window falls, and zero where some fall
and none rise. -/
theorem relativeStrength_between (hperiod : period ≠ 0) (hfull : period ≤ row)
    (hrow : row < closes.length) :
    ∃ strength, (relativeStrength (closes.map number) period)[row]? = some (number strength) ∧
      0 ≤ strength ∧ strength ≤ 100 ∧
      (strength = 100 ↔ ¬FallsOn closes (row - period) row) ∧
      (strength = 0 ↔ FallsOn closes (row - period) row ∧ ¬RisesOn closes (row - period) row) := by
  have hrise : 0 ≤ meanRise closes period row := mean_changes_nonneg fun _ => le_max_right _ _
  have hfall : 0 ≤ meanFall closes period row := mean_changes_nonneg fun _ => le_max_right _ _
  obtain ⟨strength, hstrength, hlow, hhigh, hmost, hleast⟩ := strengthIndex_number hrise hfall
  rw [meanFall_eq_zero_iff hperiod hfull] at hmost
  rw [Ne, meanFall_eq_zero_iff hperiod hfull, not_not, meanRise_eq_zero_iff hperiod hfull] at hleast
  refine ⟨strength, ?_, hlow, hhigh, hmost, hleast⟩
  rw [getElem?_relativeStrength_number hrow, if_neg (by omega), hstrength]

end

/-! ## Warm rows -/

section

variable {closes : List ℝ} {period row : ℕ}

theorem ite_top_le_iff {P : Prop} [Decidable P] {n row : ℕ} :
    ((if P then ⊤ else (n : ℕ∞)) ≤ row) ↔ ¬P ∧ n ≤ row := by
  split
  · next hP => exact iff_of_false (by simp) fun h => h.1 hP
  · next hP => rw [Nat.cast_le, and_iff_right hP]

/-- On which rows an indicator is warmed up. -/
theorem Indicator.warmAt_iff (kind : Indicator) (row : ℕ) :
    kind.WarmAt row ↔
      match kind with
      | sma period => ¬(period = 0 ∨ row + 1 < period)
      | ema period => period ≠ 0
      | rsi period => ¬(period = 0 ∨ row < period)
      | macd fast slow signal => ¬(fast = 0 ∨ slow = 0 ∨ signal = 0)
      | bollinger period _ => ¬(period < 2 ∨ row + 1 < period)
      | unknown _ _ => True := by
  have hnone {P : Prop} [Decidable P] : ((if P then ⊤ else (0 : ℕ∞)) ≤ row) ↔ ¬P := by
    rw [← Nat.cast_zero, ite_top_le_iff, and_iff_left (Nat.zero_le row)]
  cases kind with
  | sma period =>
      rw [WarmAt, columnNames, List.forall_mem_singleton, warmUp, ite_top_le_iff]
      omega
  | ema period => rw [WarmAt, columnNames, List.forall_mem_singleton, warmUp, hnone]
  | rsi period =>
      rw [WarmAt, columnNames, List.forall_mem_singleton, warmUp, ite_top_le_iff]
      omega
  | macd fast slow signal => simp only [WarmAt, columnNames, warmUp, hnone]; simp
  | bollinger period hundredths =>
      simp only [WarmAt, columnNames, List.forall_mem_cons, warmUp, ite_top_le_iff]
      simp
      omega
  | unknown name period => cases period <;> simp [WarmAt, columnNames, warmUp]

/-! ## The kinds one by one -/

namespace Indicator

theorem holdsRange_sma (hperiod : period ≠ 0) (hfull : period ≤ row + 1)
    (hrow : row < closes.length) : (sma period).HoldsRange closes row := by
  have hbetween := windowMean_between hperiod hfull hrow
  refine ⟨[windowMean closes period row], ?_, hbetween, fun c hconstant =>
    hbetween.eq_of_forall_eq (closesOn_constant hconstant)⟩
  simp only [valuesAt, outputs, List.map_cons, List.map_nil]
  rw [getElem?_simpleAverage_number hrow, if_neg (by omega)]

theorem holdsRange_ema (hperiod : period ≠ 0) (hrow : row < closes.length) :
    (ema period).HoldsRange closes row := by
  obtain ⟨average, haverage, hbetween⟩ := exponentialAverage_between hperiod hrow
  refine ⟨[average], ?_, hbetween, fun c hconstant =>
    hbetween.eq_of_forall_eq (closesOn_constant hconstant)⟩
  simp only [valuesAt, outputs, List.map_cons, List.map_nil, haverage]

theorem holdsRange_rsi (hperiod : period ≠ 0) (hfull : period ≤ row)
    (hrow : row < closes.length) : (rsi period).HoldsRange closes row := by
  obtain ⟨strength, hstrength, hrange⟩ := relativeStrength_between hperiod hfull hrow
  refine ⟨[strength], ?_, hrange, fun c hconstant => hrange.2.2.1.mpr ?_⟩
  · simp only [valuesAt, outputs, List.map_cons, List.map_nil, hstrength]
  · rintro ⟨i, previous, next, -, -, hprevious, hnext, hfall⟩
    rw [hconstant previous (List.mem_of_getElem? hprevious),
      hconstant next (List.mem_of_getElem? hnext)] at hfall
    exact lt_irrefl c hfall

theorem holdsRange_macd {fast slow signal : ℕ} (hfast : fast ≠ 0) (hslow : slow ≠ 0)
    (hsignal : signal ≠ 0) (hrow : row < closes.length) :
    (macd fast slow signal).HoldsRange closes row := by
  obtain ⟨quick, hquick, hquickLength, hquickBetween⟩ := exponentialAverage_number hfast closes
  obtain ⟨calm, hcalm, hcalmLength, hcalmBetween⟩ := exponentialAverage_number hslow closes
  obtain ⟨average, haverage, haverageLength, haverageBetween⟩ :=
    exponentialAverage_number hsignal (List.zipWith (· - ·) quick calm)
  rw [List.length_zipWith] at haverageLength
  have hrowQuick : row < quick.length := by omega
  have hrowCalm : row < calm.length := by omega
  have hrowAverage : row < average.length := by omega
  have houtputs : (macd fast slow signal).outputs (closes.map number) =
      [(List.zipWith (· - ·) quick calm).map number, average.map number,
        (List.zipWith (· - ·) (List.zipWith (· - ·) quick calm) average).map number] := by
    rw [outputs, macdOutputs, if_neg (by omega)]
    dsimp only
    rw [hquick, hcalm, zipWith_sub_number, haverage, zipWith_sub_number]
  refine ⟨[quick[row] - calm[row], average[row], quick[row] - calm[row] - average[row]], ?_, rfl,
    fun c hconstant => ?_⟩
  · simp [valuesAt, houtputs, hrowQuick, hrowCalm, hrowAverage]
  · -- Two averages of equal closes are equal, so their differences are all zero.
    have hquickSame := eq_of_between_bounds hconstant hquickBetween
    have hcalmSame := eq_of_between_bounds hconstant hcalmBetween
    have hline : ∀ x ∈ List.zipWith (· - ·) quick calm, x = 0 := by
      intro x hx
      obtain ⟨k, hk⟩ := List.mem_iff_getElem?.mp hx
      obtain ⟨a, b, ha, hb, rfl⟩ := List.getElem?_zipWith_eq_some.mp hk
      rw [hquickSame a (List.mem_of_getElem? ha), hcalmSame b (List.mem_of_getElem? hb), sub_self]
    have hsame : quick[row] - calm[row] = 0 := by
      rw [hquickSame _ (List.getElem_mem hrowQuick), hcalmSame _ (List.getElem_mem hrowCalm),
        sub_self]
    have hzero : average[row] = 0 :=
      eq_of_between_bounds hline haverageBetween _ (List.getElem_mem hrowAverage)
    exact ⟨hsame, hzero, by rw [hsame, hzero, sub_zero]⟩

theorem bandWidth_number (hundredths : ℕ) :
    (bandWidth hundredths : Exact) = number (hundredths / 100) := by
  rw [bandWidth, ofNat_eq_number, numeral_eq_number 100, Nat.cast_ofNat,
    number_div _ (by norm_num)]

theorem holdsRange_bollinger (hperiod : 2 ≤ period) (hfull : period ≤ row + 1)
    (hrow : row < closes.length) (hundredths : ℕ) :
    (bollinger period hundredths).HoldsRange closes row := by
  have hmean : (simpleAverage (closes.map number) period)[row]? = _ :=
    getElem?_simpleAverage_number hrow
  have hdeviation : (standardDeviation (closes.map number) period)[row]? = _ :=
    getElem?_standardDeviation_number hrow
  rw [if_neg (by omega)] at hmean hdeviation
  have hwidth : (0 : ℝ) ≤ hundredths / 100 := by positivity
  have hspread := Real.sqrt_nonneg (windowSquares closes period row / (period - 1 : ℕ))
  have hband := mul_nonneg hwidth hspread
  refine ⟨[windowMean closes period row +
      hundredths / 100 * √(windowSquares closes period row / (period - 1 : ℕ)),
    windowMean closes period row, windowMean closes period row -
      hundredths / 100 * √(windowSquares closes period row / (period - 1 : ℕ))], ?_,
    ⟨by linarith, by linarith⟩, fun c hconstant => ?_⟩
  · simp only [valuesAt, outputs, bollingerOutputs, bandWidth_number, List.map_cons, List.map_nil,
      List.getElem?_zipWith, hmean, hdeviation, number_mul, number_add, number_sub]
  · have hmiddle : windowMean closes period row = c :=
      (windowMean_between (by omega) hfull hrow).eq_of_forall_eq (closesOn_constant hconstant)
    have hsquares : windowSquares closes period row = 0 := by
      refine List.sum_eq_zero fun square hsquare => ?_
      obtain ⟨x, hx, rfl⟩ := List.mem_map.mp hsquare
      rw [hconstant x (List.mem_of_mem_drop (List.mem_of_mem_take hx)), hmiddle, sub_self, mul_zero]
    simp only [AtRest]
    rw [hdeviation, hsquares, hmiddle, zero_div, Real.sqrt_zero, mul_zero, add_zero, sub_zero]
    exact ⟨rfl, rfl, rfl, rfl⟩

/-- Before the warm-up of its columns is over, some value of an indicator is no number. -/
theorem nan_mem_valuesAt {kind : Indicator} (hcold : ¬kind.WarmAt row)
    (hrow : row < closes.length) : some nan ∈ kind.valuesAt closes row := by
  have hundefined : (undefinedSeries (closes.map number))[row]? = some nan :=
    getElem?_undefinedSeries (by rwa [List.length_map])
  rw [warmAt_iff] at hcold
  cases kind with
  | sma period =>
      simp only [valuesAt, outputs, List.map_cons, getElem?_simpleAverage_number hrow,
        if_pos (not_not.mp hcold)]
      exact List.mem_cons_self
  | ema period =>
      simp only [valuesAt, outputs, List.map_cons]
      rw [exponentialAverage.eq_def, if_pos (not_not.mp hcold), hundefined]
      exact List.mem_cons_self
  | rsi period =>
      simp only [valuesAt, outputs, List.map_cons, getElem?_relativeStrength_number hrow,
        if_pos (not_not.mp hcold)]
      exact List.mem_cons_self
  | macd fast slow signal =>
      simp only [valuesAt, outputs, macdOutputs, if_pos (not_not.mp hcold), List.map_cons,
        hundefined]
      exact List.mem_cons_self
  | bollinger period hundredths =>
      have hnan (x : Exact) (width : ℝ) : x + number width * nan = nan := by cases x <;> rfl
      simp only [valuesAt, outputs, bollingerOutputs, bandWidth_number, List.map_cons,
        List.getElem?_zipWith, getElem?_simpleAverage_number hrow,
        getElem?_standardDeviation_number hrow, if_pos (not_not.mp hcold), hnan]
      exact List.mem_cons_self
  | unknown name period => exact absurd trivial hcold

end Indicator

/-- In exact arithmetic, over any closes, an indicator with any parameters holds real numbers that
keep to its ranges on every row on which it is warmed up; on any other row some of its values is no
number. -/
theorem indicators_keep_ranges (closes : List ℝ) (kind : Indicator) {row : ℕ}
    (hrow : row < closes.length) :
    (kind.WarmAt row → kind.HoldsRange closes row) ∧
    (¬kind.WarmAt row → some nan ∈ kind.valuesAt closes row) := by
  refine ⟨fun hwarm => ?_, fun hcold => Indicator.nan_mem_valuesAt hcold hrow⟩
  rw [Indicator.warmAt_iff] at hwarm
  cases kind with
  | sma period => exact Indicator.holdsRange_sma (by omega) (by omega) hrow
  | ema period => exact Indicator.holdsRange_ema hwarm hrow
  | rsi period => exact Indicator.holdsRange_rsi (by omega) (by omega) hrow
  | macd fast slow signal => exact Indicator.holdsRange_macd (by omega) (by omega) (by omega) hrow
  | bollinger period hundredths =>
      exact Indicator.holdsRange_bollinger (by omega) (by omega) hrow hundredths
  | unknown name period =>
      refine ⟨[closes[row]], ?_, List.getElem?_eq_getElem hrow, fun c hconstant =>
        hconstant _ (List.getElem_mem hrow)⟩
      simp [Indicator.valuesAt, Indicator.outputs, hrow]

/-- Three closes that rise and fall: the relative strength over two changes is warmed up on the last
one, and a band over a single row never is. -/
theorem indicators_keep_ranges_three :
    let closes : List ℝ := [1, 3, 2]
    2 < closes.length ∧ (Indicator.rsi 2).WarmAt 2 ∧ (Indicator.rsi 2).HoldsRange closes 2 ∧
    ¬(Indicator.bollinger 1 200).WarmAt 2 ∧
    some nan ∈ (Indicator.bollinger 1 200).valuesAt closes 2 := by
  intro closes
  have hrow : 2 < closes.length := by decide
  have hwarm : (Indicator.rsi 2).WarmAt 2 := (Indicator.warmAt_iff _ _).mpr (by decide)
  have hcold : ¬(Indicator.bollinger 1 200).WarmAt 2 :=
    mt (Indicator.warmAt_iff _ _).mp (by decide)
  exact ⟨hrow, hwarm, (indicators_keep_ranges closes _ hrow).1 hwarm, hcold,
    (indicators_keep_ranges closes _ hrow).2 hcold⟩

end

end Backtester
