import Backtester.Run

/-!
# Rows read only the past

Every series that a run computes from its candles has one value per row, and the value at a row
depends on the candles up to that row only.  The precise form of this is a commutation: computing a
series and then keeping its first `k` values is the same as computing it from the first `k` candles.

* `Indicator.outputs_take` — the commutation for every kind of indicator, whatever its periods.
* `Frame.take` — a frame cut after a number of rows; `Frame.build_take` builds it from the cut
  candles.
* `Frame.allHold_take`, `Frame.readyRows_take` — the commutation for conditions and for readiness.
-/

namespace Backtester

/-! ## Windows -/

/-- A full window that ends before the cut is not changed by the cut. -/
theorem window_take {α : Type} {xs : List α} {size i k : Nat} (hfull : size ≤ i + 1)
    (hcut : i < k) : window (xs.take k) size i = window xs size i := by
  have hsize : min size (k - (i + 1 - size)) = size := by omega
  rw [window, window, List.drop_take, List.take_take, hsize]

/-- A series given row by row is cut by cutting its rows. -/
theorem map_range_take {β : Type} {f g : Nat → β} {n k : Nat}
    (hrow : ∀ i, i < k → g i = f i) :
    (List.range (min k n)).map g = ((List.range n).map f).take k := by
  rw [← List.map_take, List.take_range]
  apply List.map_congr_left
  intro i hi
  have hlt : i < min k n := List.mem_range.mp hi
  exact hrow i (by omega)

variable {α : Type} [Scalar α]

@[simp] theorem undefinedSeries_take (xs : List α) (k : Nat) :
    (undefinedSeries xs).take k = undefinedSeries (xs.take k) := by
  simp [undefinedSeries]

/-- A figure of each full window, with the rows before the first full window undefined. -/
theorem windowed_take (figure : List α → α) (xs : List α) (period k : Nat) :
    ((List.range (xs.take k).length).map fun i =>
        if i + 1 < period then Scalar.nan else figure (window (xs.take k) period i)) =
      ((List.range xs.length).map fun i =>
        if i + 1 < period then Scalar.nan else figure (window xs period i)).take k := by
  rw [List.length_take]
  apply map_range_take
  intro i hcut
  by_cases hwarm : i + 1 < period
  · rw [if_pos hwarm, if_pos hwarm]
  · rw [if_neg hwarm, if_neg hwarm, window_take (by omega) hcut]

theorem simpleAverage_take (xs : List α) (period k : Nat) :
    simpleAverage (xs.take k) period = (simpleAverage xs period).take k := by
  by_cases hzero : period = 0
  · simp [simpleAverage, hzero]
  · rw [simpleAverage, simpleAverage, if_neg hzero, if_neg hzero]
    exact windowed_take (fun values => Scalar.sum values / Scalar.ofNat period) xs period k

theorem standardDeviation_take (xs : List α) (period k : Nat) :
    standardDeviation (xs.take k) period = (standardDeviation xs period).take k := by
  by_cases hsmall : period < 2
  · simp [standardDeviation, hsmall]
  · rw [standardDeviation, standardDeviation, if_neg hsmall, if_neg hsmall]
    exact windowed_take (fun values => windowDeviation values period) xs period k

/-! ## Recursive series -/

theorem averageFrom_take (weight last : α) (xs : List α) (k : Nat) :
    averageFrom weight last (xs.take k) = (averageFrom weight last xs).take k := by
  induction xs generalizing last k with
  | nil => simp [averageFrom]
  | cons x rest ih =>
      cases k with
      | zero => simp [averageFrom]
      | succ k => simp only [averageFrom, List.take_succ_cons, ih]

theorem exponentialAverage_take (xs : List α) (period k : Nat) :
    exponentialAverage (xs.take k) period = (exponentialAverage xs period).take k := by
  by_cases hzero : period = 0
  · simp [exponentialAverage, hzero]
  · cases xs with
    | nil => simp [exponentialAverage, hzero]
    | cons first rest =>
        cases k with
        | zero => simp [exponentialAverage, hzero]
        | succ k =>
            simp only [exponentialAverage, if_neg hzero, List.take_succ_cons, averageFrom_take]

theorem changes_take_succ (xs : List α) (k : Nat) :
    changes (xs.take (k + 1)) = (changes xs).take k := by
  cases xs with
  | nil => simp [changes]
  | cons first rest =>
      simp only [changes, List.take_succ_cons, List.tail_cons, List.take_zipWith]
      -- The shorter series decides where a row-by-row combination ends.
      apply List.ext_getElem?
      intro i
      simp only [List.getElem?_zipWith, List.getElem?_take]
      rcases Nat.lt_or_ge i k with hlt | hge
      · have hlt' : i < k + 1 := by omega
        rw [← List.take_succ_cons, List.getElem?_take, if_pos hlt', if_pos hlt]
        simp [hlt]
      · simp [Nat.not_lt.mpr hge]

/-- The changes of one sign, with a zero for the first row, are cut with the series. -/
theorem changeParts_take (part : α → α) (xs : List α) {k : Nat} (hk : 0 < k) :
    0 :: (changes (xs.take k)).map part = (0 :: (changes xs).map part).take k := by
  obtain ⟨k, rfl⟩ : ∃ j, k = j + 1 := ⟨k - 1, by omega⟩
  rw [changes_take_succ, List.take_succ_cons, List.map_take]

/-- The strength index looks at the length of the whole series, but only to leave out rows that have
no full window anyway. -/
theorem relativeStrength_take (xs : List α) (period k : Nat) :
    relativeStrength (xs.take k) period = (relativeStrength xs period).take k := by
  by_cases hnone : period = 0 ∨ xs.length ≤ period
  · have hnone' : period = 0 ∨ (xs.take k).length ≤ period := by
      rw [List.length_take]
      omega
    rw [relativeStrength, relativeStrength, if_pos hnone, if_pos hnone', undefinedSeries_take]
  · rw [relativeStrength.eq_def xs, if_neg hnone]
    by_cases hcut : k ≤ period
    · have hnone' : period = 0 ∨ (xs.take k).length ≤ period := by
        rw [List.length_take]
        omega
      have hrow (i : Nat) (hi : i < k) (defined : α) :
          Scalar.nan = if i < period then Scalar.nan else defined := by
        rw [if_pos (by omega)]
      rw [relativeStrength, if_pos hnone', undefinedSeries, List.length_take,
        ← map_range_take fun i hi => hrow i hi _, List.map_const', List.length_range]
    · have hsome : ¬(period = 0 ∨ (xs.take k).length ≤ period) := by
        rw [List.length_take]
        omega
      rw [relativeStrength, if_neg hsome, List.length_take]
      apply map_range_take
      intro i hi
      by_cases hwarm : i < period
      · rw [if_pos hwarm, if_pos hwarm]
      · rw [if_neg hwarm, if_neg hwarm, changeParts_take rise xs (by omega),
          changeParts_take fall xs (by omega), window_take (by omega) hi,
          window_take (by omega) hi]

/-! ## Indicators -/

namespace Indicator

theorem macdOutputs_take (closes : List α) (fast slow signal k : Nat) :
    macdOutputs (closes.take k) fast slow signal =
      (macdOutputs closes fast slow signal).map (List.take k) := by
  by_cases hzero : fast = 0 ∨ slow = 0 ∨ signal = 0
  · simp [macdOutputs, hzero]
  · simp only [macdOutputs, if_neg hzero, List.map_cons, List.map_nil, List.take_zipWith,
      exponentialAverage_take, ← exponentialAverage_take (List.zipWith _ _ _)]

theorem bollingerOutputs_take (closes : List α) (period hundredths k : Nat) :
    bollingerOutputs (closes.take k) period hundredths =
      (bollingerOutputs closes period hundredths).map (List.take k) := by
  simp only [bollingerOutputs, List.map_cons, List.map_nil, List.take_zipWith, simpleAverage_take,
    standardDeviation_take]

/-- Every column of every indicator reads only the past. -/
theorem outputs_take (closes : List α) (kind : Indicator) (k : Nat) :
    kind.outputs (closes.take k) = (kind.outputs closes).map (List.take k) := by
  cases kind with
  | sma period => simp [outputs, simpleAverage_take]
  | ema period => simp [outputs, exponentialAverage_take]
  | rsi period => simp [outputs, relativeStrength_take]
  | macd fast slow signal => exact macdOutputs_take closes fast slow signal k
  | bollinger period hundredths => exact bollingerOutputs_take closes period hundredths k
  | unknown name period => simp [outputs]

end Indicator

/-! ## Frames -/

namespace Frame

/-- The first `k` rows of a frame. -/
def take {α : Type} (f : Frame α) (k : Nat) : Frame α :=
  { length := min k f.length
    columns := f.columns.map fun column => (column.1, column.2.take k) }

theorem get?_take {α : Type} (f : Frame α) (name : String) (k : Nat) :
    (f.take k).get? name = (f.get? name).map (List.take k) := by
  unfold get? take
  induction f.columns with
  | nil => rfl
  | cons column rest ih =>
      rw [List.map_cons, List.lookup_cons, List.lookup_cons]
      cases name == column.1 with
      | true => rfl
      | false => exact ih

theorem insert_take {α : Type} (f : Frame α) (name : String) (values : List α) (k : Nat) :
    (f.take k).insert name (values.take k) = (f.insert name values).take k := by
  simp only [insert, take, List.map_cons, List.filter_map]
  rfl

theorem insertOutput_take {α : Type} (f : Frame α) (name : String) (values : List α) (k : Nat) :
    (f.take k).insertOutput (name, values.take k) = (f.insertOutput (name, values)).take k := by
  unfold insertOutput
  by_cases hprice : priceColumns.contains name = true
  · rw [if_pos hprice, if_pos hprice]
  · rw [if_neg hprice, if_neg hprice]
    exact insert_take f name values k

theorem ofCandles_take {α : Type} (candles : List (Candle α)) (k : Nat) :
    ofCandles (candles.take k) = (ofCandles candles).take k := by
  simp [ofCandles, take]

theorem addIndicator_take (f : Frame α) (kind : Indicator) (k : Nat) :
    (f.take k).addIndicator kind = (f.addIndicator kind).take k := by
  have hcloses : ((f.take k).get? "close").getD [] = ((f.get? "close").getD []).take k := by
    rw [get?_take]
    cases f.get? "close" with
    | none => simp
    | some closes => rfl
  have hinsert (columns : List (String × List α)) (g : Frame α) :
      (columns.map (Prod.map id (List.take k))).foldl insertOutput (g.take k) =
        (columns.foldl insertOutput g).take k := by
    induction columns generalizing g with
    | nil => rfl
    | cons column rest ih =>
        have hcolumn : (g.take k).insertOutput (Prod.map id (List.take k) column) =
            (g.insertOutput column).take k :=
          insertOutput_take g column.1 column.2 k
        rw [List.map_cons, List.foldl_cons, List.foldl_cons, hcolumn]
        exact ih (g.insertOutput column)
  unfold addIndicator Indicator.columns
  rw [hcloses, Indicator.outputs_take, List.zip_map_right]
  exact hinsert _ f

/-- Building a frame reads only the past. -/
theorem build_take (candles : List (Candle α)) (kinds : List Indicator) (k : Nat) :
    build (candles.take k) kinds = (build candles kinds).take k := by
  unfold build
  rw [ofCandles_take]
  generalize ofCandles candles = f
  induction kinds generalizing f with
  | nil => rfl
  | cons kind rest ih => rw [List.foldl_cons, List.foldl_cons, addIndicator_take, ih]

/-! ## Signals -/

theorem valuesOf_take (f : Frame α) (operand : Operand α) (k : Nat) :
    (f.take k).valuesOf operand = (f.valuesOf operand).take k := by
  cases operand with
  | column name =>
      simp only [valuesOf, get?_take]
      cases f.get? name with
      | none => simp [take]
      | some values => rfl
  | literal value => simp [valuesOf, take]

end Frame

/-- The row before a row is never cut off with the rows after it. -/
theorem withPrevious_take {β : Type} (rows : List β) (k : Nat) :
    withPrevious (rows.take k) = (withPrevious rows).take k := by
  unfold withPrevious
  generalize none = previous
  induction rows generalizing previous k with
  | nil => simp
  | cons row rest ih =>
      cases k with
      | zero => simp
      | succ k =>
          rw [List.take_succ_cons, List.map_cons, List.map_cons, List.zip_cons_cons,
            List.zip_cons_cons, List.take_succ_cons, ih]

namespace Frame

theorem holds_take (f : Frame α) (c : Condition α) (k : Nat) :
    (f.take k).holds c = (f.holds c).take k := by
  unfold holds
  rw [valuesOf_take, valuesOf_take, ← List.map_take, ← withPrevious_take, List.zip_eq_zipWith,
    List.zip_eq_zipWith, List.take_zipWith]

theorem allHold_take (f : Frame α) (conditions : List (Condition α)) (k : Nat) :
    (f.take k).allHold conditions = (f.allHold conditions).take k := by
  unfold allHold
  cases conditions.isEmpty with
  | true => simp [take]
  | false =>
      have hstart : List.replicate (f.take k).length true =
          (List.replicate f.length true).take k := by
        simp [take]
      rw [if_neg Bool.false_ne_true, if_neg Bool.false_ne_true, hstart]
      generalize List.replicate f.length true = all
      induction conditions generalizing all with
      | nil => rfl
      | cons c rest ih => rw [List.foldl_cons, List.foldl_cons, holds_take, ← List.take_zipWith, ih]

theorem readyRows_take (f : Frame α) (names : List String) (k : Nat) :
    (f.take k).readyRows names = (f.readyRows names).take k := by
  have hcolumns : names.filterMap (f.take k).get? =
      (names.filterMap f.get?).map (List.take k) := by
    rw [List.map_filterMap]
    exact congrArg names.filterMap (funext fun name => get?_take f name k)
  have hstart : List.replicate (f.take k).length true =
      (List.replicate f.length true).take k := by
    simp [take]
  unfold readyRows
  rw [hcolumns, hstart]
  generalize List.replicate f.length true = ready
  induction names.filterMap f.get? generalizing ready with
  | nil => rfl
  | cons column rest ih =>
      rw [List.map_cons, List.foldl_cons, List.foldl_cons, ← List.take_zipWith, ih]

end Frame

end Backtester
