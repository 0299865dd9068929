import Backtester.Proofs.FrameShape
import Backtester.Proofs.KnownColumns

/-!
# Rows by number

Indicators and signals can be computed row by row with row numbers: a difference of two numbers must
not fall below the first row, a window must lie in its series and a value in its column.  In a frame
that is built every one of these steps succeeds, and the result is the series of values.

* `minus?`, `slice?`, `window?` — the steps that can fail.
* `Indicator.outputs?` — the outputs of an indicator by row numbers.
* `Frame.holdsAt?`, `Frame.readyAt?` — conditions and readiness on a row, by its number.
* `Indicator.outputs?_eq_some`, `Frame.Aligned.mapM_holdsAt?`, `Frame.Aligned.mapM_readyAt?` — none
  of them fails.
* `frame_stays_aligned` — what a frame holds, and that reading it never leaves it.
-/

namespace Backtester

variable {α : Type}

/-! ## Steps that can fail -/

/-- The difference of two row numbers, unless it falls below the first row. -/
def minus? (a b : Nat) : Option Nat := if b ≤ a then some (a - b) else none

/-- The values from one row to another, if both lie in the series. -/
def slice? (xs : List α) (first last : Nat) : Option (List α) :=
  if first ≤ last ∧ last < xs.length then some ((xs.drop first).take (last + 1 - first)) else none

/-- The `size` values that end at row `i`, if all of them lie in the series. -/
def window? (xs : List α) (size i : Nat) : Option (List α) := do
  let first ← minus? (i + 1) size
  slice? xs first i

theorem minus?_eq_some {a b : Nat} (h : b ≤ a) : minus? a b = some (a - b) := if_pos h

/-- A full window lies in its series. -/
theorem window?_eq_some {xs : List α} {size i : Nat} (hsize : 0 < size) (hfull : size ≤ i + 1)
    (hi : i < xs.length) : window? xs size i = some (window xs size i) := by
  have hrows : i + 1 - size ≤ i ∧ i < xs.length := ⟨by omega, hi⟩
  have hcount : i + 1 - (i + 1 - size) = size := by omega
  rw [window?, minus?_eq_some hfull, Option.bind_eq_bind, Option.bind_some, slice?, if_pos hrows,
    hcount, window]

/-- Rows that can each be computed make a series. -/
theorem mapM_range_eq_some {β : Type} {n : Nat} {row : Nat → Option β} {value : Nat → β}
    (h : ∀ i, i < n → row i = some (value i)) :
    (List.range n).mapM row = some ((List.range n).map value) := by
  rw [mapM_eq_some_iff, List.map_map]
  apply List.map_congr_left
  intro i hi
  exact h i (List.mem_range.mp hi)

/-! ## Indicators -/

section

variable [Scalar α]

/-- A figure of each full window; rows before the first one hold not-a-number. -/
def windowed? (figure : List α → Option α) (xs : List α) (period : Nat) : Option (List α) :=
  (List.range xs.length).mapM fun i =>
    if i + 1 < period then some Scalar.nan else (window? xs period i).bind figure

/-- The mean of each window. -/
def simpleAverage? (xs : List α) (period : Nat) : Option (List α) :=
  if period = 0 then some (undefinedSeries xs)
  else windowed? (fun values => some (Scalar.sum values / Scalar.ofNat period)) xs period

/-- The sample standard deviation of a full window. -/
def windowDeviation? (period : Nat) (values : List α) : Option α := do
  let mean := Scalar.sum values / Scalar.ofNat period
  let squares := values.map fun x => (x - mean) * (x - mean)
  let divisor ← minus? period 1
  return Scalar.sqrt (Scalar.sum squares / Scalar.ofNat divisor)

/-- The sample standard deviation of each window. -/
def standardDeviation? (xs : List α) (period : Nat) : Option (List α) :=
  if period < 2 then some (undefinedSeries xs) else windowed? (windowDeviation? period) xs period

/-- The change from the row before, at every row but the first. -/
def changes? (xs : List α) : Option (List α) :=
  (List.range' 1 (xs.length - 1)).mapM fun i => do
    let before ← minus? i 1
    let previous ← xs[before]?
    let x ← xs[i]?
    return x - previous

/-- The relative strength at each row with `period` changes before it. -/
def relativeStrength? (xs : List α) (period : Nat) : Option (List α) :=
  if period = 0 ∨ xs.length ≤ period then some (undefinedSeries xs)
  else do
    let changes ← changes? xs
    let rises := 0 :: changes.map rise
    let falls := 0 :: changes.map fall
    (List.range xs.length).mapM fun i =>
      if i < period then some Scalar.nan
      else do
        let risen ← window? rises period i
        let fallen ← window? falls period i
        return strengthIndex (Scalar.sum risen / Scalar.ofNat period)
          (Scalar.sum fallen / Scalar.ofNat period)

/-- The values of an indicator's columns over a close series.  Exponential averages go from value to
value and need no row number. -/
def Indicator.outputs? (closes : List α) : Indicator → Option (List (List α))
  | sma period => do return [← simpleAverage? closes period]
  | rsi period => do return [← relativeStrength? closes period]
  | bollinger period hundredths => do
      let width := bandWidth hundredths
      let middle ← simpleAverage? closes period
      let deviation ← standardDeviation? closes period
      return [List.zipWith (fun m s => m + width * s) middle deviation, middle,
        List.zipWith (fun m s => m - width * s) middle deviation]
  | kind => some (kind.outputs closes)

theorem windowed?_eq_some {figure : List α → Option α} {value : List α → α}
    (hfigure : ∀ values, figure values = some (value values)) (xs : List α) {period : Nat}
    (hperiod : 0 < period) :
    windowed? figure xs period = some ((List.range xs.length).map fun i =>
      if i + 1 < period then Scalar.nan else value (window xs period i)) := by
  apply mapM_range_eq_some
  intro i hi
  by_cases hwarm : i + 1 < period
  · rw [if_pos hwarm, if_pos hwarm]
  · rw [if_neg hwarm, if_neg hwarm, window?_eq_some hperiod (by omega) hi, Option.bind_some,
      hfigure]

theorem simpleAverage?_eq_some (xs : List α) (period : Nat) :
    simpleAverage? xs period = some (simpleAverage xs period) := by
  by_cases hzero : period = 0
  · rw [simpleAverage?, simpleAverage, if_pos hzero, if_pos hzero]
  · rw [simpleAverage?, simpleAverage, if_neg hzero, if_neg hzero]
    exact windowed?_eq_some (fun _ => rfl) xs (Nat.pos_of_ne_zero hzero)

theorem standardDeviation?_eq_some (xs : List α) (period : Nat) :
    standardDeviation? xs period = some (standardDeviation xs period) := by
  by_cases hsmall : period < 2
  · rw [standardDeviation?, standardDeviation, if_pos hsmall, if_pos hsmall]
  · have hfigure (values : List α) :
        windowDeviation? period values = some (windowDeviation values period) := by
      rw [windowDeviation?, minus?_eq_some (by omega)]
      rfl
    rw [standardDeviation?, standardDeviation, if_neg hsmall, if_neg hsmall]
    exact windowed?_eq_some hfigure xs (by omega)

theorem changes?_eq_some (xs : List α) : changes? xs = some (changes xs) := by
  rw [changes?, mapM_eq_some_iff]
  apply List.ext_getElem?
  intro i
  rcases Nat.lt_or_ge i (xs.length - 1) with hi | hend
  · have hbefore : xs[i]? = some xs[i] := List.getElem?_eq_getElem (by omega)
    have hnow : xs[i + 1]? = some xs[i + 1] := List.getElem?_eq_getElem (by omega)
    have htail : xs.tail[i]? = some xs[i + 1] := by rw [List.getElem?_tail, hnow]
    have hrow : 1 + 1 * i = i + 1 := by omega
    rw [List.getElem?_map, List.getElem?_map, List.getElem?_range' hi, changes,
      List.getElem?_zipWith, hbefore, htail, hrow]
    simp [minus?, hbefore, hnow]
  · rw [List.getElem?_eq_none, List.getElem?_eq_none]
    · simpa [length_changes] using hend
    · simpa using hend

theorem relativeStrength?_eq_some (xs : List α) (period : Nat) :
    relativeStrength? xs period = some (relativeStrength xs period) := by
  by_cases hnone : period = 0 ∨ xs.length ≤ period
  · rw [relativeStrength?, relativeStrength, if_pos hnone, if_pos hnone]
  · -- The changes with a value put before them have one value per row again.
    have hwindow (part : α → α) {i : Nat} (hwarm : ¬i < period) (hi : i < xs.length) :
        window? (0 :: (changes xs).map part) period i =
          some (window (0 :: (changes xs).map part) period i) := by
      apply window?_eq_some (by omega) (by omega)
      rw [List.length_cons, List.length_map, length_changes]
      omega
    rw [relativeStrength?, relativeStrength, if_neg hnone, if_neg hnone, changes?_eq_some,
      Option.bind_eq_bind, Option.bind_some]
    apply mapM_range_eq_some
    intro i hi
    by_cases hwarm : i < period
    · rw [if_pos hwarm, if_pos hwarm]
    · rw [if_neg hwarm, if_neg hwarm, hwindow rise hwarm hi, hwindow fall hwarm hi]
      rfl

/-- Computing an indicator by row numbers never fails, for any close series and any periods. -/
theorem Indicator.outputs?_eq_some (closes : List α) (kind : Indicator) :
    kind.outputs? closes = some (kind.outputs closes) := by
  cases kind with
  | sma period => rw [outputs?, simpleAverage?_eq_some]; rfl
  | rsi period => rw [outputs?, relativeStrength?_eq_some]; rfl
  | bollinger period hundredths =>
      rw [outputs?, simpleAverage?_eq_some, standardDeviation?_eq_some]
      rfl
  | ema | macd | unknown => rfl

end

/-! ## Signals -/

namespace Frame

variable [Scalar α]

/-- The two sides of a condition on row `i`. -/
def sidesAt? (f : Frame α) (c : Condition α) (i : Nat) : Option (α × α) := do
  let left ← (f.valuesOf c.left)[i]?
  let right ← (f.valuesOf c.right)[i]?
  return (left, right)

/-- A condition on row `i`. -/
def holdsAt? (f : Frame α) (c : Condition α) (i : Nat) : Option Bool := do
  let row ← f.sidesAt? c i
  if i = 0 then return c.comparator.holds none row
  let before ← minus? i 1
  let previous ← f.sidesAt? c before
  return c.comparator.holds (some previous) row

/-- Readiness of row `i`. -/
def readyAt? (f : Frame α) (names : List String) (i : Nat) : Option Bool := do
  let values ← (names.filterMap f.get?).mapM fun column => column[i]?
  return values.all fun x => !Scalar.isNaN x

/-- An operand has one value per row, whether its column is in the frame or not. -/
theorem Aligned.length_valuesOf {f : Frame α} (h : f.Aligned) (operand : Operand α) :
    (f.valuesOf operand).length = f.length := by
  cases operand with
  | literal value => simp [valuesOf]
  | column name =>
      rw [valuesOf]
      cases hcolumn : f.get? name with
      | none => simp
      | some values => exact h.length_of_get? hcolumn

/-- The two sides of a condition have a value on every row. -/
theorem Aligned.exists_sidesAt? {f : Frame α} (h : f.Aligned) (c : Condition α) {i : Nat}
    (hi : i < f.length) : ∃ row, f.sidesAt? c i = some row ∧
      ((f.valuesOf c.left).zip (f.valuesOf c.right))[i]? = some row := by
  have hvalue (operand : Operand α) : ∃ x, (f.valuesOf operand)[i]? = some x :=
    ⟨_, List.getElem?_eq_getElem (by rwa [h.length_valuesOf])⟩
  obtain ⟨left, hleft⟩ := hvalue c.left
  obtain ⟨right, hright⟩ := hvalue c.right
  refine ⟨(left, right), ?_, List.getElem?_zip_eq_some.mpr ⟨hleft, hright⟩⟩
  rw [sidesAt?, hleft, hright]
  rfl

theorem Aligned.length_holds {f : Frame α} (h : f.Aligned) (c : Condition α) :
    (f.holds c).length = f.length := by
  simp [holds, withPrevious, h.length_valuesOf]

/-- Evaluating a condition row by row never leaves a column. -/
theorem Aligned.mapM_holdsAt? {f : Frame α} (h : f.Aligned) (c : Condition α) :
    (List.range f.length).mapM (f.holdsAt? c) = some (f.holds c) := by
  rw [mapM_eq_some_iff]
  apply List.ext_getElem?
  intro i
  rw [List.getElem?_map, List.getElem?_map]
  rcases Nat.lt_or_ge i f.length with hi | hend
  · obtain ⟨row, hrow, hzip⟩ := h.exists_sidesAt? c hi
    rw [List.getElem?_range hi, Option.map_some, holdsAt?, hrow, holds, List.getElem?_map,
      getElem?_withPrevious, hzip]
    cases i with
    | zero => rfl
    | succ i =>
        obtain ⟨previous, hprevious, hzip'⟩ := h.exists_sidesAt? c (i := i) (by omega)
        simp [minus?, hprevious, hzip']
  · rw [List.getElem?_eq_none (by simpa using hend),
      List.getElem?_eq_none (by rwa [h.length_holds])]
    rfl

/-- Readiness of a row, column by column. -/
theorem getElem?_foldl_ready {columns : List (List α)} {i : Nat} {values : List α}
    (hvalues : (columns.mapM fun column => column[i]?) = some values) (ready : List Bool) :
    (columns.foldl (fun ready column =>
        List.zipWith (fun r x => r && !Scalar.isNaN x) ready column) ready)[i]? =
      ready[i]?.map fun r => r && values.all fun x => !Scalar.isNaN x := by
  induction columns generalizing ready values with
  | nil =>
      obtain rfl := Option.some.inj hvalues
      simp
  | cons column rest ih =>
      rw [List.mapM_cons] at hvalues
      obtain ⟨x, hx, hvalues⟩ := Option.bind_eq_some_iff.mp hvalues
      obtain ⟨others, hothers, hvalues⟩ := Option.bind_eq_some_iff.mp hvalues
      obtain rfl := Option.some.inj hvalues
      rw [List.foldl_cons, ih hothers, List.getElem?_zipWith, hx]
      cases ready[i]? with
      | none => rfl
      | some r => simp [Bool.and_assoc]

theorem length_foldl_ready {columns : List (List α)} {n : Nat}
    (hcolumns : ∀ column ∈ columns, column.length = n) {ready : List Bool}
    (hready : ready.length = n) :
    (columns.foldl (fun ready column =>
      List.zipWith (fun r x => r && !Scalar.isNaN x) ready column) ready).length = n := by
  induction columns generalizing ready with
  | nil => exact hready
  | cons column rest ih =>
      rw [List.foldl_cons]
      apply ih fun other hother => hcolumns other (List.mem_cons_of_mem column hother)
      rw [List.length_zipWith, hready, hcolumns column List.mem_cons_self, Nat.min_self]

/-- Readiness of every row never leaves a column. -/
theorem Aligned.mapM_readyAt? {f : Frame α} (h : f.Aligned) (names : List String) :
    (List.range f.length).mapM (f.readyAt? names) = some (f.readyRows names) := by
  have hcolumns : ∀ column ∈ names.filterMap f.get?, column.length = f.length := by
    intro column hmem
    obtain ⟨name, -, hcolumn⟩ := List.mem_filterMap.mp hmem
    exact h.length_of_get? hcolumn
  rw [mapM_eq_some_iff]
  apply List.ext_getElem?
  intro i
  rw [List.getElem?_map, List.getElem?_map, readyRows]
  rcases Nat.lt_or_ge i f.length with hi | hend
  · have hvalues : (names.filterMap f.get?).mapM (fun column => column[i]?) =
        some ((names.filterMap f.get?).map fun column => column.getD i Scalar.nan) := by
      rw [mapM_eq_some_iff, List.map_map]
      apply List.map_congr_left
      intro column hmem
      have hrow : column[i]? = some _ := List.getElem?_eq_getElem (by rwa [hcolumns column hmem])
      rw [hrow, Function.comp_apply, List.getD_eq_getElem?_getD, hrow, Option.getD_some]
    rw [List.getElem?_range hi, getElem?_foldl_ready hvalues, List.getElem?_replicate_of_lt hi,
      Option.map_some, readyAt?, hvalues]
    simp
  · rw [List.getElem?_eq_none (by simpa using hend), List.getElem?_eq_none]
    · rfl
    · rwa [length_foldl_ready hcolumns List.length_replicate]

end Frame

/-! ## Frames that are built -/

/-- Whatever indicators are added to the frame of some candles, the frame keeps one row per candle
and one value per row in every column; the price columns still hold the candles; the other columns
are those that the indicators name, each with the output, over the closes, of the last indicator
that provides it.  So conditions, with any operands, and readiness, for any names, find a value on every
row they look at, and so does every window that an indicator takes, for any closes and any
periods. -/
theorem frame_stays_aligned [Scalar α] (candles : List (Candle α)) (kinds : List Indicator) :
    let frame := Frame.build candles kinds
    frame.Represents candles kinds ∧
    (∀ c : Condition α, (List.range frame.length).mapM (frame.holdsAt? c) = some (frame.holds c)) ∧
    (∀ names : List String,
      (List.range frame.length).mapM (frame.readyAt? names) = some (frame.readyRows names)) ∧
    ∀ (closes : List α) (kind : Indicator),
      kind.outputs? closes = some (kind.outputs closes) := by
  intro frame
  have haligned : frame.Aligned := Frame.aligned_build candles kinds
  exact ⟨Frame.represents_build candles kinds, haligned.mapM_holdsAt?, haligned.mapM_readyAt?,
    Indicator.outputs?_eq_some⟩

end Backtester
