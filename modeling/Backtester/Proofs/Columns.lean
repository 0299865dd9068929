import Backtester.Proofs.RowSignals
import Backtester.Strategy.Compiled
import Mathlib.Data.List.Basic

/-!
# The columns of a frame

A frame built from candles and indicators has the price columns, which stay as the candles have
them, and under every other name the output of the last indicator that provides it.

* `Indicator.column?` — the output of one indicator under a name.
* `Frame.get?_addIndicator` — what adding one indicator changes.
* `Frame.get?_build_price`, `Frame.get?_build` — what a frame holds under a name.
* `Frame.get?_build_isSome_iff` — the names of a frame are those that compilation expects.
* `Frame.allHold_congr`, `Frame.readyRows_congr` — signals depend only on the columns they read.
-/

namespace Backtester

variable {α : Type}

/-! ## The outputs of an indicator -/

namespace Indicator

theorem nodup_columnNames (kind : Indicator) : kind.columnNames.Nodup := by
  cases kind with
  | sma period => simp [columnNames]
  | ema period => simp [columnNames]
  | rsi period => simp [columnNames]
  | macd fast slow signal => simp [columnNames]
  | bollinger period hundredths => simp [columnNames]
  | unknown name period => cases period <;> simp [columnNames]

variable [Scalar α]

/-- The output of an indicator under a name. -/
def column? (closes : List α) (name : String) (kind : Indicator) : Option (List α) :=
  (kind.columns closes).lookup name

/-- An indicator has one output for each of its names. -/
theorem length_outputs (closes : List α) (kind : Indicator) :
    (kind.outputs closes).length = kind.columnNames.length := by
  cases kind with
  | sma period => rfl
  | ema period => rfl
  | rsi period => rfl
  | macd fast slow signal =>
      rw [outputs, macdOutputs]
      split
      · rfl
      · rfl
  | bollinger period hundredths => rfl
  | unknown name period => cases period <;> rfl

theorem map_fst_columns (closes : List α) (kind : Indicator) :
    (kind.columns closes).map Prod.fst = kind.columnNames := by
  apply List.map_fst_zip
  rw [length_outputs]

theorem column?_isSome_iff (closes : List α) (name : String) (kind : Indicator) :
    (kind.column? closes name).isSome ↔ name ∈ kind.columnNames := by
  rw [column?, List.lookup_isSome_iff, ← map_fst_columns closes]
  simp

theorem column?_of_not_mem {closes : List α} {kind : Indicator} {name : String}
    (hname : name ∉ kind.columnNames) : kind.column? closes name = none := by
  rw [← Option.not_isSome_iff_eq_none, column?_isSome_iff]
  exact hname

/-- A column depends on the last indicator that provides it only. -/
theorem findSome?_column? (closes : List α) (kinds : List Indicator) (name : String) :
    kinds.findSome? (column? closes name) =
      (kinds.find? fun kind => decide (name ∈ kind.columnNames)).bind
        (column? closes name) := by
  induction kinds with
  | nil => rfl
  | cons kind rest ih =>
      by_cases hname : name ∈ kind.columnNames
      · obtain ⟨values, hvalues⟩ :=
          Option.isSome_iff_exists.mp ((column?_isSome_iff closes name kind).mpr hname)
        simp [hname, hvalues]
      · simp [hname, column?_of_not_mem hname, ih]

end Indicator

theorem Condition.mem_columns_iff {c : Condition α} {name : String} :
    name ∈ c.columns ↔ c.left = .column name ∨ c.right = .column name := by
  have hcolumn (operand : Operand α) : operand.column? = some name ↔ operand = .column name := by
    cases operand <;> simp [Operand.column?]
  simp [Condition.columns, hcolumn, eq_comm]

namespace Frame

/-! ## Adding indicators -/

theorem get?_insertOutput (f : Frame α) (column : String × List α) (name : String) :
    (f.insertOutput column).get? name =
      if column.1 ∉ priceColumns ∧ name = column.1 then some column.2 else f.get? name := by
  obtain ⟨own, values⟩ := column
  by_cases hprice : own ∈ priceColumns
  · have hkept : f.insertOutput (own, values) = f := if_pos (by simpa using hprice)
    rw [hkept, if_neg (fun h => h.1 hprice)]
  · rw [insertOutput_of_not_mem f hprice]
    by_cases hname : name = own
    · rw [if_pos ⟨hprice, hname⟩, hname, get?_insert_self]
    · rw [if_neg (fun h => hname h.2), get?_insert_of_ne f hname]

theorem length_insertOutput (f : Frame α) (column : String × List α) :
    (f.insertOutput column).length = f.length := by
  unfold insertOutput
  split
  · rfl
  · rfl

/-- Putting in outputs leaves the price columns as they are. -/
theorem get?_foldl_insertOutput_price (f : Frame α) (columns : List (String × List α))
    {name : String} (hprice : name ∈ priceColumns) :
    (columns.foldl insertOutput f).get? name = f.get? name := by
  induction columns generalizing f with
  | nil => rfl
  | cons column rest ih =>
      rw [List.foldl_cons, ih, get?_insertOutput, if_neg]
      rintro ⟨hnot, rfl⟩
      exact hnot hprice

/-- Outputs with different names all end up in the frame, and each replaces what had its name. -/
theorem get?_foldl_insertOutput (f : Frame α) {columns : List (String × List α)}
    (hnames : (columns.map Prod.fst).Nodup) {name : String} (hname : name ∉ priceColumns) :
    (columns.foldl insertOutput f).get? name = (columns.lookup name).or (f.get? name) := by
  induction columns generalizing f with
  | nil => rfl
  | cons column rest ih =>
      rw [List.map_cons, List.nodup_cons] at hnames
      rw [List.foldl_cons, ih _ hnames.2, get?_insertOutput, List.lookup_cons]
      by_cases hown : name = column.1
      · -- No later output has this name, so this one stays.
        subst hown
        have hlater : rest.lookup column.1 = none := by
          rw [List.lookup_eq_none_iff]
          intro other hother
          have hne : column.1 ≠ other.1 := by
            intro h
            exact hnames.1 (h ▸ List.mem_map_of_mem hother)
          simpa using hne
        simp [hlater, hname]
      · have hbeq : (name == column.1) = false := beq_false_of_ne hown
        rw [hbeq, if_neg (fun h => hown h.2)]

variable [Scalar α]

theorem length_addIndicator (f : Frame α) (kind : Indicator) :
    (f.addIndicator kind).length = f.length := by
  unfold addIndicator
  generalize kind.columns ((f.get? "close").getD []) = columns
  induction columns generalizing f with
  | nil => rfl
  | cons column rest ih => rw [List.foldl_cons, ih, length_insertOutput]

theorem get?_addIndicator_price (f : Frame α) (kind : Indicator) {name : String}
    (hprice : name ∈ priceColumns) : (f.addIndicator kind).get? name = f.get? name :=
  get?_foldl_insertOutput_price f _ hprice

/-- An indicator replaces the columns it provides. -/
theorem get?_addIndicator (f : Frame α) (kind : Indicator) {name : String}
    (hname : name ∉ priceColumns) :
    (f.addIndicator kind).get? name =
      (kind.column? ((f.get? "close").getD []) name).or (f.get? name) := by
  apply get?_foldl_insertOutput f _ hname
  rw [Indicator.map_fst_columns]
  exact kind.nodup_columnNames

/-! ## The whole frame -/

@[simp] theorem length_build (candles : List (Candle α)) (kinds : List Indicator) :
    (build candles kinds).length = candles.length := by
  have hfold (f : Frame α) : (kinds.foldl addIndicator f).length = f.length := by
    induction kinds generalizing f with
    | nil => rfl
    | cons kind rest ih => rw [List.foldl_cons, ih, length_addIndicator]
  exact hfold (ofCandles candles)

/-- No indicator changes a price column. -/
theorem get?_build_price (candles : List (Candle α)) (kinds : List Indicator) {name : String}
    (hprice : name ∈ priceColumns) :
    (build candles kinds).get? name = (ofCandles candles).get? name := by
  have hfold (f : Frame α) : (kinds.foldl addIndicator f).get? name = f.get? name := by
    induction kinds generalizing f with
    | nil => rfl
    | cons kind rest ih => rw [List.foldl_cons, ih, get?_addIndicator_price f kind hprice]
  exact hfold (ofCandles candles)

/-- Under a name that is not a price's stands the output of the last indicator that provides it. -/
theorem get?_build (candles : List (Candle α)) (kinds : List Indicator) {name : String}
    (hname : name ∉ priceColumns) :
    (build candles kinds).get? name =
      kinds.reverse.findSome? (Indicator.column? (candles.map Candle.close) name) := by
  have hprice : "close" ∈ priceColumns := by decide
  -- Indicator by indicator, from any frame with the closes of the candles.
  have hfold (f : Frame α) (hclose : f.get? "close" = some (candles.map Candle.close)) :
      (kinds.foldl addIndicator f).get? name =
        (kinds.reverse.findSome? (Indicator.column? (candles.map Candle.close) name)).or
          (f.get? name) := by
    induction kinds generalizing f with
    | nil => rfl
    | cons kind rest ih =>
        have hkept := (get?_addIndicator_price f kind hprice).trans hclose
        rw [List.foldl_cons, ih _ hkept, get?_addIndicator f kind hname, hclose,
          List.reverse_cons, List.findSome?_append, Option.or_assoc]
        cases kind.column? (candles.map Candle.close) name <;> simp [*]
  have hnone : (ofCandles candles).get? name = none := by
    rw [get?, ofCandles, List.lookup_eq_none_iff]
    simpa [priceColumns] using hname
  rw [build, hfold _ rfl, hnone, Option.or_none]

/-- A frame has exactly the columns that compilation expects of it. -/
theorem get?_build_isSome_iff (candles : List (Candle α)) (kinds : List Indicator)
    (name : String) :
    ((build candles kinds).get? name).isSome ↔ name ∈ Strategy.knownColumns kinds := by
  rw [Strategy.knownColumns, List.mem_eraseDups, List.mem_append]
  by_cases hprice : name ∈ priceColumns
  · rw [get?_build_price candles kinds hprice, get?, List.lookup_isSome_iff]
    have hcandles : ∃ column ∈ (ofCandles candles).columns, name = column.1 := by
      simpa [priceColumns, ofCandles] using hprice
    simpa [hprice] using hcandles
  · rw [get?_build candles kinds hprice, List.findSome?_isSome_iff, List.mem_flatMap]
    simp [Indicator.column?_isSome_iff, hprice]

/-! ## What signals read -/

/-- A condition reads its own columns only. -/
theorem holds_congr {f g : Frame α} (hlength : f.length = g.length) {c : Condition α}
    (hcolumns : ∀ name ∈ c.columns, f.get? name = g.get? name) : f.holds c = g.holds c := by
  have hvalues (operand : Operand α) (hoperand : ∀ name, operand = .column name →
      name ∈ c.columns) : f.valuesOf operand = g.valuesOf operand := by
    cases operand with
    | literal value => rw [valuesOf, valuesOf, hlength]
    | column name => rw [valuesOf, valuesOf, hcolumns name (hoperand name rfl), hlength]
  rw [holds, holds, hvalues c.left, hvalues c.right]
  · exact fun name hright => Condition.mem_columns_iff.mpr (Or.inr hright)
  · exact fun name hleft => Condition.mem_columns_iff.mpr (Or.inl hleft)

theorem allHold_congr {f g : Frame α} (hlength : f.length = g.length)
    {conditions : List (Condition α)}
    (hcolumns : ∀ c ∈ conditions, ∀ name ∈ c.columns, f.get? name = g.get? name) :
    f.allHold conditions = g.allHold conditions := by
  unfold allHold
  rw [hlength, List.foldl_ext]
  intro all c hc
  rw [holds_congr hlength (hcolumns c hc)]

theorem readyRows_congr {f g : Frame α} (hlength : f.length = g.length) {names : List String}
    (hcolumns : ∀ name ∈ names, f.get? name = g.get? name) :
    f.readyRows names = g.readyRows names := by
  rw [readyRows, readyRows, hlength, List.filterMap_congr hcolumns]

end Frame
end Backtester
