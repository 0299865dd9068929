import Backtester.Proofs.Columns

/-!
# The shape of a frame

Every indicator computes one value per close, whatever its periods, so every column of a frame has
one value per row.

* `Indicator.length_of_mem_outputs` — the length of an output.
* `Frame.Aligned` — each name stands once, and each column has one value per row.
* `Frame.Aligned.addIndicator`, `Frame.aligned_build` — kept by adding an indicator, and so of every
  frame that is built.
* `Frame.Represents` — the columns of a frame, said for every name.
* `Frame.represents_build` — a frame that is built represents its candles and indicators.
-/

namespace Backtester

variable {α : Type}

theorem mem_of_lookup {β : Type} {columns : List (String × β)} {name : String} {values : β}
    (h : columns.lookup name = some values) : (name, values) ∈ columns := by
  obtain ⟨before, after, rfl, -⟩ := List.lookup_eq_some_iff.mp h
  exact List.mem_append_right before List.mem_cons_self

theorem lookup_of_mem {β : Type} {columns : List (String × β)}
    (hnames : (columns.map Prod.fst).Nodup) {name : String} {values : β}
    (h : (name, values) ∈ columns) : columns.lookup name = some values := by
  obtain ⟨before, after, rfl⟩ := List.append_of_mem h
  refine List.lookup_eq_some_iff.mpr ⟨before, after, rfl, fun column hcolumn => ?_⟩
  rw [List.map_append, List.map_cons, List.nodup_append] at hnames
  have hne := hnames.2.2 column.1 (List.mem_map_of_mem hcolumn) name List.mem_cons_self
  simpa using hne.symm

/-! ## The lengths of series -/

section

variable [Scalar α]

@[simp] theorem length_undefinedSeries (xs : List α) : (undefinedSeries xs).length = xs.length := by
  simp [undefinedSeries]

@[simp] theorem length_simpleAverage (xs : List α) (period : Nat) :
    (simpleAverage xs period).length = xs.length := by
  unfold simpleAverage
  split <;> simp

@[simp] theorem length_standardDeviation (xs : List α) (period : Nat) :
    (standardDeviation xs period).length = xs.length := by
  unfold standardDeviation
  split <;> simp

@[simp] theorem length_averageFrom (weight last : α) (xs : List α) :
    (averageFrom weight last xs).length = xs.length := by
  induction xs generalizing last with
  | nil => rfl
  | cons x rest ih => rw [averageFrom, List.length_cons, ih, List.length_cons]

@[simp] theorem length_exponentialAverage (xs : List α) (period : Nat) :
    (exponentialAverage xs period).length = xs.length := by
  unfold exponentialAverage
  split
  · simp
  · cases xs <;> simp

/-- There is a change at every row but the first. -/
theorem length_changes (xs : List α) : (changes xs).length = xs.length - 1 := by
  simp [changes]

@[simp] theorem length_relativeStrength (xs : List α) (period : Nat) :
    (relativeStrength xs period).length = xs.length := by
  unfold relativeStrength
  split <;> simp

/-! ## The outputs of an indicator -/

namespace Indicator

/-- Every output of every indicator has one value per close. -/
theorem length_of_mem_outputs {closes : List α} {kind : Indicator} {values : List α}
    (h : values ∈ kind.outputs closes) : values.length = closes.length := by
  cases kind with
  | sma period =>
      obtain rfl := List.mem_singleton.mp h
      exact length_simpleAverage closes period
  | ema period =>
      obtain rfl := List.mem_singleton.mp h
      exact length_exponentialAverage closes period
  | rsi period =>
      obtain rfl := List.mem_singleton.mp h
      exact length_relativeStrength closes period
  | macd fast slow signal =>
      rw [outputs, macdOutputs] at h
      split at h
      · simp only [List.mem_cons, List.not_mem_nil, or_false, or_self] at h
        rw [h, length_undefinedSeries]
      · simp only [List.mem_cons, List.not_mem_nil, or_false] at h
        rcases h with rfl | rfl | rfl <;> simp
  | bollinger period hundredths =>
      simp only [outputs, bollingerOutputs, List.mem_cons, List.not_mem_nil, or_false] at h
      rcases h with rfl | rfl | rfl <;> simp
  | unknown name period =>
      obtain rfl := List.mem_singleton.mp h
      rfl

/-- The output of an indicator under a name stands at the place of the name. -/
theorem column?_of_getElem? (closes : List α) {kind : Indicator} {k : Nat} {name : String}
    (hname : kind.columnNames[k]? = some name) :
    ∃ values, (kind.outputs closes)[k]? = some values ∧ kind.column? closes name = some values := by
  have hk : k < (kind.outputs closes).length := by
    rw [length_outputs]
    exact (List.getElem?_eq_some_iff.mp hname).1
  have hvalues := List.getElem?_eq_getElem hk
  refine ⟨_, hvalues, lookup_of_mem ?_ (List.mem_of_getElem? (i := k) ?_)⟩
  · rw [map_fst_columns]
    exact kind.nodup_columnNames
  · exact List.getElem?_zip_eq_some.mpr ⟨hname, hvalues⟩

end Indicator

end

namespace Frame

/-! ## One value per row -/

/-- Each name stands once, and each column has one value per row. -/
structure Aligned (f : Frame α) : Prop where
  distinct : (f.columns.map Prod.fst).Nodup
  rows : ∀ column ∈ f.columns, column.2.length = f.length

theorem mem_names_iff (f : Frame α) (name : String) :
    name ∈ f.columns.map Prod.fst ↔ (f.get? name).isSome := by
  rw [get?, List.lookup_isSome_iff]
  simp

theorem Aligned.length_of_get? {f : Frame α} (h : f.Aligned) {name : String} {values : List α}
    (hcolumn : f.get? name = some values) : values.length = f.length :=
  h.rows _ (mem_of_lookup hcolumn)

theorem aligned_ofCandles (candles : List (Candle α)) : (ofCandles candles).Aligned := by
  constructor
  · show priceColumns.Nodup
    decide
  · simp [ofCandles]

theorem Aligned.insert {f : Frame α} (h : f.Aligned) (name : String) {values : List α}
    (hvalues : values.length = f.length) : (f.insert name values).Aligned := by
  constructor
  · rw [Frame.insert, List.map_cons, List.nodup_cons]
    constructor
    · -- The columns that are kept all have other names.
      intro hmem
      obtain ⟨column, hkept, hname⟩ := List.mem_map.mp hmem
      have hother := (List.mem_filter.mp hkept).2
      rw [hname] at hother
      simp at hother
    · exact h.distinct.sublist (List.filter_sublist.map Prod.fst)
  · intro column hmem
    rcases List.mem_cons.mp hmem with rfl | hkept
    · exact hvalues
    · exact h.rows column (List.mem_filter.mp hkept).1

theorem Aligned.insertOutput {f : Frame α} (h : f.Aligned) {column : String × List α}
    (hvalues : column.2.length = f.length) : (f.insertOutput column).Aligned := by
  unfold Frame.insertOutput
  split
  · exact h
  · exact h.insert column.1 hvalues

variable [Scalar α]

/-- Adding an indicator keeps a frame aligned, for the closes in it have one value per row. -/
theorem Aligned.addIndicator {f : Frame α} (h : f.Aligned) {closes : List α}
    (hcloses : f.get? "close" = some closes) (kind : Indicator) : (f.addIndicator kind).Aligned := by
  have houtputs : ∀ column ∈ kind.columns closes, column.2.length = f.length := by
    intro column hcolumn
    rw [Indicator.length_of_mem_outputs (List.of_mem_zip hcolumn).2, h.length_of_get? hcloses]
  rw [Frame.addIndicator, hcloses, Option.getD_some]
  generalize kind.columns closes = columns at houtputs
  clear hcloses
  -- Output by output; none of them changes the number of rows.
  induction columns generalizing f with
  | nil => exact h
  | cons column rest ih =>
      rw [List.foldl_cons]
      apply ih (h.insertOutput (houtputs column List.mem_cons_self))
      intro other hother
      rw [length_insertOutput]
      exact houtputs other (List.mem_cons_of_mem column hother)

/-- Every frame that is built is aligned. -/
theorem aligned_build (candles : List (Candle α)) (kinds : List Indicator) :
    (build candles kinds).Aligned := by
  have hprice : "close" ∈ priceColumns := by decide
  have hfold (f : Frame α) (h : f.Aligned) {closes : List α}
      (hcloses : f.get? "close" = some closes) : (kinds.foldl Frame.addIndicator f).Aligned := by
    induction kinds generalizing f with
    | nil => exact h
    | cons kind rest ih =>
        rw [List.foldl_cons]
        exact ih _ (h.addIndicator hcloses kind) ((get?_addIndicator_price f kind hprice).trans hcloses)
  exact hfold _ (aligned_ofCandles candles) rfl

/-! ## What the columns are -/

/-- The columns of a frame are those of some candles and indicators. -/
structure Represents (f : Frame α) (candles : List (Candle α)) (kinds : List Indicator) :
    Prop where
  /-- There is one row per candle. -/
  length : f.length = candles.length
  /-- Each name stands once, and each column has one value per row. -/
  aligned : f.Aligned
  /-- The price columns hold the candles, each its own field of them. -/
  opening : f.get? "open" = some (candles.map Candle.opening)
  high : f.get? "high" = some (candles.map Candle.high)
  low : f.get? "low" = some (candles.map Candle.low)
  close : f.get? "close" = some (candles.map Candle.close)
  volume : f.get? "volume" = some (candles.map Candle.volume)
  /-- The names are those of the prices and those of the indicators. -/
  names : ∀ name, name ∈ f.columns.map Prod.fst ↔
    name ∈ priceColumns ∨ ∃ kind ∈ kinds, name ∈ kind.columnNames
  /-- Any other column is the output of the last indicator that provides its name. -/
  latest : ∀ (before : List Indicator) (kind : Indicator) (after : List Indicator),
    kinds = before ++ kind :: after → ∀ (k : Nat) (name : String),
      kind.columnNames[k]? = some name → name ∉ priceColumns →
        (∀ later ∈ after, name ∉ later.columnNames) →
          ∃ values, (kind.outputs (candles.map Candle.close))[k]? = some values ∧
            f.get? name = some values

theorem get?_build_latest (candles : List (Candle α)) {before after : List Indicator}
    {kind : Indicator} {k : Nat} {name : String} (hname : kind.columnNames[k]? = some name)
    (hprice : name ∉ priceColumns) (hlater : ∀ later ∈ after, name ∉ later.columnNames) :
    ∃ values, (kind.outputs (candles.map Candle.close))[k]? = some values ∧
      (build candles (before ++ kind :: after)).get? name = some values := by
  obtain ⟨values, hvalues, hcolumn⟩ := Indicator.column?_of_getElem? (candles.map Candle.close) hname
  refine ⟨values, hvalues, ?_⟩
  rw [get?_build candles _ hprice, List.findSome?_eq_some_iff]
  refine ⟨after.reverse, kind, before.reverse, by simp, hcolumn, fun later hmem => ?_⟩
  exact Indicator.column?_of_not_mem (hlater later (List.mem_reverse.mp hmem))

/-- A frame that is built represents its candles and indicators. -/
theorem represents_build (candles : List (Candle α)) (kinds : List Indicator) :
    (build candles kinds).Represents candles kinds where
  length := length_build candles kinds
  aligned := aligned_build candles kinds
  opening := get?_build_price candles kinds (by decide)
  high := get?_build_price candles kinds (by decide)
  low := get?_build_price candles kinds (by decide)
  close := get?_build_price candles kinds (by decide)
  volume := get?_build_price candles kinds (by decide)
  names := by
    intro name
    rw [mem_names_iff, get?_build_isSome_iff, Strategy.knownColumns, List.mem_eraseDups,
      List.mem_append, List.mem_flatMap]
  latest := by
    rintro before kind after rfl k name hname hprice hlater
    exact get?_build_latest candles hname hprice hlater

end Frame

end Backtester
