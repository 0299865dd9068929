import Backtester.Proofs.Crossover
import Backtester.Proofs.Doubles
import Backtester.Proofs.FrameShape
import Backtester.Proofs.KnownColumns
import Backtester.Proofs.TradeRows
import Mathlib.Data.ENat.Basic

/-!
# Warm-up

The first rows of an indicator's column are not numbers: its windows are not full yet.  A period of
zero, or a deviation over a single row, is never full.

* `Indicator.warmUp`, `warmUp` — the row from which on a column can hold numbers.
* `UndefinedBefore` — a series holds no number before a row.
* `Indicator.undefinedBefore_column?`, `Frame.undefinedBefore_build` — no column holds one before
  its warm-up is over.
* `Frame.warmUp_le_of_ready` — so a row is ready only after the warm-up of all columns it must have.
* `Frame.warmUp_le_of_crossing` — and a crossing needs one row more.
* `no_trade_during_warm_up` — trades keep to these rows.
-/

namespace Backtester

/-- The row from which on an output of an indicator can hold numbers, if there is one. -/
def Indicator.warmUp (name : String) : Indicator → ℕ∞
  | sma period => if period = 0 then ⊤ else (period - 1 : Nat)
  | ema period => if period = 0 then ⊤ else 0
  | rsi period => if period = 0 then ⊤ else period
  | macd fast slow signal => if fast = 0 ∨ slow = 0 ∨ signal = 0 then ⊤ else 0
  | bollinger period _ =>
      if period = 0 ∨ (period < 2 ∧ name ≠ "bb_middle") then ⊤ else (period - 1 : Nat)
  | unknown _ _ => 0

/-- The row from which on a column can hold numbers: the warm-up of the last indicator that provides
it.  Prices have none. -/
def warmUp (kinds : List Indicator) (name : String) : ℕ∞ :=
  if name ∈ priceColumns then 0
  else
    match kinds.reverse.find? (fun kind => decide (name ∈ kind.columnNames)) with
    | some kind => kind.warmUp name
    | none => 0

/-- A comparator that looks at the row before. -/
def Comparator.IsCrossing (comparator : Comparator) : Prop :=
  comparator = .crossesAbove ∨ comparator = .crossesBelow

/-- A series holds no number before a row. -/
def UndefinedBefore (values : List Float) (n : ℕ∞) : Prop :=
  ∀ (i : Nat) (x : Float), values[i]? = some x → (i : ℕ∞) < n → x.isNaN = true

/-! ## Series -/

namespace UndefinedBefore

theorem zero (values : List Float) : UndefinedBefore values 0 := by
  intro i x _ hlt
  exact absurd hlt not_lt_zero

theorem undefinedSeries (xs : List Float) (n : ℕ∞) :
    UndefinedBefore (Backtester.undefinedSeries xs) n := by
  intro i x hx _
  rw [Backtester.undefinedSeries, List.getElem?_replicate] at hx
  split at hx
  · obtain rfl := Option.some.inj hx
    rfl
  · cases hx

/-- A series given row by row holds no number before a row if its rule gives none there. -/
theorem map_range {count n : Nat} {f : Nat → Float} (h : ∀ i < n, f i = Scalar.nan) :
    UndefinedBefore ((List.range count).map f) n := by
  intro i x hx hlt
  obtain ⟨hi, rfl⟩ := List.getElem?_eq_some_iff.mp hx
  rw [List.getElem_map, List.getElem_range, h i (by exact_mod_cast hlt)]
  rfl

/-- An operation that keeps a right operand that is not a number keeps the rows without one. -/
theorem zipWith {f : Float → Float → Float} (hf : ∀ x y, y.isNaN = true → (f x y).isNaN = true)
    {xs ys : List Float} {n : ℕ∞} (h : UndefinedBefore ys n) :
    UndefinedBefore (List.zipWith f xs ys) n := by
  intro i z hz hlt
  obtain ⟨x, y, -, hy, rfl⟩ := List.getElem?_zipWith_eq_some.mp hz
  exact hf x y (h i y hy hlt)

end UndefinedBefore

theorem undefinedBefore_simpleAverage (closes : List Float) (period : Nat) :
    UndefinedBefore (simpleAverage closes period)
      (if period = 0 then ⊤ else (period - 1 : Nat)) := by
  rw [simpleAverage]
  by_cases hzero : period = 0
  · rw [if_pos hzero, if_pos hzero]
    exact .undefinedSeries closes ⊤
  · rw [if_neg hzero, if_neg hzero]
    exact .map_range fun i hi => if_pos (by omega)

theorem undefinedBefore_standardDeviation (closes : List Float) (period : Nat) :
    UndefinedBefore (standardDeviation closes period)
      (if period < 2 then ⊤ else (period - 1 : Nat)) := by
  rw [standardDeviation]
  by_cases hsmall : period < 2
  · rw [if_pos hsmall, if_pos hsmall]
    exact .undefinedSeries closes ⊤
  · rw [if_neg hsmall, if_neg hsmall]
    exact .map_range fun i hi => if_pos (by omega)

theorem undefinedBefore_relativeStrength (closes : List Float) (period : Nat) :
    UndefinedBefore (relativeStrength closes period) (if period = 0 then ⊤ else period) := by
  rw [relativeStrength]
  by_cases hundefined : period = 0 ∨ closes.length ≤ period
  · rw [if_pos hundefined]
    exact .undefinedSeries closes _
  · rw [if_neg hundefined, if_neg (fun hzero => hundefined (Or.inl hzero))]
    exact .map_range fun i hi => if_pos hi

/-- No column of an indicator holds a number before its warm-up is over. -/
theorem Indicator.undefinedBefore_column? {closes : List Float} {kind : Indicator} {name : String}
    {values : List Float} (h : kind.column? closes name = some values) :
    UndefinedBefore values (kind.warmUp name) := by
  have hmem : (name, values) ∈ kind.columns closes := mem_of_lookup h
  have houtput : values ∈ kind.outputs closes := (List.of_mem_zip hmem).2
  cases kind with
  | sma period =>
      obtain rfl := List.mem_singleton.mp houtput
      exact undefinedBefore_simpleAverage closes period
  | ema period =>
      obtain rfl := List.mem_singleton.mp houtput
      rw [warmUp, exponentialAverage.eq_def]
      by_cases hzero : period = 0
      · rw [if_pos hzero]
        exact .undefinedSeries closes _
      · rw [if_neg hzero, if_neg hzero]
        exact .zero _
  | rsi period =>
      obtain rfl := List.mem_singleton.mp houtput
      exact undefinedBefore_relativeStrength closes period
  | macd fast slow signal =>
      rw [outputs, macdOutputs] at houtput
      rw [warmUp]
      by_cases hzero : fast = 0 ∨ slow = 0 ∨ signal = 0
      · rw [if_pos hzero] at houtput
        simp only [List.mem_cons, List.not_mem_nil, or_false, or_self] at houtput
        rw [houtput]
        exact .undefinedSeries closes _
      · rw [if_neg hzero]
        exact .zero _
  | bollinger period hundredths =>
      have hdeviation := undefinedBefore_standardDeviation closes period
      simp only [columns, columnNames, outputs, bollingerOutputs, List.zip_cons_cons,
        List.zip_nil_right, List.mem_cons, Prod.mk.injEq, List.not_mem_nil, or_false] at hmem
      -- The outer bands take their warm-up from the deviation, the middle one from the average.
      have hband : name ≠ "bb_middle" → UndefinedBefore (standardDeviation closes period)
          (warmUp name (bollinger period hundredths)) := by
        intro hname
        have hsmall : (period = 0 ∨ (period < 2 ∧ name ≠ "bb_middle")) ↔ period < 2 := by
          simp only [hname, ne_eq, not_false_eq_true, and_true]
          omega
        simp only [warmUp, hsmall]
        exact hdeviation
      rcases hmem with ⟨rfl, rfl⟩ | ⟨rfl, rfl⟩ | ⟨rfl, rfl⟩
      · exact (hband (by decide)).zipWith fun x y hy =>
          Doubles.isNaN_add_right _ (Doubles.isNaN_mul_right _ hy)
      · have haverage := undefinedBefore_simpleAverage closes period
        simpa [warmUp] using haverage
      · exact (hband (by decide)).zipWith fun x y hy =>
          Doubles.isNaN_sub_right _ (Doubles.isNaN_mul_right _ hy)
  | unknown name period => exact .zero _

/-! ## Frames -/

namespace Frame

/-- No column of a frame holds a number before its warm-up is over. -/
theorem undefinedBefore_build {candles : List (Candle Float)} {kinds : List Indicator}
    {name : String} {values : List Float} (h : (build candles kinds).get? name = some values) :
    UndefinedBefore values (warmUp kinds name) := by
  rw [warmUp]
  by_cases hprice : name ∈ priceColumns
  · rw [if_pos hprice]
    exact .zero values
  · rw [get?_build candles kinds hprice, Indicator.findSome?_column?] at h
    rw [if_neg hprice]
    obtain ⟨kind, hkind, hcolumn⟩ := Option.bind_eq_some_iff.mp h
    rw [hkind]
    exact Indicator.undefinedBefore_column? hcolumn

/-- A column that the frame lacks has no warm-up. -/
theorem warmUp_of_missing {candles : List (Candle Float)} {kinds : List Indicator} {name : String}
    (hmissing : (build candles kinds).get? name = none) : warmUp kinds name = 0 := by
  rw [warmUp]
  by_cases hprice : name ∈ priceColumns
  · rw [if_pos hprice]
  · rw [get?_build candles kinds hprice, Indicator.findSome?_column?] at hmissing
    rw [if_neg hprice]
    cases hkind : kinds.reverse.find? fun kind => decide (name ∈ kind.columnNames) with
    | none => rfl
    | some kind =>
        -- An indicator that provides the name has an output under it.
        have hname : name ∈ kind.columnNames := by simpa using List.find?_some hkind
        rw [hkind, Option.bind_some, ← Option.not_isSome_iff_eq_none,
          Indicator.column?_isSome_iff] at hmissing
        exact absurd hname hmissing

variable {candles : List (Candle Float)} {kinds : List Indicator} {i : Nat} {name : String}

/-- A column that is missing or holds a number on a row is warmed up on it. -/
theorem warmUp_le (h : ∀ values, (build candles kinds).get? name = some values →
    ∃ x, values[i]? = some x ∧ x.isNaN = false) : warmUp kinds name ≤ i := by
  cases hcolumn : (build candles kinds).get? name with
  | none =>
      rw [warmUp_of_missing hcolumn]
      exact zero_le
  | some values =>
      obtain ⟨x, hx, hnumber⟩ := h values hcolumn
      rw [← not_lt]
      intro hlt
      rw [undefinedBefore_build hcolumn i x hx hlt] at hnumber
      cases hnumber

/-- A row is ready only after the warm-up of every column that has to be. -/
theorem warmUp_le_of_ready {names : List String}
    (hready : signalAt ((build candles kinds).readyRows names) i = true) (hname : name ∈ names) :
    warmUp kinds name ≤ i :=
  warmUp_le (((build candles kinds).signalAt_readyRows names i).mp hready |>.2 name hname)

/-- A crossing compares the row before, on which both sides must be numbers. -/
theorem isNaN_of_crossing {comparator : Comparator} (hcrossing : comparator.IsCrossing)
    {previous : Option (Float × Float)} {row : Float × Float}
    (hholds : comparator.holds previous row = true) :
    ∃ before, previous = some before ∧ before.1.isNaN = false ∧ before.2.isNaN = false := by
  cases previous with
  | none => rcases hcrossing with rfl | rfl <;> cases hholds
  | some before =>
      refine ⟨before, rfl, ?_⟩
      rcases hcrossing with rfl | rfl
      · rw [Comparator.holds, Bool.and_eq_true, decide_eq_true_iff] at hholds
        exact Doubles.isNaN_of_le hholds.1
      · rw [Comparator.holds, Bool.and_eq_true, decide_eq_true_iff] at hholds
        exact (Doubles.isNaN_of_le hholds.1).symm

/-- A crossing comes at least one row after the warm-up of the columns it reads. -/
theorem warmUp_le_of_crossing {c : Condition Float} (hcrossing : c.comparator.IsCrossing)
    (hholds : signalAt ((build candles kinds).holds c) i = true) (hname : name ∈ c.columns) :
    warmUp kinds name + 1 ≤ i := by
  rw [signalAt_holds _ c rfl, Option.any_eq_true] at hholds
  obtain ⟨row, -, hrow⟩ := hholds
  obtain ⟨before, hbefore, hleft, hright⟩ := isNaN_of_crossing hcrossing hrow
  cases i with
  | zero => cases hbefore
  | succ k =>
      obtain ⟨hleftValue, hrightValue⟩ := List.getElem?_zip_eq_some.mp hbefore
      rw [Nat.cast_succ]
      apply add_le_add_left
      apply warmUp_le
      intro values hvalues
      have hvaluesOf := valuesOf_column _ hvalues
      rcases Condition.mem_columns_iff.mp hname with hside | hside
      · rw [hside, hvaluesOf] at hleftValue
        exact ⟨before.1, hleftValue, hleft⟩
      · rw [hside, hvaluesOf] at hrightValue
        exact ⟨before.2, hrightValue, hright⟩

end Frame

/-! ## Trades -/

/-- What the replay of a strategy reads. -/
def Strategy.tape (strategy : Strategy Float) (candles : List (Candle Float)) : Tape Float :=
  let frame := Frame.build candles strategy.indicators
  { candles := candles
    entry := frame.allHold strategy.entry
    exit := frame.allHold strategy.exit
    ready := frame.readyRows strategy.referencedColumns
    risk := strategy.risk }

/-- A row that enters comes at least one row after the warm-up of what a crossing of the entry
reads. -/
theorem warmUp_le_of_enters {strategy : Strategy Float} {candles : List (Candle Float)} {i : Nat}
    (henters : (strategy.tape candles).Enters i) {c : Condition Float} (hc : c ∈ strategy.entry)
    (hcrossing : c.comparator.IsCrossing) {name : String} (hname : name ∈ c.columns) :
    warmUp strategy.indicators name + 1 ≤ i := by
  have hall : ∀ c ∈ strategy.entry,
      signalAt ((Frame.build candles strategy.indicators).holds c) i = true :=
    (Frame.signalAt_allHold _ (List.ne_nil_of_mem hc) i).mp henters.2.2 |>.2
  exact Frame.warmUp_le_of_crossing hcrossing (hall c hc) hname

/-- Nothing happens during warm-up, whatever the candles and the strategy, be it compiled from a
description or the crossover.  A replay enters and exits only on rows by which every column that
the conditions read is warmed up, and it enters by a crossing at least one row after that.  So a
strategy that reads a column whose warm-up never ends makes no trade. -/
theorem no_trade_during_warm_up (strategy : Strategy Float) (candles : List (Candle Float)) :
    let placed := (strategy.tape candles).placed
    placed.map PlacedTrade.trade = replay candles strategy ∧
    (∀ p ∈ placed,
      (strategy.tape candles).Places p ∧
      (∀ c ∈ strategy.entry ++ strategy.exit, ∀ name ∈ c.columns,
        warmUp strategy.indicators name ≤ p.entryRow ∧
        warmUp strategy.indicators name ≤ p.exitRow) ∧
      (∀ c ∈ strategy.entry, c.comparator.IsCrossing → ∀ name ∈ c.columns,
        warmUp strategy.indicators name + 1 ≤ p.entryRow)) ∧
    ((∃ c ∈ strategy.entry ++ strategy.exit, ∃ name ∈ c.columns,
      warmUp strategy.indicators name = ⊤) → replay candles strategy = []) := by
  intro placed
  have htrades : placed.map PlacedTrade.trade = replay candles strategy :=
    map_trade_placedFrom strategy.risk none 0 _
  have hwarm (p : PlacedTrade Float) (hp : p ∈ placed) (c : Condition Float)
      (hc : c ∈ strategy.entry ++ strategy.exit) (name : String) (hname : name ∈ c.columns) :
      warmUp strategy.indicators name ≤ p.entryRow ∧
        warmUp strategy.indicators name ≤ p.exitRow := by
    have hplaces := Tape.places_of_mem_placed hp
    have hread : name ∈ strategy.referencedColumns :=
      (strategy.mem_referencedColumns_iff name).mpr ⟨c, hc, hname⟩
    exact ⟨Frame.warmUp_le_of_ready hplaces.enters.2.1 hread,
      Frame.warmUp_le_of_ready hplaces.ready hread⟩
  refine ⟨htrades, fun p hp => ?_, ?_⟩
  · have hplaces := Tape.places_of_mem_placed hp
    exact ⟨hplaces, hwarm p hp, fun c hc hcrossing name hname =>
      warmUp_le_of_enters hplaces.enters hc hcrossing hname⟩
  · rintro ⟨c, hc, name, hname, hnever⟩
    rw [← htrades, List.map_eq_nil_iff, List.eq_nil_iff_forall_not_mem]
    intro p hp
    have hentry := (hwarm p hp c hc name hname).1
    rw [hnever] at hentry
    exact absurd hentry (not_le.mpr (ENat.natCast_lt_top p.entryRow))

/-- The slow average over three rows is warmed up on row 2, and the crossing on row 3 enters. -/
example :
    let candles : List (Candle Float) :=
      [3, 2, 1, 4, 1, 1].mapIdx fun row close => ⟨60 * row, close, close, close, close, 1000⟩
    warmUp (Strategy.crossover 2 3 : Strategy Float).indicators "sma_3" = 2 ∧
      ((Strategy.crossover 2 3).tape candles).placed.map (fun p => (p.entryRow, p.exitRow)) =
        [(3, 5)] := by
  constructor
  · rfl
  · rw [Strategy.tape, referencedColumns_crossover_two_three]
    decide +kernel

end Backtester
