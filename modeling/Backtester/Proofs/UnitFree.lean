import Backtester.Proofs.Fallback
import Backtester.Proofs.Scaling

/-!
# Trades do not depend on the unit of prices

A strategy whose conditions compare prices with prices, and plain numbers with plain numbers, opens
and closes its positions on the same rows in every unit.

* `columnQuantity?` — what a column of a frame counts, by the last indicator that provides it.
* `Condition.UnitFree` — a condition between prices or between plain numbers; equality up to a fixed
  distance is no condition between prices.
* `Frame.get?_build_scaled` — the frame of candles in another unit.
* `Frame.holds_scaled`, `Frame.readyRows_scaled` — it has the same signals.
* `step_scaled`, `replayRows_scaled` — positions and trades go along with the unit.
* `prices_have_no_unit` — so do the trades of a strategy.
* `rebound`, `reboundCandles` — a strategy with conditions of both kinds, and candles on which it
  trades.
-/

namespace Backtester

open Exact

/-! ## Columns and conditions -/

/-- What the column under a name counts: prices under the names of the four prices, nothing of the
two under the name of the volume, and under any other name what the last indicator that provides the
column says. -/
def columnQuantity? (kinds : List Indicator) (name : String) : Option Quantity :=
  if name = "volume" then none
  else if name ∈ priceColumns then some .price
  else (kinds.reverse.find? fun kind => decide (name ∈ kind.columnNames)).map Indicator.quantity

/-- What an operand counts; a written number has no unit. -/
def Operand.quantity? {α : Type} (kinds : List Indicator) : Operand α → Option Quantity
  | column name => columnQuantity? kinds name
  | literal _ => some .ratio

/-- The unit of prices does not matter to a condition. -/
inductive Condition.UnitFree {α : Type} (kinds : List Indicator) (c : Condition α) : Prop
  /-- Prices are compared with prices, not up to a fixed distance. -/
  | prices (hleft : c.left.quantity? kinds = some .price)
      (hright : c.right.quantity? kinds = some .price) (hcomparator : c.comparator ≠ .eq)
  /-- Numbers without a unit are compared with each other. -/
  | ratios (hleft : c.left.quantity? kinds = some .ratio)
      (hright : c.right.quantity? kinds = some .ratio)

/-! ## Data in another unit -/

/-- A candle with its prices in another unit. -/
noncomputable def Candle.scaled (c : ℝ) (candle : Candle Exact) : Candle Exact :=
  { candle with
    opening := Exact.scaled c candle.opening
    high := Exact.scaled c candle.high
    low := Exact.scaled c candle.low
    close := Exact.scaled c candle.close }

/-- A trade with its prices and its profit in another unit. -/
noncomputable def Trade.scaled (c : ℝ) (t : Trade Exact) : Trade Exact :=
  { t with
    entryPrice := Exact.scaled c t.entryPrice
    exitPrice := Exact.scaled c t.exitPrice
    profit := Exact.scaled c t.profit }

/-- A position with its prices in another unit. -/
noncomputable def Position.scaled (c : ℝ) (p : Position Exact) : Position Exact :=
  { p with
    entryPrice := Exact.scaled c p.entryPrice
    stop := p.stop.map (Exact.scaled c)
    target := p.target.map (Exact.scaled c) }

/-- A row with the prices of its candle in another unit. -/
noncomputable def Row.scaled (c : ℝ) (row : Row Exact) : Row Exact :=
  { row with candle := row.candle.scaled c }

section

variable {c : ℝ} (hc : 0 < c)

/-! ## Positions -/

theorem rowsOf_scaled (candles : List (Candle Exact)) (entry exit ready : List Bool) :
    rowsOf (candles.map (Candle.scaled c)) entry exit ready =
      (rowsOf candles entry exit ready).map (Row.scaled c) := by
  induction candles generalizing entry exit ready with
  | nil => rfl
  | cons candle rest ih => rw [List.map_cons, rowsOf, ih, rowsOf, List.map_cons]; rfl

include hc

namespace Position

theorem opened_scaled (time : ℤ) (price : Exact) (direction : Direction)
    (stopLoss takeProfit : Option Exact) :
    opened time (Exact.scaled c price) direction stopLoss takeProfit =
      (opened time price direction stopLoss takeProfit).scaled c := by
  cases direction <;> simp [opened, Position.scaled, scaled_mul hc, Function.comp_def]

theorem hitsStop_scaled (p : Position Exact) (low high : Exact) :
    (p.scaled c).hitsStop (Exact.scaled c low) (Exact.scaled c high) = p.hitsStop low high := by
  obtain ⟨time, price, direction, stop, target⟩ := p
  cases stop <;> cases direction <;> simp [hitsStop, Position.scaled, hc]

theorem hitsTarget_scaled (p : Position Exact) (low high : Exact) :
    (p.scaled c).hitsTarget (Exact.scaled c low) (Exact.scaled c high) = p.hitsTarget low high := by
  obtain ⟨time, price, direction, stop, target⟩ := p
  cases target <;> cases direction <;> simp [hitsTarget, Position.scaled, hc]

theorem trail_scaled (p : Position Exact) (low high fraction : Exact) :
    (p.scaled c).trail (Exact.scaled c low) (Exact.scaled c high) fraction =
      (p.trail low high fraction).scaled c := by
  obtain ⟨time, price, direction, stop, target⟩ := p
  cases direction <;>
    simp [trail, Position.scaled, Function.comp_def, ← scaled_mul hc, larger_scaled hc,
      smaller_scaled hc]

theorem profitAt_scaled (p : Position Exact) (price : Exact) :
    (p.scaled c).profitAt (Exact.scaled c price) = Exact.scaled c (p.profitAt price) := by
  obtain ⟨time, entryPrice, direction, stop, target⟩ := p
  cases direction <;> simp [profitAt, Position.scaled, scaled_sub hc]

end Position

theorem ofProfit_scaled (profit : Exact) :
    Outcome.ofProfit (Exact.scaled c profit) = Outcome.ofProfit profit := by
  simp [Outcome.ofProfit, hc]

/-- The trade is the same but for its prices and its profit; the percentage is a quotient of two
prices. -/
theorem Position.closed_scaled (p : Position Exact) (time : ℤ) (price : Exact)
    (reason : ExitReason) :
    (p.scaled c).closed time (Exact.scaled c price) reason =
      (p.closed time price reason).scaled c := by
  have hpercent : (if (p.scaled c).entryPrice == 0 then (0 : Exact)
      else Exact.scaled c (p.profitAt price) / (p.scaled c).entryPrice * 100) =
      if p.entryPrice == 0 then 0 else p.profitAt price / p.entryPrice * 100 := by
    show (if Exact.scaled c p.entryPrice == 0 then _
      else _ / Exact.scaled c p.entryPrice * 100) = _
    rw [scaled_beq_zero hc, scaled_div_scaled hc]
  unfold Position.closed
  dsimp only
  rw [p.profitAt_scaled hc, hpercent, ofProfit_scaled hc]
  rfl

/-! ## Rows -/

theorem closing?_scaled (p : Position Exact) (row : Row Exact) :
    closing? (p.scaled c) (row.scaled c) =
      (closing? p row).map fun exit => (Exact.scaled c exit.1, exit.2) := by
  have hstop : (p.scaled c).hitsStop (row.scaled c).candle.low (row.scaled c).candle.high =
      p.hitsStop row.candle.low row.candle.high := p.hitsStop_scaled hc _ _
  have htarget : (p.scaled c).hitsTarget (row.scaled c).candle.low (row.scaled c).candle.high =
      p.hitsTarget row.candle.low row.candle.high := p.hitsTarget_scaled hc _ _
  unfold closing?
  rw [hstop, htarget, apply_ite (Option.map _), apply_ite (Option.map _), apply_ite (Option.map _)]
  simp only [Position.scaled, Row.scaled, Candle.scaled, Option.map_map, Function.comp_def,
    Option.map_some, Option.map_none]
  rfl

theorem held_scaled (risk : Risk Exact) (p : Position Exact) (row : Row Exact) :
    held risk (p.scaled c) (row.scaled c) = (held risk p row).scaled c := by
  unfold held
  split
  · exact p.trail_scaled hc _ _ _
  · rfl

/-- What a row does to a position does not depend on the unit of prices. -/
theorem step_scaled (risk : Risk Exact) (position : Option (Position Exact)) (row : Row Exact) :
    step risk (position.map (Position.scaled c)) (row.scaled c) =
      ((step risk position row).1.map (Position.scaled c),
        (step risk position row).2.map (Trade.scaled c)) := by
  have hkept : (row.scaled c).ready = row.ready ∧ (row.scaled c).entry = row.entry := ⟨rfl, rfl⟩
  cases hready : row.ready with
  | false =>
      rw [step_unready hready, step_unready (hkept.1.trans hready)]
      rfl
  | true =>
      cases position with
      | none =>
          rw [step_flat hready, Option.map_none, step_flat (hkept.1.trans hready), hkept.2]
          have hopened := Position.opened_scaled hc row.candle.time row.candle.close
            risk.direction risk.stopLoss risk.takeProfit
          split
          · exact congrArg (some ·, none) hopened
          · rfl
      | some p =>
          rw [step_open hready, Option.map_some, step_open (hkept.1.trans hready),
            closing?_scaled hc, held_scaled hc]
          cases closing? p row with
          | none => rfl
          | some exit => exact congrArg (none, some ·) (p.closed_scaled hc _ _ _)

theorem replayRows_scaled (risk : Risk Exact) (position : Option (Position Exact))
    (rows : List (Row Exact)) :
    replayRows risk (position.map (Position.scaled c)) (rows.map (Row.scaled c)) =
      (replayRows risk position rows).map (Trade.scaled c) := by
  induction rows generalizing position with
  | nil => rfl
  | cons row rest ih =>
      rw [List.map_cons, replayRows_cons, replayRows_cons, step_scaled hc, ih, List.map_append]
      cases (step risk position row).2 <;> rfl

theorem simulate_scaled (candles : List (Candle Exact)) (entry exit ready : List Bool)
    (risk : Risk Exact) :
    simulate (candles.map (Candle.scaled c)) entry exit ready risk =
      (simulate candles entry exit ready risk).map (Trade.scaled c) := by
  rw [simulate, rowsOf_scaled]
  exact replayRows_scaled hc risk none _

/-! ## Signals -/

/-- A comparison of two prices, other than up to a fixed distance, does not depend on their unit. -/
theorem holds_scaled_prices {comparator : Comparator} (hcomparator : comparator ≠ .eq)
    (previous : Option (Exact × Exact)) (row : Exact × Exact) :
    comparator.holds (previous.map (Prod.map (Exact.scaled c) (Exact.scaled c)))
        (Prod.map (Exact.scaled c) (Exact.scaled c) row) =
      comparator.holds previous row := by
  cases comparator with
  | eq => exact absurd rfl hcomparator
  | gt | lt | ge | le => simp [Comparator.holds, hc]
  | crossesAbove | crossesBelow => cases previous <;> simp [Comparator.holds, hc]

omit hc in
theorem withPrevious_map {β γ : Type} (f : β → γ) (rows : List β) :
    withPrevious (rows.map f) = (withPrevious rows).map (Prod.map (Option.map f) f) := by
  have hbefore : none :: (rows.map f).map some = (none :: rows.map some).map (Option.map f) := by
    simp
  rw [withPrevious, withPrevious, hbefore, List.zip_map]

omit hc in
theorem lookup_map {β γ : Type} (f : β → γ) (columns : List (String × β)) (name : String) :
    (columns.map (Prod.map id f)).lookup name = (columns.lookup name).map f := by
  induction columns with
  | nil => rfl
  | cons column rest ih =>
      rw [List.map_cons, List.lookup_cons, List.lookup_cons, ih]
      show (match name == column.1 with | true => _ | false => _) = _
      cases name == column.1 <;> rfl

theorem Indicator.column?_scaled (closes : List Exact) (name : String) (kind : Indicator) :
    kind.column? (closes.map (Exact.scaled c)) name =
      (kind.column? closes name).map (List.map (kind.quantity.scaled c)) := by
  rw [column?, columns, outputs_scaled hc, List.zip_map_right, lookup_map]
  rfl

namespace Frame

variable {kinds : List Indicator} (candles : List (Candle Exact))

/-- A column of the frame of candles in another unit. -/
theorem get?_build_scaled {name : String} {quantity : Quantity}
    (hquantity : columnQuantity? kinds name = some quantity) :
    (build (candles.map (Candle.scaled c)) kinds).get? name =
      ((build candles kinds).get? name).map (List.map (quantity.scaled c)) := by
  unfold columnQuantity? at hquantity
  split at hquantity
  · cases hquantity
  · next hvolume =>
      split at hquantity
      · next hprice =>
          obtain rfl := Option.some.inj hquantity
          rw [get?_build_price _ _ hprice, get?_build_price _ _ hprice]
          have hnames : name = "open" ∨ name = "high" ∨ name = "low" ∨ name = "close" := by
            simpa [priceColumns, hvolume] using hprice
          rcases hnames with rfl | rfl | rfl | rfl <;>
            simp [get?, ofCandles, List.lookup, Function.comp_def] <;> intros <;> rfl
      · next hname =>
          obtain ⟨kind, hkind, rfl⟩ := Option.map_eq_some_iff.mp hquantity
          have hcloses : (candles.map (Candle.scaled c)).map Candle.close =
              (candles.map Candle.close).map (Exact.scaled c) := by
            rw [List.map_map, List.map_map]
            rfl
          rw [get?_build _ _ hname, get?_build _ _ hname, Indicator.findSome?_column?,
            Indicator.findSome?_column?, hkind, hcloses]
          exact kind.column?_scaled hc _ name

omit hc in
theorem isSome_get?_build {name : String} {quantity : Quantity}
    (hquantity : columnQuantity? kinds name = some quantity) :
    ((build candles kinds).get? name).isSome = true := by
  rw [get?_build_isSome_iff, Strategy.knownColumns, List.mem_eraseDups, List.mem_append]
  unfold columnQuantity? at hquantity
  split at hquantity
  · cases hquantity
  · split at hquantity
    · next hprice => exact Or.inl hprice
    · obtain ⟨kind, hkind, -⟩ := Option.map_eq_some_iff.mp hquantity
      have hname : name ∈ kind.columnNames := by simpa using List.find?_some hkind
      exact Or.inr (List.mem_flatMap.mpr
        ⟨kind, List.mem_reverse.mp (List.mem_of_find?_eq_some hkind), hname⟩)

/-- The values of an operand in another unit. -/
theorem valuesOf_scaled {operand : Operand Exact} {quantity : Quantity}
    (hquantity : operand.quantity? kinds = some quantity) :
    (build (candles.map (Candle.scaled c)) kinds).valuesOf operand =
      ((build candles kinds).valuesOf operand).map (quantity.scaled c) := by
  cases operand with
  | literal value =>
      obtain rfl := Option.some.inj hquantity
      rw [valuesOf, valuesOf, length_build, length_build, List.length_map]
      exact (List.map_id _).symm
  | column name =>
      obtain ⟨values, hvalues⟩ :=
        Option.isSome_iff_exists.mp (isSome_get?_build candles hquantity)
      have hscaled := get?_build_scaled hc candles hquantity
      rw [hvalues] at hscaled
      rw [valuesOf_column _ hvalues, valuesOf_column _ hscaled]

/-- A condition that does not depend on the unit of prices holds on the same rows in any. -/
theorem holds_scaled {condition : Condition Exact} (hfree : condition.UnitFree kinds) :
    (build (candles.map (Candle.scaled c)) kinds).holds condition =
      (build candles kinds).holds condition := by
  unfold holds
  cases hfree with
  | prices hleft hright hcomparator =>
      rw [valuesOf_scaled hc candles hleft, valuesOf_scaled hc candles hright, List.zip_map,
        withPrevious_map, List.map_map]
      exact List.map_congr_left fun rows _ => holds_scaled_prices hc hcomparator rows.1 rows.2
  | ratios hleft hright =>
      rw [valuesOf_scaled hc candles hleft, valuesOf_scaled hc candles hright]
      simp only [Quantity.scaled, List.map_id]

theorem allHold_scaled {conditions : List (Condition Exact)}
    (hfree : ∀ condition ∈ conditions, condition.UnitFree kinds) :
    (build (candles.map (Candle.scaled c)) kinds).allHold conditions =
      (build candles kinds).allHold conditions := by
  unfold allHold
  rw [length_build, length_build, List.length_map, List.foldl_ext]
  intro all condition hcondition
  rw [holds_scaled hc candles (hfree condition hcondition)]

/-- Every row has the same values that are numbers in any unit. -/
theorem readyRows_scaled {names : List String}
    (hquantity : ∀ name ∈ names, ∃ quantity, columnQuantity? kinds name = some quantity) :
    (build (candles.map (Candle.scaled c)) kinds).readyRows names =
      (build candles kinds).readyRows names := by
  have hready (quantity : Quantity) (ready : List Bool) (column : List Exact) :
      List.zipWith (fun r x => r && !Scalar.isNaN x) ready (column.map (quantity.scaled c)) =
        List.zipWith (fun r x => r && !Scalar.isNaN x) ready column := by
    rw [List.zipWith_map_right]
    cases quantity <;> simp [Quantity.scaled, hc]
  unfold readyRows
  rw [length_build, length_build, List.length_map]
  generalize List.replicate candles.length true = ready
  induction names generalizing ready with
  | nil => rfl
  | cons name rest ih =>
      rw [List.forall_mem_cons] at hquantity
      obtain ⟨⟨quantity, hname⟩, hrest⟩ := hquantity
      obtain ⟨values, hvalues⟩ := Option.isSome_iff_exists.mp (isSome_get?_build candles hname)
      have hscaled := get?_build_scaled hc candles hname
      rw [hvalues] at hscaled
      rw [List.filterMap_cons_some hvalues, List.filterMap_cons_some hscaled, List.foldl_cons,
        List.foldl_cons, hready]
      exact ih hrest _

end Frame

end

theorem Condition.UnitFree.exists_quantity {α : Type} {kinds : List Indicator}
    {condition : Condition α} (hfree : condition.UnitFree kinds) {name : String}
    (hname : name ∈ condition.columns) :
    ∃ quantity, columnQuantity? kinds name = some quantity := by
  have hoperand : ∃ operand ∈ [condition.left, condition.right], operand.column? = some name :=
    List.mem_filterMap.mp hname
  have hquantity : ∀ operand ∈ [condition.left, condition.right],
      ∃ quantity, operand.quantity? kinds = some quantity := by
    cases hfree <;> simp [*]
  obtain ⟨operand, hmem, hcolumn⟩ := hoperand
  cases operand with
  | literal value => cases hcolumn
  | column other =>
      obtain rfl := Option.some.inj hcolumn
      exact hquantity _ hmem

/-! ## The trades of a strategy -/

/-- Prices have no unit.  In exact arithmetic, a strategy whose conditions compare prices with
prices (other than up to a fixed distance) and plain numbers with plain numbers makes the same
trades on candles whose prices are all multiplied by one positive number: on the same rows, in the
same direction, for the same reasons and with the same outcomes and percentages, at prices and with
profits multiplied by that number. -/
theorem prices_have_no_unit {c : ℝ} (hc : 0 < c) {strategy : Strategy Exact}
    (hfree : ∀ condition ∈ strategy.entry ++ strategy.exit,
      condition.UnitFree strategy.indicators) (candles : List (Candle Exact)) :
    replay (candles.map (Candle.scaled c)) strategy =
      (replay candles strategy).map (Trade.scaled c) := by
  have hcolumns : ∀ name ∈ strategy.referencedColumns,
      ∃ quantity, columnQuantity? strategy.indicators name = some quantity := by
    intro name hname
    obtain ⟨condition, hcondition, hread⟩ :=
      (Strategy.mem_referencedColumns_iff strategy name).mp hname
    exact (hfree condition hcondition).exists_quantity hread
  have hentry := Frame.allHold_scaled hc candles fun condition hcondition =>
    hfree condition (List.mem_append_left _ hcondition)
  have hexit := Frame.allHold_scaled hc candles fun condition hcondition =>
    hfree condition (List.mem_append_right _ hcondition)
  rw [replay, replay, ← simulate_scaled hc, hentry, hexit,
    Frame.readyRows_scaled hc candles hcolumns]

/-- Buys when the close has turned up without much strength behind it, and sells below the price at
which a candle opened.  A stop trails behind the price. -/
noncomputable def rebound : Strategy Exact :=
  { name := "Rebound"
    indicators := [.rsi 2, .sma 2, .unknown "Typical" none]
    entry := [.ofColumns "close" .crossesAbove "sma_2", ⟨.column "rsi_2", .lt, .literal 70⟩]
    exit := [.ofColumns "typical" .lt "open", ⟨.literal 50, .le, .column "rsi_2"⟩]
    risk := ⟨.long, some (1 / 10), some (1 / 2), true⟩
    entryFallback := false
    exitFallback := false }

/-- Candles of a minute each whose closes turn up twice. -/
noncomputable def reboundCandles : List (Candle Exact) :=
  [⟨0, 20, 20, 20, 20, 1000⟩, ⟨60, 20, 20, 16, 16, 1000⟩, ⟨120, 16, 18, 16, 18, 1000⟩,
    ⟨180, 18, 25, 18, 24, 1000⟩, ⟨240, 24, 24, 22, 22, 1000⟩, ⟨300, 22, 24, 22, 24, 1000⟩,
    ⟨360, 25, 26, 23, 23, 1000⟩]

theorem referencedColumns_rebound :
    rebound.referencedColumns = ["close", "open", "rsi_2", "sma_2", "typical"] := by
  have hread : (rebound.entry ++ rebound.exit).flatMap Condition.columns =
      ["close", "sma_2", "rsi_2", "typical", "open", "rsi_2"] := rfl
  have hsorted : (["close", "sma_2", "rsi_2", "typical", "open", "rsi_2"].mergeSort
      fun a b => decide (a ≤ b)) = ["close", "open", "rsi_2", "rsi_2", "sma_2", "typical"] := by
    simp [List.mergeSort, List.MergeSort.Internal.splitInTwo]
  rw [Strategy.referencedColumns, hread, hsorted]
  decide

theorem rebound_unitFree {condition : Condition Exact}
    (hcondition : condition ∈ rebound.entry ++ rebound.exit) :
    condition.UnitFree rebound.indicators := by
  simp only [rebound, List.cons_append, List.nil_append, List.mem_cons, List.not_mem_nil,
    or_false] at hcondition
  rcases hcondition with rfl | rfl | rfl | rfl
  · exact .prices rfl rfl (by decide)
  · exact .ratios rfl rfl
  · exact .prices rfl rfl (by decide)
  · exact .ratios rfl rfl

-- The order of real numbers cannot be decided, so averages, signals and trades are computed here by
-- rewriting and not by running the definitions.

theorem simpleAverage_rebound :
    simpleAverage (reboundCandles.map Candle.close) 2 =
      [nan, number 18, number 17, number 21, number 23, number 23, number (47 / 2)] := by
  have hnan : (Scalar.nan : Exact) = nan := rfl
  simp [reboundCandles, simpleAverage, List.range_succ, window, numeral_eq_number, sum_pair_number,
    number_div, hnan]
  norm_num

theorem relativeStrength_rebound :
    relativeStrength (reboundCandles.map Candle.close) 2 =
      [nan, nan, number (100 / 3), number 100, number 75, number 50, number (200 / 3)] := by
  have hnan : (Scalar.nan : Exact) = nan := rfl
  simp [reboundCandles, relativeStrength, changes, rise, fall, strengthIndex, List.range_succ,
    window, numeral_eq_number, hnan]
  norm_num [number_neg, sum_pair_number, number_div, number_beq]

/-- The rows with an entry signal, with an exit signal and with a value in every column. -/
theorem signals_rebound :
    let frame := Frame.build reboundCandles rebound.indicators
    frame.allHold rebound.entry = [false, false, true, false, false, true, false] ∧
    frame.allHold rebound.exit = [false, false, false, false, true, false, true] ∧
    frame.readyRows rebound.referencedColumns = [false, false, true, true, true, true, true] := by
  intro frame
  have hlength : frame.length = 7 := Frame.length_build _ _
  have hopen : frame.get? "open" = some (reboundCandles.map Candle.opening) :=
    Frame.get?_build_price _ _ (by decide)
  have hclose : frame.get? "close" = some (reboundCandles.map Candle.close) :=
    Frame.get?_build_price _ _ (by decide)
  have htypical : frame.get? "typical" = some (reboundCandles.map Candle.close) :=
    Frame.get?_build _ _ (by decide)
  have haverage : frame.get? "sma_2" = some (simpleAverage (reboundCandles.map Candle.close) 2) :=
    Frame.get?_build _ _ (by decide)
  have hstrength : frame.get? "rsi_2" =
      some (relativeStrength (reboundCandles.map Candle.close) 2) := Frame.get?_build _ _ (by decide)
  rw [simpleAverage_rebound] at haverage
  rw [relativeStrength_rebound] at hstrength
  rw [referencedColumns_rebound]
  -- From here on only these columns of the frame matter.
  clear_value frame
  refine ⟨?_, ?_, ?_⟩
  · simp [Frame.allHold, Frame.holds, rebound, Frame.valuesOf, Condition.ofColumns, hlength, hclose,
      haverage, hstrength, reboundCandles, withPrevious, Comparator.holds, numeral_eq_number,
      number_le, not_nan_lt, not_le_nan]
    norm_num
  · simp [Frame.allHold, Frame.holds, rebound, Frame.valuesOf, Condition.ofColumns, hlength, hopen,
      htypical, hstrength, reboundCandles, withPrevious, Comparator.holds, numeral_eq_number,
      number_le, not_le_nan]
    norm_num
  · simp [Frame.readyRows, hlength, hopen, hclose, haverage, hstrength, htypical, reboundCandles,
      numeral_eq_number, Scalar.isNaN]

theorem replay_rebound :
    replay reboundCandles rebound =
      [⟨120, 240, number 18, number (45 / 2), number (9 / 2), number 25, .long, .win, .stopLoss⟩,
        ⟨300, 360, number 24, number 23, number (-1), number (-25 / 6), .long, .loss, .signal⟩] := by
  obtain ⟨hentry, hexit, hready⟩ := signals_rebound
  rw [replay, hentry, hexit, hready]
  simp [reboundCandles, rebound, simulate, rowsOf, replayRows, step, closing?, held, Position.opened,
    Position.hitsStop, Position.hitsTarget, Position.trail, Position.closed, Position.profitAt,
    Outcome.ofProfit, Scalar.larger, Scalar.isNaN, numeral_eq_number]
  norm_num [number_le, number_neg, number_div, number_beq]

/-- Prices counted in hundredths.  The strategy makes two trades: one is closed with a profit at a
stop that has trailed behind the price, the other with a loss by the exit conditions. -/
theorem prices_have_no_unit_hundredths :
    (0 : ℝ) < 100 ∧
    (∀ condition ∈ rebound.entry ++ rebound.exit, condition.UnitFree rebound.indicators) ∧
    replay reboundCandles rebound =
      [⟨120, 240, number 18, number (45 / 2), number (9 / 2), number 25, .long, .win, .stopLoss⟩,
        ⟨300, 360, number 24, number 23, number (-1), number (-25 / 6), .long, .loss, .signal⟩] ∧
    replay (reboundCandles.map (Candle.scaled 100)) rebound =
      [⟨120, 240, number 1800, number 2250, number 450, number 25, .long, .win, .stopLoss⟩,
        ⟨300, 360, number 2400, number 2300, number (-100), number (-25 / 6), .long, .loss,
          .signal⟩] := by
  refine ⟨by norm_num, fun _ => rebound_unitFree, replay_rebound, ?_⟩
  rw [prices_have_no_unit (by norm_num) (fun _ => rebound_unitFree) reboundCandles, replay_rebound]
  norm_num [Trade.scaled]

end Backtester
