import Backtester.Replay

/-!
# Rows and steps

What a simulation reads on a row, and what one row does to a position.

* `getElem?_rowsOf` — a row holds the candle and the three signals of its index; a signal that its
  series lacks is false.
* `step_unready`, `step_flat`, `step_open` — the three cases of a step.
-/

namespace Backtester

theorem getElem?_rowsOf {α : Type} (candles : List (Candle α)) (entry exit ready : List Bool)
    (i : Nat) :
    (rowsOf candles entry exit ready)[i]? = candles[i]?.map fun candle =>
      { candle := candle
        entry := entry.getD i false
        exit := exit.getD i false
        ready := ready.getD i false } := by
  have hhead (series : List Bool) : series.headD false = series.getD 0 false := by
    cases series <;> rfl
  have htail (series : List Bool) (i : Nat) :
      series.tail.getD i false = series.getD (i + 1) false := by
    cases series <;> rfl
  induction candles generalizing entry exit ready i with
  | nil => simp [rowsOf]
  | cons candle rest ih =>
      cases i with
      | zero =>
          rw [rowsOf, hhead, hhead, hhead]
          rfl
      | succ i =>
          rw [rowsOf, List.getElem?_cons_succ, ih, List.getElem?_cons_succ]
          simp only [htail]

theorem rowsOf_take {α : Type} (candles : List (Candle α)) (entry exit ready : List Bool)
    (k : Nat) :
    rowsOf (candles.take k) (entry.take k) (exit.take k) (ready.take k) =
      (rowsOf candles entry exit ready).take k := by
  have hcut (series : List Bool) {i : Nat} (hi : i < k) :
      (series.take k).getD i false = series.getD i false := by
    rw [List.getD_eq_getElem?_getD, List.getElem?_take_of_lt hi, List.getD_eq_getElem?_getD]
  apply List.ext_getElem?
  intro i
  rw [getElem?_rowsOf, List.getElem?_take, List.getElem?_take]
  by_cases hi : i < k
  · rw [if_pos hi, if_pos hi, getElem?_rowsOf, hcut entry hi, hcut exit hi, hcut ready hi]
  · rw [if_neg hi, if_neg hi]
    rfl

variable {α : Type} [Scalar α]

/-! ## One step -/

/-- A row that is not ready leaves everything as it is. -/
theorem step_unready {risk : Risk α} {position : Option (Position α)} {row : Row α}
    (hready : row.ready = false) : step risk position row = (position, none) := by
  simp [step, hready]

/-- Without a position, a ready row opens one where the entry signal holds. -/
theorem step_flat {risk : Risk α} {row : Row α} (hready : row.ready = true) :
    step risk none row =
      (if row.entry then
        some (Position.opened row.candle.time row.candle.close risk.direction risk.stopLoss
          risk.takeProfit)
      else none, none) := by
  simp only [step, hready, Bool.not_true, Bool.false_eq_true, if_false]
  split <;> rfl

/-- With a position, a ready row closes it or holds it. -/
theorem step_open {risk : Risk α} {position : Position α} {row : Row α}
    (hready : row.ready = true) :
    step risk (some position) row =
      match closing? position row with
      | some (price, reason) => (none, some (position.closed row.candle.time price reason))
      | none => (some (held risk position row), none) := by
  cases hclosing : closing? position row with
  | none => simp [step, hready, hclosing]
  | some closing => simp [step, hready, hclosing]

theorem replayRows_cons (risk : Risk α) (position : Option (Position α)) (row : Row α)
    (rest : List (Row α)) :
    replayRows risk position (row :: rest) =
      (step risk position row).2.toList ++ replayRows risk (step risk position row).1 rest := by
  rw [replayRows]
  rcases step risk position row with ⟨next, closed⟩
  cases closed with
  | none => rfl
  | some trade => rfl

/-- A trade closed on a row carries the row's time. -/
theorem exitTime_of_step {risk : Risk α} {position : Option (Position α)} {row : Row α}
    {trade : Trade α} (hclosed : (step risk position row).2 = some trade) :
    trade.exitTime = row.candle.time := by
  cases hready : row.ready with
  | false => simp [step_unready hready] at hclosed
  | true =>
      cases position with
      | none => simp [step_flat hready] at hclosed
      | some position =>
          rw [step_open hready] at hclosed
          split at hclosed
          · obtain rfl := Option.some.inj hclosed
            rfl
          · exact absurd hclosed.symm (Option.some_ne_none trade)

end Backtester
