import Backtester.Proofs.Past
import Backtester.Proofs.Rows
import Mathlib.Data.List.ReduceOption

/-!
# Closings row by row

A run closes at most one trade on a row.  `closings` lists what each row closes, so that a trade has
a row even where several candles carry one time.

* `replay_eq_reduceOption_closings` — the trades of a run are its closings in the order of rows.
* `closings_take` — what the first `k` rows close depends on the first `k` candles only.
* `exitTime_of_closings` — a trade closed on a row carries the time of that row.
-/

namespace Backtester

variable {α : Type} [Scalar α]

/-- What each of some rows closes, from a position held before them. -/
def closingsFrom (risk : Risk α) : Option (Position α) → List (Row α) → List (Option (Trade α))
  | _, [] => []
  | position, row :: rest =>
      (step risk position row).2 :: closingsFrom risk (step risk position row).1 rest

/-- What each row of a candle series closes under a strategy. -/
def closings (candles : List (Candle α)) (strategy : Strategy α) : List (Option (Trade α)) :=
  let frame := Frame.build candles strategy.indicators
  closingsFrom strategy.risk none
    (rowsOf candles (frame.allHold strategy.entry) (frame.allHold strategy.exit)
      (frame.readyRows strategy.referencedColumns))

theorem replayRows_eq_reduceOption (risk : Risk α) (position : Option (Position α))
    (rows : List (Row α)) :
    replayRows risk position rows = (closingsFrom risk position rows).reduceOption := by
  -- Row by row, from whatever position is held.
  induction rows generalizing position with
  | nil => rfl
  | cons row rest ih =>
      rw [replayRows, closingsFrom]
      rcases step risk position row with ⟨next, closed⟩
      cases closed with
      | none => rw [List.reduceOption_cons_of_none, ← ih]
      | some trade => rw [List.reduceOption_cons_of_some, ← ih]

theorem replay_eq_reduceOption_closings (candles : List (Candle α)) (strategy : Strategy α) :
    replay candles strategy = (closings candles strategy).reduceOption :=
  replayRows_eq_reduceOption _ _ _

theorem closingsFrom_take (risk : Risk α) (position : Option (Position α)) (rows : List (Row α))
    (k : Nat) :
    closingsFrom risk position (rows.take k) = (closingsFrom risk position rows).take k := by
  induction rows generalizing position k with
  | nil => simp [closingsFrom]
  | cons row rest ih =>
      cases k with
      | zero => simp [closingsFrom]
      | succ k => simp only [closingsFrom, List.take_succ_cons, ih]

/-- What the first rows close depends on the first candles only. -/
theorem closings_take (candles : List (Candle α)) (strategy : Strategy α) (k : Nat) :
    closings (candles.take k) strategy = (closings candles strategy).take k := by
  simp only [closings, Frame.build_take, Frame.allHold_take, Frame.readyRows_take, rowsOf_take,
    closingsFrom_take]

theorem exitTime_of_closingsFrom {risk : Risk α} {position : Option (Position α)}
    {rows : List (Row α)} {i : Nat} {trade : Trade α}
    (hclosed : (closingsFrom risk position rows)[i]? = some (some trade)) :
    ∃ row, rows[i]? = some row ∧ trade.exitTime = row.candle.time := by
  induction rows generalizing position i with
  | nil => simp [closingsFrom] at hclosed
  | cons row rest ih =>
      cases i with
      | zero =>
          rw [closingsFrom, List.getElem?_cons_zero, Option.some.injEq] at hclosed
          exact ⟨row, rfl, exitTime_of_step hclosed⟩
      | succ i =>
          rw [closingsFrom, List.getElem?_cons_succ] at hclosed
          exact ih hclosed

/-- A trade closed on a row carries the row's time. -/
theorem exitTime_of_closings {candles : List (Candle α)} {strategy : Strategy α} {i : Nat}
    {trade : Trade α} (hclosed : (closings candles strategy)[i]? = some (some trade)) :
    (candles.map Candle.time)[i]? = some trade.exitTime := by
  obtain ⟨row, hget, htime⟩ := exitTime_of_closingsFrom hclosed
  rw [getElem?_rowsOf] at hget
  obtain ⟨candle, hcandle, rfl⟩ := Option.map_eq_some_iff.mp hget
  rw [List.getElem?_map, hcandle, htime]
  rfl

end Backtester
