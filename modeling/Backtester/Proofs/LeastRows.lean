import Backtester.Proofs.Rows
import Mathlib.Order.Bounds.Basic
import Mathlib.Order.Nat
import Mathlib.Data.Nat.Find

/-!
# Trades as least rows

The trades of a simulation, said without its loop.  From a row on, the next trade opens on the least
row that enters and closes on the least later row that exits; the trade after it is sought from the
row behind the exit.

* `Tape` — what a simulation reads.
* `Tape.Enters` — a row on which a position can be opened.
* `Tape.stopAt` — the stop in force on a row, with the moves of the ready rows before it.
* `FirstExit` — stop, target and signal in their order of precedence.
* `Tape.Closes` — a position opened on one row is closed on another, as a trade.
* `Tape.TradesFrom` — the trades from a row on.
* `simulate_eq_iff_tradesFrom` — a simulation returns exactly these trades.

The loop and the description meet row by row: a row that does not enter changes nothing without a
position, and a row that does not exit turns the position in force on it into the one in force on
the next row.
-/

namespace Backtester

/-- The signal of a row; a row that the series lacks has none. -/
def signalAt (series : List Bool) (row : Nat) : Bool := series.getD row false

/-- What a simulation reads. -/
structure Tape (α : Type) where
  /-- The candles. -/
  candles : List (Candle α)
  /-- The entry conditions hold. -/
  entry : List Bool
  /-- The exit conditions hold. -/
  exit : List Bool
  /-- Every column the conditions read has a value. -/
  ready : List Bool
  /-- The direction and the risk limits. -/
  risk : Risk α

variable {α : Type} [Scalar α]

/-- The first of stop, target and signal that closes a position on a candle, with its price. -/
inductive FirstExit (position : Position α) (candle : Candle α) (signal : Bool) :
    α → ExitReason → Prop
  | stop {price : α} (hprice : position.stop = some price)
      (hstop : position.hitsStop candle.low candle.high = true) :
      FirstExit position candle signal price .stopLoss
  | target {price : α} (hstop : position.hitsStop candle.low candle.high = false)
      (hprice : position.target = some price)
      (htarget : position.hitsTarget candle.low candle.high = true) :
      FirstExit position candle signal price .takeProfit
  | signal (hstop : position.hitsStop candle.low candle.high = false)
      (htarget : position.hitsTarget candle.low candle.high = false) (hsignal : signal = true) :
      FirstExit position candle signal candle.close .signal

namespace Tape

/-- A row on which a position is opened, if none is held. -/
def Enters (t : Tape α) (row : Nat) : Prop :=
  row < t.candles.length ∧ signalAt t.ready row = true ∧ signalAt t.entry row = true

/-- The position opened at the close of a candle. -/
def openedOn (t : Tape α) (candle : Candle α) : Position α :=
  Position.opened candle.time candle.close t.risk.direction t.risk.stopLoss t.risk.takeProfit

/-- The candles of the ready rows strictly between two rows. -/
def readyBetween (t : Tape α) (i j : Nat) : List (Candle α) :=
  ((List.range' (i + 1) (j - (i + 1))).filter (signalAt t.ready)).filterMap fun row =>
    t.candles[row]?

/-- The stop in force on row `j` of the position opened on row `i`: the stop of the opening, moved
on every ready row in between if it trails. -/
def stopAt (t : Tape α) (opening : Candle α) (i j : Nat) : Option α :=
  match t.risk.trailing, t.risk.stopLoss with
  | true, some fraction =>
      ((t.readyBetween i j).foldl (fun position candle =>
        position.trail candle.low candle.high fraction) (t.openedOn opening)).stop
  | _, _ => (t.openedOn opening).stop

/-- The position in force on row `j` that was opened on row `i`; only its stop ever changes. -/
def positionAt (t : Tape α) (opening : Candle α) (i j : Nat) : Position α :=
  { t.openedOn opening with stop := t.stopAt opening i j }

/-- The position opened on row `i` is closed on row `j`, as a trade. -/
inductive Closes (t : Tape α) (i j : Nat) : Trade α → Prop
  | intro {opening closing : Candle α} {price : α} {reason : ExitReason}
      (hopening : t.candles[i]? = some opening) (hlater : i < j)
      (hclosing : t.candles[j]? = some closing) (hready : signalAt t.ready j = true)
      (hexit : FirstExit (t.positionAt opening i j) closing (signalAt t.exit j) price reason) :
      Closes t i j ((t.openedOn opening).closed closing.time price reason)

/-- A row on which the position opened on row `i` is closed, if it is still held. -/
def Exits (t : Tape α) (i j : Nat) : Prop := ∃ trade, t.Closes i j trade

/-- The trades from a row on. -/
inductive TradesFrom (t : Tape α) : Nat → List (Trade α) → Prop
  | unopened {cursor : Nat} (hnever : ∀ i, cursor ≤ i → ¬t.Enters i) : TradesFrom t cursor []
  | unclosed {cursor i : Nat} (hentry : IsLeast {i | cursor ≤ i ∧ t.Enters i} i)
      (hnever : ∀ j, ¬t.Exits i j) : TradesFrom t cursor []
  | closed {cursor i j : Nat} {trade : Trade α} {rest : List (Trade α)}
      (hentry : IsLeast {i | cursor ≤ i ∧ t.Enters i} i) (hexit : IsLeast {j | t.Exits i j} j)
      (htrade : t.Closes i j trade) (hrest : TradesFrom t (j + 1) rest) :
      TradesFrom t cursor (trade :: rest)

/-- The rows of a tape. -/
def rows (t : Tape α) : List (Row α) := rowsOf t.candles t.entry t.exit t.ready

end Tape

/-! ## One exit -/

theorem closing?_eq_some_iff {position : Position α} {row : Row α} {price : α}
    {reason : ExitReason} :
    closing? position row = some (price, reason) ↔
      FirstExit position row.candle row.exit price reason := by
  have hprice : position.hitsStop row.candle.low row.candle.high = true →
      ∃ stop, position.stop = some stop := by
    intro hstop
    cases hnone : position.stop with
    | none => simp [Position.hitsStop, hnone] at hstop
    | some stop => exact ⟨stop, rfl⟩
  have htargetPrice : position.hitsTarget row.candle.low row.candle.high = true →
      ∃ target, position.target = some target := by
    intro htarget
    cases hnone : position.target with
    | none => simp [Position.hitsTarget, hnone] at htarget
    | some target => exact ⟨target, rfl⟩
  constructor
  · intro hclosing
    unfold closing? at hclosing
    cases hstop : position.hitsStop row.candle.low row.candle.high with
    | true =>
        obtain ⟨stop, hsome⟩ := hprice hstop
        simp only [hstop, if_true, hsome, Option.map_some, Option.some.injEq,
          Prod.mk.injEq] at hclosing
        obtain ⟨rfl, rfl⟩ := hclosing
        exact .stop hsome hstop
    | false =>
        cases htarget : position.hitsTarget row.candle.low row.candle.high with
        | true =>
            obtain ⟨target, hsome⟩ := htargetPrice htarget
            simp only [hstop, htarget, Bool.false_eq_true, if_false, if_true, hsome,
              Option.map_some, Option.some.injEq, Prod.mk.injEq] at hclosing
            obtain ⟨rfl, rfl⟩ := hclosing
            exact .target hstop hsome htarget
        | false =>
            cases hsignal : row.exit with
            | true =>
                simp only [hstop, htarget, hsignal, Bool.false_eq_true, if_false, if_true,
                  Option.some.injEq, Prod.mk.injEq] at hclosing
                obtain ⟨rfl, rfl⟩ := hclosing
                exact .signal hstop htarget rfl
            | false => simp [hstop, htarget, hsignal] at hclosing
  · intro hexit
    cases hexit with
    | stop hprice hstop => simp [closing?, hstop, hprice]
    | target hstop hprice htarget => simp [closing?, hstop, htarget, hprice]
    | signal hstop htarget hsignal => simp [closing?, hstop, htarget, hsignal]

/-! ## The position in force -/

namespace Tape

theorem getElem?_rows {α : Type} (t : Tape α) (i : Nat) :
    t.rows[i]? = t.candles[i]?.map fun candle =>
      { candle := candle
        entry := signalAt t.entry i
        exit := signalAt t.exit i
        ready := signalAt t.ready i } :=
  getElem?_rowsOf t.candles t.entry t.exit t.ready i

theorem positionAt_next (t : Tape α) (opening : Candle α) (i : Nat) :
    t.positionAt opening i (i + 1) = t.openedOn opening := by
  have hnone : t.readyBetween i (i + 1) = [] := by simp [readyBetween]
  have hstop : t.stopAt opening i (i + 1) = (t.openedOn opening).stop := by
    unfold stopAt
    rw [hnone]
    split <;> rfl
  rw [positionAt, hstop]

theorem readyBetween_succ {α : Type} (t : Tape α) {i j : Nat} (hlater : i < j) :
    t.readyBetween i (j + 1) = t.readyBetween i j ++
      (if signalAt t.ready j then t.candles[j]?.toList else []) := by
  have hlength : j + 1 - (i + 1) = (j - (i + 1)) + 1 := by omega
  have hlast : i + 1 + (j - (i + 1)) = j := by omega
  rw [readyBetween, hlength, List.range'_1_concat, hlast, List.filter_append,
    List.filterMap_append, readyBetween]
  congr 1
  cases hready : signalAt t.ready j with
  | true => cases hcandle : t.candles[j]? <;> simp [hready, hcandle]
  | false => simp [hready]

/-- Trailing over some candles moves the stop and nothing else. -/
theorem foldl_trail_eq (candles : List (Candle α)) (fraction : α) (position : Position α) :
    candles.foldl (fun p c => p.trail c.low c.high fraction) position =
      { position with
        stop := (candles.foldl (fun p c => p.trail c.low c.high fraction) position).stop } := by
  induction candles generalizing position with
  | nil => rfl
  | cons candle rest ih =>
      rw [List.foldl_cons, ih]
      rfl

theorem positionAt_trailing {t : Tape α} {fraction : α} (htrailing : t.risk.trailing = true)
    (hfraction : t.risk.stopLoss = some fraction) (opening : Candle α) (i j : Nat) :
    t.positionAt opening i j = (t.readyBetween i j).foldl
      (fun p c => p.trail c.low c.high fraction) (t.openedOn opening) := by
  rw [foldl_trail_eq, positionAt, stopAt, htrailing, hfraction]

theorem positionAt_fixed {t : Tape α} (hfixed : t.risk.trailing = false ∨ t.risk.stopLoss = none)
    (opening : Candle α) (i j : Nat) : t.positionAt opening i j = t.openedOn opening := by
  have hstop : t.stopAt opening i j = (t.openedOn opening).stop := by
    rcases hfixed with htrailing | hfraction
    · rw [stopAt, htrailing]
    · cases htrailing : t.risk.trailing <;> rw [stopAt, htrailing, hfraction]
  rw [positionAt, hstop]

theorem held_fixed {risk : Risk α} (hfixed : risk.trailing = false ∨ risk.stopLoss = none)
    (position : Position α) (row : Row α) : held risk position row = position := by
  rcases hfixed with htrailing | hfraction
  · rw [held, htrailing]
  · cases htrailing : risk.trailing <;> rw [held, htrailing, hfraction]

/-- The position in force on the next row is the one held over this row, if the row is ready. -/
theorem positionAt_succ (t : Tape α) (opening : Candle α) {i j : Nat} (hlater : i < j) {row : Row α}
    (hrow : t.rows[j]? = some row) :
    t.positionAt opening i (j + 1) =
      if row.ready then held t.risk (t.positionAt opening i j) row
      else t.positionAt opening i j := by
  have hfixed (h : t.risk.trailing = false ∨ t.risk.stopLoss = none) :
      t.positionAt opening i (j + 1) =
        if row.ready then held t.risk (t.positionAt opening i j) row
        else t.positionAt opening i j := by
    rw [positionAt_fixed h, positionAt_fixed h, held_fixed h, ite_self]
  cases htrailing : t.risk.trailing with
  | false => exact hfixed (Or.inl htrailing)
  | true =>
      cases hfraction : t.risk.stopLoss with
      | none => exact hfixed (Or.inr hfraction)
      | some fraction =>
          rw [getElem?_rows] at hrow
          obtain ⟨candle, hcandle, rfl⟩ := Option.map_eq_some_iff.mp hrow
          rw [positionAt_trailing htrailing hfraction, positionAt_trailing htrailing hfraction,
            readyBetween_succ t hlater, hcandle]
          cases hready : signalAt t.ready j with
          | true => simp [held, htrailing, hfraction]
          | false => simp

/-! ## The loop, row by row -/

/-- The trades from a row on, without a position. -/
def flatFrom (t : Tape α) (row : Nat) : List (Trade α) :=
  replayRows t.risk none (t.rows.drop row)

/-- The trades from row `j` on, with the position that was opened on row `i`. -/
def openFrom (t : Tape α) (opening : Candle α) (i j : Nat) : List (Trade α) :=
  replayRows t.risk (some (t.positionAt opening i j)) (t.rows.drop j)

theorem drop_rows {α : Type} {t : Tape α} {row : Nat} {candle : Candle α}
    (hcandle : t.candles[row]? = some candle) :
    t.rows.drop row =
      { candle := candle
        entry := signalAt t.entry row
        exit := signalAt t.exit row
        ready := signalAt t.ready row } :: t.rows.drop (row + 1) := by
  have hrow := t.getElem?_rows row
  rw [hcandle, Option.map_some] at hrow
  obtain ⟨hlt, hget⟩ := List.getElem?_eq_some_iff.mp hrow
  rw [List.drop_eq_getElem_cons hlt, hget]

theorem drop_rows_end {α : Type} {t : Tape α} {row : Nat} (hend : t.candles.length ≤ row) :
    t.rows.drop row = [] := by
  have hnone : t.rows[row]? = none := by
    rw [getElem?_rows, List.getElem?_eq_none_iff.mpr hend]
    rfl
  exact List.drop_eq_nil_iff.mpr (List.getElem?_eq_none_iff.mp hnone)

/-- A row that does not enter is passed over. -/
theorem flatFrom_skip {t : Tape α} {row : Nat} (hstay : ¬t.Enters row) :
    t.flatFrom row = t.flatFrom (row + 1) := by
  unfold flatFrom
  rcases Nat.lt_or_ge row t.candles.length with hlt | hend
  · rw [drop_rows (List.getElem?_eq_getElem hlt), replayRows_cons]
    cases hready : signalAt t.ready row with
    | false =>
        rw [step_unready rfl]
        rfl
    | true =>
        have hentry : signalAt t.entry row = false := by
          rw [← Bool.not_eq_true]
          exact fun hentry => hstay ⟨hlt, hready, hentry⟩
        rw [step_flat rfl, hentry]
        rfl
  · rw [drop_rows_end hend, drop_rows_end (by omega)]

/-- A row that enters opens a position at its close. -/
theorem flatFrom_enters {t : Tape α} {row : Nat} (henters : t.Enters row) :
    ∃ opening, t.candles[row]? = some opening ∧
      t.flatFrom row = t.openFrom opening row (row + 1) := by
  obtain ⟨hlt, hready, hentry⟩ := henters
  refine ⟨t.candles[row], List.getElem?_eq_getElem hlt, ?_⟩
  rw [flatFrom, drop_rows (List.getElem?_eq_getElem hlt), replayRows_cons, step_flat hready, hentry,
    openFrom, positionAt_next]
  rfl

/-- A row that does not exit hands the position on. -/
theorem openFrom_skip {t : Tape α} {opening : Candle α} {i j : Nat}
    (hopening : t.candles[i]? = some opening) (hlater : i < j) (hstay : ¬t.Exits i j) :
    t.openFrom opening i j = t.openFrom opening i (j + 1) := by
  unfold openFrom
  rcases Nat.lt_or_ge j t.candles.length with hlt | hend
  · have hcandle := List.getElem?_eq_getElem hlt
    have hrow := t.getElem?_rows j
    rw [hcandle, Option.map_some] at hrow
    rw [drop_rows hcandle, replayRows_cons, positionAt_succ t opening hlater hrow]
    cases hready : signalAt t.ready j with
    | false =>
        rw [step_unready rfl]
        rfl
    | true =>
        rw [step_open rfl]
        cases hclosing : closing? (t.positionAt opening i j) _ with
        | none => rfl
        | some closing =>
            exact absurd ⟨_, .intro hopening hlater hcandle hready
              (closing?_eq_some_iff.mp hclosing)⟩ hstay
  · rw [drop_rows_end hend, drop_rows_end (by omega), replayRows, replayRows]

/-- A row that exits closes the position, and the search for the next one starts behind it. -/
theorem openFrom_closes {t : Tape α} {opening : Candle α} {i j : Nat} {trade : Trade α}
    (hopening : t.candles[i]? = some opening) (hcloses : t.Closes i j trade) :
    t.openFrom opening i j = trade :: t.flatFrom (j + 1) := by
  obtain @⟨opening', closing, price, reason, hopening', hlater, hclosing, hready, hexit⟩ := hcloses
  obtain rfl : opening' = opening := Option.some.inj (hopening'.symm.trans hopening)
  rw [openFrom, drop_rows hclosing, replayRows_cons, step_open hready,
    closing?_eq_some_iff.mpr hexit]
  rfl

/-! ## From row to row -/

/-- A value that rows without a property hand on is the value at the first row that has it. -/
theorem eq_of_skipped {β : Type} {f : Nat → β} {P : Nat → Prop} {start row : Nat}
    (hskip : ∀ r, start ≤ r → ¬P r → f r = f (r + 1)) (hle : start ≤ row)
    (hbefore : ∀ r, start ≤ r → r < row → ¬P r) : f start = f row := by
  induction row, hle using Nat.le_induction with
  | base => rfl
  | succ row hle ih =>
      have hprevious : f start = f row := ih fun r hr hlt => hbefore r hr (by omega)
      rw [hprevious]
      exact hskip row hle (hbefore row hle (by omega))

theorem flatFrom_least {t : Tape α} {cursor i : Nat}
    (hentry : IsLeast {i | cursor ≤ i ∧ t.Enters i} i) :
    ∃ opening, t.candles[i]? = some opening ∧
      t.flatFrom cursor = t.openFrom opening i (i + 1) := by
  obtain ⟨opening, hopening, henters⟩ := flatFrom_enters hentry.1.2
  refine ⟨opening, hopening, ?_⟩
  rw [← henters]
  refine eq_of_skipped (P := t.Enters) (fun r _ => flatFrom_skip) hentry.1.1 ?_
  intro r hr hlt hP
  exact Nat.not_le.mpr hlt (hentry.2 ⟨hr, hP⟩)

theorem flatFrom_never {t : Tape α} {cursor : Nat} (hnever : ∀ i, cursor ≤ i → ¬t.Enters i) :
    t.flatFrom cursor = [] := by
  have hskipped : t.flatFrom cursor = t.flatFrom (max cursor t.candles.length) :=
    eq_of_skipped (P := t.Enters) (fun r _ => flatFrom_skip) (le_max_left _ _)
      fun r hr _ => hnever r hr
  rw [hskipped, flatFrom, drop_rows_end (le_max_right _ _), replayRows]

theorem openFrom_least {t : Tape α} {opening : Candle α} {i j : Nat} {trade : Trade α}
    (hopening : t.candles[i]? = some opening) (hexit : IsLeast {j | t.Exits i j} j)
    (htrade : t.Closes i j trade) :
    t.openFrom opening i (i + 1) = trade :: t.flatFrom (j + 1) := by
  have hlater : i < j := by
    cases htrade with
    | intro _ hlater => exact hlater
  rw [← openFrom_closes hopening htrade]
  refine eq_of_skipped (P := t.Exits i) (fun r hr => openFrom_skip hopening hr) hlater ?_
  intro r _ hlt hP
  exact Nat.not_le.mpr hlt (hexit.2 hP)

theorem openFrom_never {t : Tape α} {opening : Candle α} {i : Nat}
    (hopening : t.candles[i]? = some opening) (hnever : ∀ j, ¬t.Exits i j) :
    t.openFrom opening i (i + 1) = [] := by
  have hskipped : t.openFrom opening i (i + 1) =
      t.openFrom opening i (max (i + 1) t.candles.length) :=
    eq_of_skipped (P := t.Exits i) (fun r hr => openFrom_skip hopening hr) (le_max_left _ _)
      fun r _ _ => hnever r
  rw [hskipped, openFrom, drop_rows_end (le_max_right _ _), replayRows]

/-! ## The trades of a tape -/

/-- The description determines the trades. -/
theorem TradesFrom.eq_flatFrom {t : Tape α} {cursor : Nat} {trades : List (Trade α)}
    (h : t.TradesFrom cursor trades) : trades = t.flatFrom cursor := by
  induction h with
  | unopened hnever => exact (flatFrom_never hnever).symm
  | unclosed hentry hnever =>
      obtain ⟨opening, hopening, hflat⟩ := flatFrom_least hentry
      rw [hflat, openFrom_never hopening hnever]
  | closed hentry hexit htrade _ ih =>
      obtain ⟨opening, hopening, hflat⟩ := flatFrom_least hentry
      rw [hflat, openFrom_least hopening hexit htrade, ih]

/-- There are trades that fit the description. -/
theorem exists_tradesFrom (t : Tape α) (cursor : Nat) : ∃ trades, t.TradesFrom cursor trades := by
  classical
  by_cases hentry : ∃ i, cursor ≤ i ∧ t.Enters i
  · have hleast := Nat.isLeast_find hentry
    by_cases hexit : ∃ j, t.Exits (Nat.find hentry) j
    · have hexits := Nat.isLeast_find hexit
      obtain ⟨trade, htrade⟩ := hexits.1
      -- The rest starts behind the exit, so the rows left over are fewer.
      have hlt : cursor ≤ Nat.find hexit ∧ Nat.find hexit < t.candles.length := by
        cases htrade with
        | intro _ hlater hclosing =>
            exact ⟨hleast.1.1.trans hlater.le, (List.getElem?_eq_some_iff.mp hclosing).1⟩
      obtain ⟨rest, hrest⟩ := exists_tradesFrom t (Nat.find hexit + 1)
      exact ⟨_, .closed hleast hexits htrade hrest⟩
    · exact ⟨[], .unclosed hleast (not_exists.mp hexit)⟩
  · exact ⟨[], .unopened fun i hi henters => hentry ⟨i, hi, henters⟩⟩
termination_by t.candles.length - cursor

end Tape

/-- A simulation returns trades that fit the description. -/
theorem tradesFrom_simulate (candles : List (Candle α)) (entry exit ready : List Bool)
    (risk : Risk α) :
    Tape.TradesFrom ⟨candles, entry, exit, ready, risk⟩ 0
      (simulate candles entry exit ready risk) := by
  let t : Tape α := ⟨candles, entry, exit, ready, risk⟩
  have hflat : simulate candles entry exit ready risk = t.flatFrom 0 := rfl
  obtain ⟨trades, htrades⟩ := t.exists_tradesFrom 0
  rw [hflat, ← htrades.eq_flatFrom]
  exact htrades

/-- A simulation returns the trades of least rows and no others, for signal series of any
lengths. -/
theorem simulate_eq_iff_tradesFrom (candles : List (Candle α)) (entry exit ready : List Bool)
    (risk : Risk α) (trades : List (Trade α)) :
    simulate candles entry exit ready risk = trades ↔
      Tape.TradesFrom ⟨candles, entry, exit, ready, risk⟩ 0 trades := by
  constructor
  · rintro rfl
    exact tradesFrom_simulate candles entry exit ready risk
  · intro htrades
    exact htrades.eq_flatFrom.symm

end Backtester
