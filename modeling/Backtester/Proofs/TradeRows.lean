import Backtester.Proofs.RowSignals

/-!
# Trades with their rows

A replay forgets on which rows it opened and closed its trades.  Noting these rows beside the
position changes nothing about the trades.

* `PlacedTrade` — a trade with the rows of its entry and its exit.
* `placedFrom`, `Tape.placed` — the loop of a simulation, with the rows noted.
* `map_trade_placedFrom` — without the rows, its trades are those of the simulation.
* `Tape.Places` — the rows are those on which the trade was opened and closed.
* `Tape.places_of_mem_placed` — this is so for every trade of a simulation.
-/

namespace Backtester

/-- A trade with the rows on which it was opened and closed. -/
structure PlacedTrade (α : Type) where
  /-- The row of the entry. -/
  entryRow : Nat
  /-- The row of the exit. -/
  exitRow : Nat
  /-- The trade. -/
  trade : Trade α

variable {α : Type}

namespace Tape

/-- A position was opened on a row: a ready one with an entry signal, at its close. -/
structure OpenedOn (t : Tape α) (row : Nat) (position : Position α) : Prop where
  enters : t.Enters row
  candle : ∃ opening, t.candles[row]? = some opening ∧ position.entryTime = opening.time ∧
    position.entryPrice = opening.close

/-- The rows of a placed trade are those on which it was opened and closed. -/
structure Places (t : Tape α) (p : PlacedTrade α) : Prop where
  /-- The entry comes first. -/
  order : p.entryRow < p.exitRow
  /-- The entry is on a ready row with an entry signal. -/
  enters : t.Enters p.entryRow
  /-- The trade was opened at the close of the entry row. -/
  opening : ∃ opening, t.candles[p.entryRow]? = some opening ∧ p.trade.entryTime = opening.time ∧
    p.trade.entryPrice = opening.close
  /-- The exit is on a ready row. -/
  ready : signalAt t.ready p.exitRow = true
  /-- The trade was closed on the exit row. -/
  closing : ∃ closing, t.candles[p.exitRow]? = some closing ∧ p.trade.exitTime = closing.time

end Tape

variable [Scalar α]

/-- The trades closed on the rows from number `n` on, with their rows.  A position held before
them comes with the row of its entry. -/
def placedFrom (risk : Risk α) : (held : Option (Nat × Position α)) → (n : Nat) → List (Row α) →
    List (PlacedTrade α)
  | _, _, [] => []
  | held, n, row :: rest =>
      let entryRow := (held.map Prod.fst).getD n
      let after := step risk (held.map Prod.snd) row
      (after.2.map (PlacedTrade.mk entryRow n)).toList ++
        placedFrom risk (after.1.map (Prod.mk entryRow)) (n + 1) rest

omit [Scalar α] in
theorem map_snd_map_mk (entryRow : Nat) (position : Option (Position α)) :
    (position.map (Prod.mk entryRow)).map Prod.snd = position := by
  cases position with
  | none => rfl
  | some position => rfl

/-- Noting the rows changes no trade. -/
theorem map_trade_placedFrom (risk : Risk α) (held : Option (Nat × Position α)) (n : Nat)
    (rows : List (Row α)) :
    (placedFrom risk held n rows).map PlacedTrade.trade =
      replayRows risk (held.map Prod.snd) rows := by
  induction rows generalizing held n with
  | nil => rfl
  | cons row rest ih =>
      rw [placedFrom, replayRows_cons, List.map_append, ih, map_snd_map_mk]
      congr 1
      cases (step risk (held.map Prod.snd) row).2 <;> rfl

/-- What a row closes is the first of the trades from it on. -/
theorem head_placedFrom {risk : Risk α} {held : Option (Nat × Position α)} {row : Row α}
    {trade : Trade α} (hclosed : (step risk (held.map Prod.snd) row).2 = some trade) (n : Nat)
    (rest : List (Row α)) :
    (placedFrom risk held n (row :: rest)).head? =
      some ⟨(held.map Prod.fst).getD n, n, trade⟩ := by
  rw [placedFrom, hclosed]
  rfl

/-- A row that closes nothing is passed over. -/
theorem placedFrom_skip {risk : Risk α} {held : Option (Nat × Position α)} {row : Row α}
    (hopen : (step risk (held.map Prod.snd) row).2 = none) (n : Nat) (rest : List (Row α)) :
    placedFrom risk held n (row :: rest) =
      placedFrom risk ((step risk (held.map Prod.snd) row).1.map
        (Prod.mk ((held.map Prod.fst).getD n))) (n + 1) rest := by
  rw [placedFrom, hopen]
  rfl

/-! ## One step -/

/-- A position held after a row was opened on it, or it is the one held before. -/
theorem step_holds {risk : Risk α} {position : Option (Position α)} {row : Row α}
    {after : Position α} (hafter : (step risk position row).1 = some after) :
    (position = none ∧ row.ready = true ∧ row.entry = true ∧
        after.entryTime = row.candle.time ∧ after.entryPrice = row.candle.close) ∨
      ∃ before, position = some before ∧ after.entryTime = before.entryTime ∧
        after.entryPrice = before.entryPrice := by
  cases hready : row.ready with
  | false =>
      rw [step_unready hready] at hafter
      exact Or.inr ⟨after, hafter, rfl, rfl⟩
  | true =>
      cases position with
      | none =>
          rw [step_flat hready] at hafter
          cases hentry : row.entry with
          | false => simp [hentry] at hafter
          | true =>
              rw [hentry, if_pos rfl] at hafter
              obtain rfl := Option.some.inj hafter
              exact Or.inl ⟨rfl, rfl, rfl, rfl, rfl⟩
      | some before =>
          rw [step_open hready] at hafter
          split at hafter
          · cases hafter
          · obtain rfl := Option.some.inj hafter
            refine Or.inr ⟨before, rfl, ?_⟩
            unfold held
            split
            · exact ⟨rfl, rfl⟩
            · exact ⟨rfl, rfl⟩

/-- A trade is closed on a ready row, and it is that of the position held before. -/
theorem step_closes {risk : Risk α} {position : Option (Position α)} {row : Row α}
    {trade : Trade α} (htrade : (step risk position row).2 = some trade) :
    row.ready = true ∧ trade.exitTime = row.candle.time ∧
      ∃ before, position = some before ∧ trade.entryTime = before.entryTime ∧
        trade.entryPrice = before.entryPrice := by
  have htime := exitTime_of_step htrade
  cases hready : row.ready with
  | false => simp [step_unready hready] at htrade
  | true =>
      cases position with
      | none => simp [step_flat hready] at htrade
      | some before =>
          rw [step_open hready] at htrade
          split at htrade
          · obtain rfl := Option.some.inj htrade
            exact ⟨rfl, htime, before, rfl, rfl, rfl⟩
          · cases htrade

/-! ## All rows -/

namespace Tape

/-- The trades of a simulation, with their rows. -/
def placed (t : Tape α) : List (PlacedTrade α) := placedFrom t.risk none 0 t.rows

/-- A row of a tape, with its candle. -/
def row (t : Tape α) (n : Nat) (candle : Candle α) : Row α :=
  { candle := candle
    entry := signalAt t.entry n
    exit := signalAt t.exit n
    ready := signalAt t.ready n }

/-- A position held before row `n` was opened on an earlier row. -/
def HeldSince (t : Tape α) (held : Option (Nat × Position α)) (n : Nat) : Prop :=
  ∀ i position, held = some (i, position) → i < n ∧ t.OpenedOn i position

section

variable {t : Tape α} {held : Option (Nat × Position α)} {n : Nat} {candle : Candle α}

/-- What a row leaves of a position was opened on this row or on the one noted for it. -/
theorem HeldSince.next (h : t.HeldSince held n) (hcandle : t.candles[n]? = some candle) :
    t.HeldSince ((step t.risk (held.map Prod.snd) (t.row n candle)).1.map
      (Prod.mk ((held.map Prod.fst).getD n))) (n + 1) := by
  intro i after hafter
  obtain ⟨after', hstep, hpair⟩ := Option.map_eq_some_iff.mp hafter
  obtain ⟨rfl, rfl⟩ := Prod.mk.inj hpair
  rcases step_holds hstep with ⟨hnone, hready, hentry, htime, hprice⟩ |
    ⟨before, hbefore, htime, hprice⟩
  · obtain rfl := Option.map_eq_none_iff.mp hnone
    have hlt := (List.getElem?_eq_some_iff.mp hcandle).1
    exact ⟨Nat.lt_succ_self n, ⟨hlt, hready, hentry⟩, candle, hcandle, htime, hprice⟩
  · obtain ⟨⟨j, before'⟩, rfl, rfl⟩ := Option.map_eq_some_iff.mp hbefore
    obtain ⟨hlt, henters, opening, hopening, htime', hprice'⟩ := h j before' rfl
    exact ⟨Nat.lt_succ_of_lt hlt, henters, opening, hopening, htime.trans htime',
      hprice.trans hprice'⟩

/-- A trade closed on a row has this row as its exit and the noted one as its entry. -/
theorem HeldSince.places (h : t.HeldSince held n) (hcandle : t.candles[n]? = some candle)
    {trade : Trade α}
    (htrade : (step t.risk (held.map Prod.snd) (t.row n candle)).2 = some trade) :
    t.Places ⟨(held.map Prod.fst).getD n, n, trade⟩ := by
  obtain ⟨hready, hexit, before, hbefore, htime, hprice⟩ := step_closes htrade
  obtain ⟨⟨i, before'⟩, rfl, rfl⟩ := Option.map_eq_some_iff.mp hbefore
  obtain ⟨hlt, henters, opening, hopening, htime', hprice'⟩ := h i before' rfl
  exact
    { order := hlt
      enters := henters
      opening := ⟨opening, hopening, htime.trans htime', hprice.trans hprice'⟩
      ready := hready
      closing := ⟨candle, hcandle, hexit⟩ }

theorem places_of_mem_placedFrom (hheld : t.HeldSince held n) {p : PlacedTrade α}
    (hp : p ∈ placedFrom t.risk held n (t.rows.drop n)) : t.Places p := by
  -- Row by row; what is left of the rows stays an end of all of them.
  generalize hrest : t.rows.drop n = rest at hp
  induction rest generalizing held n with
  | nil => cases hp
  | cons row rest ih =>
      cases hcandle : t.candles[n]? with
      | none =>
          rw [drop_rows_end (List.getElem?_eq_none_iff.mp hcandle)] at hrest
          cases hrest
      | some candle =>
          obtain ⟨rfl, hnext⟩ := List.cons.inj ((drop_rows hcandle).symm.trans hrest)
          rw [placedFrom, List.mem_append] at hp
          rcases hp with hclosed | hlater
          · obtain ⟨trade, htrade, rfl⟩ := Option.map_eq_some_iff.mp (Option.mem_toList.mp hclosed)
            exact hheld.places hcandle htrade
          · exact ih (hheld.next hcandle) hnext hlater

end

/-- Every trade of a simulation is placed on the rows it was opened and closed on. -/
theorem places_of_mem_placed {t : Tape α} {p : PlacedTrade α} (hp : p ∈ t.placed) :
    t.Places p := by
  have hnone : t.HeldSince none 0 := by
    rintro i position ⟨⟩
  exact places_of_mem_placedFrom hnone (n := 0) hp

end Tape

end Backtester
