import Backtester.Proofs.StopLevels
import Backtester.Proofs.TradeRows

/-!
# A stop that trails

The same rows are replayed twice, once with the stop where the opening put it and once with the stop
trailing.  Up to the first exit with the trailing stop both runs hold the same position apart from
its stop, so that exit does not come after the one with the fixed stop.

* `Abreast` — two runs side by side, the stop of the second one moved.
* `Abreast.step` — after a row they still are, or the second run has closed its position on it.
* `Abreast.exits_no_later` — so the first exit of the second run comes no later.
* `Abreast.exited_or_rel` — and up to it the second run holds what the first one does, tightened.
* `Tape.heldBefore` — the position that a run holds before a row.
* `Tape.ratcheted_of_heldBefore` — its stop is that of the opening, moved towards the price.
* `trailing_stop_exits_no_later` — the comparison of the two runs.
-/

namespace Backtester

/-! ## Two runs side by side -/

section

variable {α : Type} [Scalar α] {risk : Risk α} {row : Row α} {n : Nat}
  {held held' : Option (Nat × Position α)}

/-- The position that some rows leave of a position held before them. -/
def heldAfter (risk : Risk α) (position : Option (Position α)) (rows : List (Row α)) :
    Option (Position α) :=
  rows.foldl (fun position row => (step risk position row).1) position

/-- Two runs side by side: without a position, or with one from the same row whose stop the second
run has moved towards the price. -/
inductive Abreast : (held held' : Option (Nat × Position α)) → Prop
  | flat : Abreast none none
  | both {i : Nat} {p q : Position α} (h : p.TightenedTo q) : Abreast (some (i, p)) (some (i, q))

theorem Abreast.rel (h : Abreast held held') :
    Option.Rel Position.TightenedTo (held.map Prod.snd) (held'.map Prod.snd) := by
  cases h with
  | flat => exact .none
  | both h => exact .some h

/-- A row on which no trade is closed leaves a held position held. -/
theorem exists_held_of_step {position : Position α}
    (hopen : (step risk (some position) row).2 = none) :
    ∃ after, (step risk (some position) row).1 = some after := by
  cases hready : row.ready with
  | false => exact ⟨position, by rw [step_unready hready]⟩
  | true =>
      rw [step_open hready] at hopen ⊢
      split at hopen
      · cases hopen
      · exact ⟨_, rfl⟩

/-- The next trade of a held position has the row of its entry, and does not lie behind. -/
theorem rows_of_head_placedFrom {i : Nat} {position : Position α} {rows : List (Row α)}
    {p : PlacedTrade α} (hp : p ∈ (placedFrom risk (some (i, position)) n rows).head?) :
    p.entryRow = i ∧ n ≤ p.exitRow := by
  induction rows generalizing n position with
  | nil => cases hp
  | cons row rest ih =>
      cases hclosed : (step risk (some position) row).2 with
      | some trade =>
          rw [head_placedFrom hclosed] at hp
          obtain rfl := Option.some.inj hp
          exact ⟨rfl, Nat.le_refl n⟩
      | none =>
          obtain ⟨after, hafter⟩ := exists_held_of_step hclosed
          rw [placedFrom_skip hclosed] at hp
          dsimp only [Option.map_some] at hp
          rw [hafter] at hp
          obtain ⟨hentry, hexit⟩ := ih hp
          exact ⟨hentry, Nat.le_of_succ_le hexit⟩

variable [OrderedScalar α]

/-- After a row the runs are side by side again, or the second one has closed its position on it. -/
theorem Abreast.step (h : Abreast held held')
    (hnumber : (risk.opening row.candle.time row.candle.close).StopIsNumber) (n : Nat) :
    let after := Backtester.step { risk with trailing := false } (held.map Prod.snd) row
    let after' := Backtester.step { risk with trailing := true } (held'.map Prod.snd) row
    (∃ i p q trade, held = some (i, p) ∧ held' = some (i, q) ∧ after'.2 = some trade) ∨
      after.2 = none ∧ after'.2 = none ∧
        Abreast (after.1.map (Prod.mk ((held.map Prod.fst).getD n)))
          (after'.1.map (Prod.mk ((held'.map Prod.fst).getD n))) := by
  cases hready : row.ready with
  | false =>
      rw [step_unready hready, step_unready hready]
      refine Or.inr ⟨rfl, rfl, ?_⟩
      cases h with
      | flat => exact .flat
      | both h => exact .both h
  | true =>
      cases h with
      | flat =>
          dsimp only [Option.map_none]
          rw [step_flat hready, step_flat hready]
          refine Or.inr ⟨rfl, rfl, ?_⟩
          cases hentry : row.entry with
          | false => exact .flat
          | true => exact .both (.refl hnumber)
      | @both i p q h =>
          dsimp only [Option.map_some]
          rw [step_open hready, step_open hready]
          cases hclosing : closing? q row with
          | some closing => exact Or.inl ⟨i, p, q, _, rfl, rfl, rfl⟩
          | none =>
              rw [h.closing?_eq_none hclosing]
              dsimp only
              rw [Tape.held_fixed (Or.inl rfl) p]
              refine Or.inr ⟨rfl, rfl, .both ?_⟩
              exact h.trans (Position.tightenedTo_held h.stopIsNumber _ row)

/-- The first exit of the second run comes no later than that of the first run, with the same
entry. -/
theorem Abreast.exits_no_later (h : Abreast held held') {rows : List (Row α)}
    (hnumber : ∀ row ∈ rows, (risk.opening row.candle.time row.candle.close).StopIsNumber) :
    ∀ p ∈ (placedFrom { risk with trailing := false } held n rows).head?,
      ∃ q ∈ (placedFrom { risk with trailing := true } held' n rows).head?,
        q.entryRow = p.entryRow ∧ q.exitRow ≤ p.exitRow := by
  induction rows generalizing held held' n with
  | nil => exact fun p hp => by cases hp
  | cons row rest ih =>
      obtain ⟨hrow, hrest⟩ := List.forall_mem_cons.mp hnumber
      intro p hp
      rcases h.step hrow n with ⟨i, _, _, trade, rfl, rfl, htrade⟩ | ⟨hopen, hopen', hnext⟩
      · -- The second run closes on this row, and the first one on this row or later.
        obtain ⟨hentry, hexit⟩ := rows_of_head_placedFrom hp
        exact ⟨⟨i, n, trade⟩, head_placedFrom htrade n rest, hentry.symm, hexit⟩
      · rw [placedFrom_skip hopen] at hp
        rw [placedFrom_skip hopen']
        exact ih hnext hrest p hp

/-- After any number of rows the second run has had its first exit, or it holds what the first run
holds, with the stop moved towards the price. -/
theorem Abreast.exited_or_rel (h : Abreast held held') {rows : List (Row α)}
    (hnumber : ∀ row ∈ rows, (risk.opening row.candle.time row.candle.close).StopIsNumber)
    (k : Nat) :
    (∃ q ∈ (placedFrom { risk with trailing := true } held' n rows).head?, q.exitRow < n + k) ∨
      Option.Rel Position.TightenedTo
        (heldAfter { risk with trailing := false } (held.map Prod.snd) (rows.take k))
        (heldAfter { risk with trailing := true } (held'.map Prod.snd) (rows.take k)) := by
  induction rows generalizing held held' n k with
  | nil =>
      rw [List.take_nil]
      exact Or.inr h.rel
  | cons row rest ih =>
      cases k with
      | zero => exact Or.inr h.rel
      | succ k =>
          obtain ⟨hrow, hrest⟩ := List.forall_mem_cons.mp hnumber
          rcases h.step hrow n with ⟨i, _, _, trade, rfl, rfl, htrade⟩ | ⟨hopen, hopen', hnext⟩
          · exact Or.inl ⟨⟨i, n, trade⟩, head_placedFrom htrade n rest,
              Nat.lt_add_of_pos_right k.succ_pos⟩
          · have hlater := ih (n := n + 1) hnext hrest k
            rw [map_snd_map_mk, map_snd_map_mk, Nat.add_right_comm] at hlater
            rw [placedFrom_skip hopen']
            exact hlater

end

/-! ## The position before a row -/

namespace Tape

variable {α : Type} [Scalar α]

/-- The position that the run of a tape holds before a row. -/
def heldBefore (t : Tape α) (n : Nat) : Option (Position α) :=
  heldAfter t.risk none (t.rows.take n)

theorem heldBefore_succ (t : Tape α) (n : Nat) :
    t.heldBefore (n + 1) =
      match t.rows[n]? with
      | some row => (step t.risk (t.heldBefore n) row).1
      | none => t.heldBefore n := by
  rw [heldBefore, heldAfter, List.take_add_one, List.foldl_append]
  cases t.rows[n]? with
  | none => rfl
  | some row => rfl

/-- What every row preserves of a position holds of the one held before any row. -/
theorem of_heldBefore {t : Tape α} {P : Position α → Prop} {Q : Trade α → Prop}
    (h : ∀ row ∈ t.rows, Preserves t.risk P Q row) {n : Nat} {position : Position α}
    (hheld : t.heldBefore n = some position) : P position := by
  induction n generalizing position with
  | zero => cases hheld
  | succ n ih =>
      rw [heldBefore_succ] at hheld
      split at hheld
      · next row hrow =>
          exact ((h row (List.mem_of_getElem? hrow)).step fun p hp => ih hp).1 position hheld
      · exact ih hheld

/-- A stop that does not trail stays where the opening put it. -/
theorem eq_opening_of_heldBefore {t : Tape α} (hfixed : t.risk.trailing = false) {n : Nat}
    {position : Position α} (hheld : t.heldBefore n = some position) :
    position = t.risk.opening position.entryTime position.entryPrice := by
  refine of_heldBefore (Q := fun _ => True)
    (P := fun p => p = t.risk.opening p.entryTime p.entryPrice) (fun row _ => ?_) hheld
  exact
    { opened := rfl
      held := fun p hp => by rwa [held_fixed (Or.inl hfixed)]
      closed := fun _ _ _ _ _ => trivial }

variable [OrderedScalar α]

/-- Before every row the stop is that of the opening, moved towards the price. -/
theorem ratcheted_of_heldBefore {t : Tape α}
    (hnumber : ∀ c ∈ t.candles, (t.risk.opening c.time c.close).StopIsNumber) {n : Nat}
    {position : Position α} (hheld : t.heldBefore n = some position) :
    position.Ratcheted t.risk := by
  refine of_heldBefore (Q := fun _ => True) (fun row hrow => ?_) hheld
  exact
    { opened := Position.ratcheted_opening (hnumber row.candle (candle_mem_of_mem_rowsOf hrow))
      held := fun p hp => hp.trans (Position.tightenedTo_held hp.stopIsNumber t.risk row)
      closed := fun _ _ _ _ _ => trivial }

/-- From one row to the next the stop of a position moves towards the price, if at all. -/
theorem tightenedTo_of_heldBefore {t : Tape α} {n : Nat} {p q : Position α}
    (hheld : t.heldBefore n = some p) (hnumber : p.StopIsNumber)
    (hnext : t.heldBefore (n + 1) = some q) : p.TightenedTo q := by
  rw [heldBefore_succ, hheld] at hnext
  split at hnext
  · next row _ =>
      cases hready : row.ready with
      | false =>
          rw [step_unready hready] at hnext
          obtain rfl := Option.some.inj hnext
          exact .refl hnumber
      | true =>
          rw [step_open hready] at hnext
          split at hnext
          · cases hnext
          · obtain rfl := Option.some.inj hnext
            exact Position.tightenedTo_held hnumber t.risk row
  · obtain rfl := Option.some.inj hnext
    exact .refl hnumber

end Tape

/-! ## The comparison -/

/-- A trailing stop never keeps a position open longer.  Where the run with the fixed stop has a
first trade, the run with the trailing stop has one from the same row that is closed no later, and
before every row up to that both runs hold the same position, with the trailing stop at least as
near to the price.  The fixed stop stays where the opening put it; the trailing one is before every
row of the run at least as near to the price as that, and from one row to the next it does not move
back. -/
theorem trailing_stop_exits_no_later {candles : List (Candle Float)}
    (hcloses : ∀ c ∈ candles, c.close.isFinite = true) (entry exit ready : List Bool)
    (direction : Direction) {stopLoss : Option Float}
    (hfraction : ∀ fraction ∈ stopLoss, fraction.isFinite = true) (takeProfit : Option Float) :
    let risk (trailing : Bool) : Risk Float := ⟨direction, stopLoss, takeProfit, trailing⟩
    let tape (trailing : Bool) : Tape Float := ⟨candles, entry, exit, ready, risk trailing⟩
    let opening (p : Position Float) : Position Float :=
      Position.opened p.entryTime p.entryPrice direction stopLoss takeProfit
    (∀ trailing,
      (tape trailing).placed.map PlacedTrade.trade =
        simulate candles entry exit ready (risk trailing) ∧
      ∀ p ∈ (tape trailing).placed, (tape trailing).Places p) ∧
    (∀ p ∈ (tape false).placed.head?, ∃ q ∈ (tape true).placed.head?,
      q.entryRow = p.entryRow ∧ q.exitRow ≤ p.exitRow) ∧
    (∀ n, (∃ q ∈ (tape true).placed.head?, q.exitRow < n) ∨
      Option.Rel Position.TightenedTo ((tape false).heldBefore n) ((tape true).heldBefore n)) ∧
    (∀ n p, (tape false).heldBefore n = some p → p = opening p) ∧
    ∀ n p, (tape true).heldBefore n = some p →
      (opening p).TightenedTo p ∧
      ∀ q, (tape true).heldBefore (n + 1) = some q → p.TightenedTo q := by
  intro risk tape opening
  have hnumber : ∀ c ∈ candles, ((risk true).opening c.time c.close).StopIsNumber :=
    fun c hc => stopIsNumber_opening hfraction c.time (hcloses c hc)
  have hrows : ∀ row ∈ (tape true).rows,
      ((risk true).opening row.candle.time row.candle.close).StopIsNumber :=
    fun row hrow => hnumber row.candle (candle_mem_of_mem_rowsOf hrow)
  refine ⟨fun trailing => ⟨?_, fun p hp => Tape.places_of_mem_placed hp⟩, ?_, ?_, ?_, ?_⟩
  · exact map_trade_placedFrom (risk trailing) none 0 _
  · exact Abreast.flat.exits_no_later hrows
  · intro n
    have hside := Abreast.flat.exited_or_rel (n := 0) hrows n
    rwa [Nat.zero_add] at hside
  · exact fun n p hheld => Tape.eq_opening_of_heldBefore rfl hheld
  · intro n p hheld
    have hratcheted := Tape.ratcheted_of_heldBefore hnumber hheld
    exact ⟨hratcheted, fun q hnext =>
      Tape.tightenedTo_of_heldBefore hheld hratcheted.stopIsNumber hnext⟩

/-- A price that rises before it falls: with the stop a tenth below the close of the entry the
position is closed on the last row, with the stop trailing one row earlier. -/
theorem trailing_stop_exits_no_later_rise_and_fall :
    let candles : List (Candle Float) :=
      [100, 120, 105, 80].mapIdx fun row close => ⟨60 * row, close, close, close, close, 1000⟩
    let signal := [true, false, false, false]
    let ready := [true, true, true, true]
    let tape (trailing : Bool) : Tape Float :=
      ⟨candles, signal, [], ready, ⟨.long, some 0.1, none, trailing⟩⟩
    (∀ c ∈ candles, c.close.isFinite = true) ∧ (0.1 : Float).isFinite = true ∧
    (tape false).placed.map (fun p => (p.entryRow, p.exitRow)) = [(0, 3)] ∧
    (tape true).placed.map (fun p => (p.entryRow, p.exitRow)) = [(0, 2)] ∧
    ∀ p ∈ (tape false).placed.head?, ∃ q ∈ (tape true).placed.head?,
      q.entryRow = p.entryRow ∧ q.exitRow ≤ p.exitRow := by
  intro candles signal ready tape
  have hcloses : ∀ c ∈ candles, c.close.isFinite = true := by decide +kernel
  have hfinite : (0.1 : Float).isFinite = true := by decide +kernel
  have hfraction : ∀ fraction ∈ some (0.1 : Float), fraction.isFinite = true :=
    fun _ h => Option.some.inj h ▸ hfinite
  have hcompared := trailing_stop_exits_no_later hcloses signal [] ready .long hfraction none
  exact ⟨hcloses, hfinite, by decide +kernel, by decide +kernel, hcompared.2.1⟩

end Backtester
