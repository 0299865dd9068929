import Backtester.Proofs.Booking
import Backtester.Proofs.Doubles
import Backtester.Proofs.LeastRows
import Backtester.Proofs.Seconds

/-!
# The accounts of a run

On strictly ascending candles the trades of a run lie apart on its rows: each opens on one row and
closes on a later one, and the next opens on a row after that.  So no two trades close on one row,
and what is booked on a row is the profit of the one trade that closes there.

* `Spaced` — trades that lie apart on rows.
* `replay_spaced` — the trades of a compiled strategy do.
* `SpanFits` — candles whose times 64 bits can count; `exists_backtest_of_spanFits` — a run on them
  has a result.
* `bookings_eq_map_bookedOn` — what is booked on each row, for profits at report precision.
* `run_books_every_trade_once` — the accounts of a run.
-/

namespace Backtester

/-- Trades that lie apart on the rows of some times. -/
structure Spaced {α : Type} (times : List Int) (trades : List (Trade α)) : Prop where
  /-- Each opens on one row and closes on a later one. -/
  onRows : ∀ t ∈ trades, ∃ i j : Nat, i < j ∧
    times[i]? = some t.entryTime ∧ times[j]? = some t.exitTime
  /-- Each opens after those before it have closed. -/
  apart : trades.Pairwise fun earlier later => earlier.exitTime < later.entryTime

/-! ## The trades of a run lie apart -/

section

variable {α : Type} [Scalar α]

namespace Tape

theorem Closes.onRows {t : Tape α} {i j : Nat} {trade : Trade α} (h : t.Closes i j trade) :
    i < j ∧ (t.candles.map Candle.time)[i]? = some trade.entryTime ∧
      (t.candles.map Candle.time)[j]? = some trade.exitTime := by
  cases h with
  | intro hopening hlater hclosing _ _ =>
      refine ⟨hlater, ?_, ?_⟩
      · rw [List.getElem?_map, hopening]
        rfl
      · rw [List.getElem?_map, hclosing]
        rfl

theorem TradesFrom.onRows {t : Tape α} {cursor : Nat} {trades : List (Trade α)}
    (h : t.TradesFrom cursor trades) : ∀ trade ∈ trades, ∃ i j : Nat, cursor ≤ i ∧ i < j ∧
      (t.candles.map Candle.time)[i]? = some trade.entryTime ∧
      (t.candles.map Candle.time)[j]? = some trade.exitTime := by
  induction h with
  | unopened _ => simp
  | unclosed _ _ => simp
  | closed hentry _ htrade _ ih =>
      obtain ⟨hlater, hopens, hcloses⟩ := htrade.onRows
      intro trade hmem
      rcases List.mem_cons.mp hmem with rfl | hrest
      · exact ⟨_, _, hentry.1.1, hlater, hopens, hcloses⟩
      · obtain ⟨i, j, hcursor, hrows⟩ := ih trade hrest
        have hfirst := hentry.1.1
        exact ⟨i, j, by omega, hrows⟩

theorem TradesFrom.spaced {t : Tape α} (hascending : Ascending t.candles) {cursor : Nat}
    {trades : List (Trade α)} (h : t.TradesFrom cursor trades) :
    Spaced (t.candles.map Candle.time) trades := by
  constructor
  · intro trade hmem
    obtain ⟨i, j, -, hrows⟩ := h.onRows trade hmem
    exact ⟨i, j, hrows⟩
  · -- Along the description: each trade is compared with those sought behind its exit.
    induction h with
    | unopened _ => exact List.Pairwise.nil
    | unclosed _ _ => exact List.Pairwise.nil
    | closed _ _ htrade hrest ih =>
        refine List.Pairwise.cons ?_ ih
        intro later hmem
        obtain ⟨i, j, hbehind, -, hopens, -⟩ := hrest.onRows later hmem
        exact (time_lt_time_iff hascending htrade.onRows.2.2 hopens).mpr (by omega)

end Tape

theorem replay_spaced {candles : List (Candle α)} (hascending : Ascending candles)
    (strategy : Strategy α) :
    Spaced (candles.map Candle.time) (replay candles strategy) :=
  Tape.TradesFrom.spaced hascending (tradesFrom_simulate ..)

/-- Rounding a trade moves neither end of it. -/
theorem Spaced.map_rounded {times : List Int} {trades : List (Trade α)} (h : Spaced times trades) :
    Spaced times (trades.map Trade.rounded) := by
  constructor
  · intro t ht
    obtain ⟨trade, hmem, rfl⟩ := List.mem_map.mp ht
    exact h.onRows trade hmem
  · rw [List.pairwise_map]
    exact h.apart

theorem runTrades_spaced {candles : List (Candle α)} (hascending : Ascending candles)
    (config : RunConfig α) (spec : Option (StrategySpec α)) :
    Spaced (candles.map Candle.time) (runTrades candles config spec) := by
  unfold runTrades
  split
  · exact ⟨by simp, List.Pairwise.nil⟩
  · exact replay_spaced hascending _

theorem backtest_spaced {candles : List (Candle α)} (hascending : Ascending candles)
    {config : RunConfig α} {spec : Option (StrategySpec α)} {result : RunResult α}
    (h : backtest candles config spec = .ok result) :
    Spaced (candles.map Candle.time) result.trades := by
  rw [trades_of_backtest h]
  exact (runTrades_spaced hascending config spec).map_rounded

/-! ## One booking for each trade -/

theorem Spaced.entry_lt_exit {α : Type} {times : List Int} (hascending : times.Pairwise (· < ·))
    {trades : List (Trade α)} (h : Spaced times trades) {t : Trade α} (ht : t ∈ trades) :
    t.entryTime < t.exitTime := by
  obtain ⟨i, j, hlater, hopens, hcloses⟩ := h.onRows t ht
  exact (time_lt_time_iff hascending hopens hcloses).mpr hlater

theorem Spaced.exits_ascending {α : Type} {times : List Int} (hascending : times.Pairwise (· < ·))
    {trades : List (Trade α)} (h : Spaced times trades) :
    trades.Pairwise fun earlier later => earlier.exitTime < later.exitTime := by
  apply h.apart.imp_of_mem
  intro earlier later _ hlater hlt
  exact Int.lt_trans hlt (h.entry_lt_exit hascending hlater)

/-- The profit of the trade that exits at a time, and zero where none does. -/
def bookedOn (trades : List (Trade α)) (time : Int) : α :=
  match trades.find? fun t => t.exitTime = time with
  | some t => t.profit
  | none => 0

/-- Where exits ascend, at most one trade exits at a time. -/
theorem exitingAt_eq_find? {α : Type} {trades : List (Trade α)}
    (hexits : trades.Pairwise fun earlier later => earlier.exitTime < later.exitTime) (time : Int) :
    exitingAt trades time = (trades.find? fun t => t.exitTime = time).toList := by
  unfold exitingAt
  -- Behind the first trade with this exit time all exits are later.
  induction hexits with
  | nil => rfl
  | @cons first rest hfirst _ ih =>
      by_cases hexit : first.exitTime = time
      · have hnone : rest.filter (fun t => t.exitTime = time) = [] := by
          rw [List.filter_eq_nil_iff]
          intro t ht
          have hlt := hfirst t ht
          simp
          omega
        rw [List.filter_cons_of_pos (by simpa using hexit), hnone,
          List.find?_cons_of_pos (by simpa using hexit)]
        rfl
      · rw [List.filter_cons_of_neg (by simpa using hexit),
          List.find?_cons_of_neg (by simpa using hexit), ih]

theorem bookedOn_exitTime {trades : List (Trade α)}
    (hexits : trades.Pairwise fun earlier later => earlier.exitTime < later.exitTime)
    {t : Trade α} (ht : t ∈ trades) : bookedOn trades t.exitTime = t.profit := by
  have hmem : t ∈ exitingAt trades t.exitTime := by
    simp [exitingAt, ht]
  rw [exitingAt_eq_find? hexits, Option.mem_toList] at hmem
  rw [bookedOn, hmem]

/-- Row by row, the trades that exit are all the trades, each once and in their order. -/
theorem flatMap_exitingAt {α : Type} {times : List Int} (hascending : times.Pairwise (· < ·))
    {trades : List (Trade α)} (h : Spaced times trades) :
    times.flatMap (exitingAt trades) = trades := by
  have hexits := h.exits_ascending hascending
  have hrows : (times.flatMap (exitingAt trades)).Pairwise
      fun earlier later => earlier.exitTime < later.exitTime := by
    rw [List.pairwise_flatMap]
    refine ⟨fun time _ => hexits.filter _, hascending.imp ?_⟩
    intro earlier later hlt t ht u hu
    have hearlier : t.exitTime = earlier := by simpa using (List.mem_filter.mp ht).2
    have hlater : u.exitTime = later := by simpa using (List.mem_filter.mp hu).2
    omega
  have hmem (t : Trade α) : t ∈ times.flatMap (exitingAt trades) ↔ t ∈ trades := by
    rw [List.mem_flatMap]
    constructor
    · rintro ⟨time, -, ht⟩
      exact (List.mem_filter.mp ht).1
    · intro ht
      obtain ⟨i, j, -, -, hcloses⟩ := h.onRows t ht
      exact ⟨t.exitTime, List.mem_of_getElem? hcloses, List.mem_filter.mpr ⟨ht, by simp⟩⟩
  -- Two lists in strictly ascending order are equal once they have the same members.
  have hperm : (times.flatMap (exitingAt trades)).Perm trades :=
    (List.perm_ext_iff_of_nodup (hrows.imp (by rintro t _ hlt rfl; omega))
      (hexits.imp (by rintro t _ hlt rfl; omega))).mpr hmem
  refine hperm.eq_of_pairwise ?_ hrows hexits
  intro t u _ _ htu hut
  omega

end

/-! ## The seconds of trades that lie apart -/

section

variable {α : Type} {times : List ℤ} {trades : List (Trade α)}

/-- Trades that follow each other between two times are together no longer than the time between. -/
theorem sum_seconds_le_of_apart {first last : ℤ} (hle : first ≤ last)
    (hwithin : ∀ t ∈ trades, first ≤ t.entryTime ∧ t.entryTime < t.exitTime ∧ t.exitTime ≤ last)
    (hapart : trades.Pairwise fun earlier later => earlier.exitTime < later.entryTime) :
    (trades.map Trade.seconds).sum ≤ last - first := by
  -- From the front: the trades behind the first one lie between its exit and the last time.
  induction trades generalizing first with
  | nil => simpa using hle
  | cons t rest ih =>
      obtain ⟨⟨hentry, hlong, hexit⟩, hrest⟩ := List.forall_mem_cons.mp hwithin
      obtain ⟨hafter, hapart⟩ := List.pairwise_cons.mp hapart
      have hbehind := ih hexit (fun u hu => ⟨(hafter u hu).le, (hrest u hu).2⟩) hapart
      rw [List.map_cons, List.sum_cons, Trade.seconds]
      omega

theorem Spaced.seconds_pos (hascending : times.Pairwise (· < ·)) (h : Spaced times trades) :
    ∀ t ∈ trades, 0 < t.seconds := by
  intro t ht
  have hlong := h.entry_lt_exit hascending ht
  unfold Trade.seconds
  omega

theorem Spaced.sum_seconds_le (hascending : times.Pairwise (· < ·)) (h : Spaced times trades)
    {span : ℤ} (hpositive : 0 ≤ span)
    (hspan : ∀ first ∈ times, ∀ last ∈ times, last - first ≤ span) :
    (trades.map Trade.seconds).sum ≤ span := by
  have hends {t : Trade α} (ht : t ∈ trades) : t.entryTime ∈ times ∧ t.exitTime ∈ times := by
    obtain ⟨i, j, -, hopens, hcloses⟩ := h.onRows t ht
    exact ⟨List.mem_of_getElem? hopens, List.mem_of_getElem? hcloses⟩
  cases trades with
  | nil => simpa using hpositive
  | cons first rest =>
      obtain ⟨hafter, -⟩ := List.pairwise_cons.mp h.apart
      have hfirst := h.entry_lt_exit hascending List.mem_cons_self
      have hwithin : ∀ t ∈ first :: rest, first.entryTime ≤ t.entryTime ∧
          t.entryTime < t.exitTime ∧ t.exitTime ≤ first.entryTime + span := by
        intro t ht
        have hbetween := hspan _ (hends List.mem_cons_self).1 _ (hends ht).2
        refine ⟨?_, h.entry_lt_exit hascending ht, by omega⟩
        rcases List.mem_cons.mp ht with rfl | hrest
        · exact le_rfl
        · exact (hfirst.trans (hafter t hrest)).le
      have hsum := sum_seconds_le_of_apart (by omega) hwithin h.apart
      omega

end

/-- No two candles are further apart than 64 bits can count. -/
def SpanFits {α : Type} (candles : List (Candle α)) : Prop :=
  ∀ first ∈ candles.map Candle.time, ∀ last ∈ candles.map Candle.time, last - first ≤ maxInt64

instance {α : Type} (candles : List (Candle α)) : Decidable (SpanFits candles) :=
  inferInstanceAs (Decidable (∀ first ∈ candles.map Candle.time, ∀ last ∈ candles.map Candle.time,
    last - first ≤ maxInt64))

theorem Spaced.sum_seconds_le_of_spanFits {α : Type} {candles : List (Candle α)}
    (hascending : Ascending candles) (hspan : SpanFits candles) {trades : List (Trade α)}
    (h : Spaced (candles.map Candle.time) trades) :
    (trades.map Trade.seconds).sum ≤ maxInt64 :=
  h.sum_seconds_le hascending (by decide) hspan

/-- A run whose candles lie close enough together has a result. -/
theorem exists_backtest_of_spanFits {α : Type} [Scalar α] {candles : List (Candle α)}
    (hascending : Ascending candles) (hspan : SpanFits candles) (config : RunConfig α)
    (spec : Option (StrategySpec α)) : ∃ result, backtest candles config spec = .ok result := by
  have hspaced := runTrades_spaced hascending config spec
  rw [exists_backtest_eq_ok_iff, secondsFit_iff_of_pos (hspaced.seconds_pos hascending)]
  exact hspaced.sum_seconds_le_of_spanFits hascending hspan

/-! ## Equity in doubles -/

theorem scalar_ofNat_zero : (Scalar.ofNat 0 : Float) = 0 := rfl

/-- A rounded amount is never negative zero. -/
theorem roundTo_ne_negativeZero (x : Float) (places : Int) : roundTo x places ≠ -0 := by
  intro h
  unfold roundTo at h
  dsimp only at h
  split at h
  · exact absurd h (by decide)
  · rename_i hzero
    rw [h] at hzero
    exact absurd rfl hzero

/-- Every row is booked the profit of the one trade that exits there. -/
theorem bookings_eq_map_bookedOn {times : List Int} (hascending : times.Pairwise (· < ·))
    {trades : List (Trade Float)} (h : Spaced times trades)
    (hprofit : ∀ t ∈ trades, t.profit ≠ -0) :
    bookings times trades = times.map (bookedOn trades) := by
  apply List.ext_getElem?
  intro row
  rw [getElem?_bookings hascending, List.getElem?_map]
  congr 1
  funext time
  rw [exitingAt_eq_find? (h.exits_ascending hascending), bookedOn]
  cases hfind : trades.find? fun t => t.exitTime = time with
  | none => rfl
  | some t =>
      -- The row starts at zero, and the profit is added to that.
      show Scalar.ofNat 0 + t.profit = t.profit
      rw [scalar_ofNat_zero]
      exact Doubles.zero_add (hprofit t (List.mem_of_find?_eq_some hfind))

theorem profit_ne_negativeZero {candles : List (Candle Float)} {config : RunConfig Float}
    {spec : Option (StrategySpec Float)} {result : RunResult Float}
    (h : backtest candles config spec = .ok result) : ∀ t ∈ result.trades, t.profit ≠ -0 := by
  intro t ht
  rw [trades_of_backtest h] at ht
  obtain ⟨trade, -, rfl⟩ := List.mem_map.mp ht
  exact roundTo_ne_negativeZero trade.profit profitPlaces

/-- No trade exits on the first row. -/
theorem Spaced.bookedOn_head {times : List Int} (hascending : times.Pairwise (· < ·))
    {trades : List (Trade Float)} (h : Spaced times trades) {time : Int}
    (htime : times[0]? = some time) : bookedOn trades time = 0 := by
  have hnone : trades.find? (fun t => t.exitTime = time) = none := by
    rw [List.find?_eq_none]
    intro t ht hexit
    obtain ⟨i, j, hlater, -, hcloses⟩ := h.onRows t ht
    rw [of_decide_eq_true hexit] at hcloses
    have hrow : j = 0 := row_unique hascending hcloses htime
    omega
  rw [bookedOn, hnone]
  rfl

theorem powerOfTen_amountPlaces : (Scalar.powerOfTen amountPlaces : Float) = 100 := by
  decide +kernel

/-- At report precision the two zeros are one. -/
theorem roundTo_zero : roundTo (-0 : Float) amountPlaces = roundTo 0 amountPlaces := by
  unfold roundTo
  rw [powerOfTen_amountPlaces]
  decide +kernel

/-- The first row books nothing, so equity starts at the capital. -/
theorem Spaced.equity_head {candles : List (Candle Float)} (hascending : Ascending candles)
    {trades : List (Trade Float)} (h : Spaced (candles.map Candle.time) trades)
    (hprofit : ∀ t ∈ trades, t.profit ≠ -0) {c : Candle Float} (hfirst : candles[0]? = some c)
    (capital : Float) : (equityCurve candles trades capital)[0]? = some ⟨c.time, capital + 0⟩ := by
  have htime : (candles.map Candle.time)[0]? = some c.time := by
    rw [List.getElem?_map, hfirst]
    rfl
  have hbooked : (bookings (candles.map Candle.time) trades).take 1 = [0] := by
    rw [bookings_eq_map_bookedOn hascending h hprofit, List.take_one, List.head?_map,
      List.head?_eq_getElem?, htime, Option.map_some, h.bookedOn_head hascending htime]
    rfl
  rw [getElem?_equityCurve, hfirst, hbooked]
  rfl

/-- A run books every trade once.  Its trades lie apart, each closes on a row of its own behind the
first, and equity is the capital and, added row by row from the left, the profit of the trade that
closes on each row.  There is no result only if the seconds of the trades do not fit. -/
theorem run_books_every_trade_once {candles : List (Candle Float)} (hascending : Ascending candles)
    (config : RunConfig Float) (spec : Option (StrategySpec Float)) :
    let times := candles.map Candle.time
    match backtest candles config spec with
    | .error _ => ¬SecondsFit (runTrades candles config spec)
    | .ok result =>
      let equity := equityCurve candles result.trades config.capital
      (∀ t ∈ result.trades, t.entryTime < t.exitTime) ∧
      (result.trades.Pairwise fun earlier later =>
        earlier.exitTime < later.entryTime ∧ earlier.exitTime ≠ later.exitTime) ∧
      (∀ t ∈ result.trades, ∃ row, 1 ≤ row ∧
        ∀ other : Nat, times[other]? = some t.exitTime ↔ other = row) ∧
      times.flatMap (exitingAt result.trades) = result.trades ∧
      bookings times result.trades = times.map (bookedOn result.trades) ∧
      (∀ t ∈ result.trades, bookedOn result.trades t.exitTime = t.profit) ∧
      (∀ (i : Nat) (c : Candle Float), candles[i]? = some c → equity[i]? = some ⟨c.time,
        config.capital + ((times.take (i + 1)).map (bookedOn result.trades)).foldl (· + ·) 0⟩) ∧
      result.equityCurve = equity.map EquityPoint.rounded ∧
      (∀ c, candles[0]? = some c →
        result.equityCurve[0]? = some (EquityPoint.rounded ⟨c.time, config.capital⟩) ∧
        (config.capital ≠ -0 → equity[0]? = some ⟨c.time, config.capital⟩)) := by
  intro times
  cases hresult : backtest candles config spec with
  | error _ => exact not_secondsFit_of_backtest hresult
  | ok result =>
      dsimp only
      have hspaced : Spaced times result.trades := backtest_spaced hascending hresult
      have hexits := hspaced.exits_ascending hascending
      have hprofit : ∀ t ∈ result.trades, t.profit ≠ -0 := profit_ne_negativeZero hresult
      have hbookings := bookings_eq_map_bookedOn hascending hspaced hprofit
      have hrounded := equityCurve_of_backtest hresult
      refine ⟨fun t ht => hspaced.entry_lt_exit hascending ht, ?_, ?_,
        flatMap_exitingAt hascending hspaced, hbookings, fun t ht => bookedOn_exitTime hexits ht, ?_,
        hrounded, ?_⟩
      · exact hspaced.apart.imp₂ (fun _ _ hlt hexit => ⟨hlt, Int.ne_of_lt hexit⟩) hexits
      · intro t ht
        obtain ⟨i, j, hlater, -, hcloses⟩ := hspaced.onRows t ht
        refine ⟨j, by omega, fun other => ⟨fun hother => ?_, ?_⟩⟩
        · exact row_unique hascending hother hcloses
        · rintro rfl
          exact hcloses
      · intro i c hcandle
        rw [List.map_take, ← hbookings, getElem?_equityCurve, hcandle]
        rfl
      · intro c hfirst
        have hhead := hspaced.equity_head hascending hprofit hfirst config.capital
        rw [hrounded, List.getElem?_map, hhead]
        by_cases hcapital : config.capital = -0
        · -- The sum of the two zeros is the other one, but the report does not tell them apart.
          have hsum : (-0 : Float) + 0 = 0 := by decide
          refine ⟨?_, fun hne => absurd hcapital hne⟩
          rw [hcapital, hsum, Option.map_some, EquityPoint.rounded, EquityPoint.rounded,
            roundTo_zero]
        · rw [Doubles.add_zero hcapital]
          exact ⟨rfl, fun _ => rfl⟩

/-- Fourteen candles of a minute each whose closes go up and down. -/
theorem run_books_every_trade_once_fourteen :
    let candles : List (Candle Float) :=
      (List.range 14).map fun (i : Nat) => ⟨60 * i, 5, 9, 1, if i % 4 < 2 then 5 else 7, 1000⟩
    Ascending candles ∧
    ∃ result, backtest candles ⟨"BTC/USDT", "1m", 10000, 1, 2, 0⟩ none = .ok result ∧
      (∀ t ∈ result.trades, t.entryTime < t.exitTime) ∧
      (candles.map Candle.time).flatMap (exitingAt result.trades) = result.trades := by
  intro candles
  have hascending : Ascending candles := by decide
  obtain ⟨result, hresult⟩ := exists_backtest_of_spanFits hascending (by decide)
    ⟨"BTC/USDT", "1m", 10000, 1, 2, 0⟩ none
  have haccounts := run_books_every_trade_once hascending ⟨"BTC/USDT", "1m", 10000, 1, 2, 0⟩ none
  rw [hresult] at haccounts
  exact ⟨hascending, result, hresult, haccounts.1, haccounts.2.2.2.1⟩

end Backtester
