import Backtester.Metrics.Equity

/-!
# Booking trades on rows

A run books the profit of a trade on the row whose time is the trade's exit time, and finds that row
by halving.  On strictly ascending times the search is exact, so the profit booked on a row is that
of the trades that exit at its time, in their order.

* `findRow_eq_some_iff` — the search finds the row of a time, and only that one.
* `getElem?_bookings` — what is booked on each row.
* `getElem?_equityCurve` — equity as the capital and the profit booked so far.
* `equityCurve_take`, `drawdowns_take` — both series read only the past.
-/

namespace Backtester

/-- The candles follow each other in time. -/
def Ascending {α : Type} (candles : List (Candle α)) : Prop :=
  (candles.map Candle.time).Pairwise (· < ·)

instance {α : Type} (candles : List (Candle α)) : Decidable (Ascending candles) :=
  inferInstanceAs (Decidable ((candles.map Candle.time).Pairwise (· < ·)))

/-! ## The search for a row -/

/-- In ascending times, earlier rows have earlier times. -/
theorem time_lt_time_iff {times : List Int} (hascending : times.Pairwise (· < ·)) {i j : Nat}
    {x y : Int} (hx : times[i]? = some x) (hy : times[j]? = some y) : x < y ↔ i < j := by
  obtain ⟨hi, rfl⟩ := List.getElem?_eq_some_iff.mp hx
  obtain ⟨hj, rfl⟩ := List.getElem?_eq_some_iff.mp hy
  rw [List.pairwise_iff_getElem] at hascending
  constructor
  · intro hlt
    rcases Nat.lt_trichotomy i j with hij | hij | hij
    · exact hij
    · subst hij
      exact absurd hlt (Int.lt_irrefl _)
    · exact absurd hlt (Int.lt_asymm (hascending j i hj hi hij))
  · exact hascending i j hi hj

/-- In ascending times, a time stands on one row. -/
theorem row_unique {times : List Int} (hascending : times.Pairwise (· < ·)) {i j : Nat} {x : Int}
    (hi : times[i]? = some x) (hj : times[j]? = some x) : i = j := by
  have hij : ¬i < j := fun h => Int.lt_irrefl x ((time_lt_time_iff hascending hi hj).mpr h)
  have hji : ¬j < i := fun h => Int.lt_irrefl x ((time_lt_time_iff hascending hj hi).mpr h)
  omega

/-- Halving keeps the row of the time it looks for between its bounds. -/
theorem halve_eq {times : List Int} (hascending : times.Pairwise (· < ·)) {key : Int} {row : Nat}
    (hrow : times[row]? = some key) (size base : Nat) (hbase : base ≤ row)
    (hend : row < base + size) (hlength : base + size ≤ times.length) :
    halve times key size base = row := by
  -- On the size: both halves are smaller, and the row stays between the bounds of the half kept.
  induction size using Nat.strongRecOn generalizing base with
  | ind size ih =>
    rw [halve]
    split
    · omega
    · have hmiddle : base + size / 2 < times.length := by omega
      have htime : times[base + size / 2]? = some times[base + size / 2] :=
        List.getElem?_eq_getElem hmiddle
      have habove : (key < times[base + size / 2]) ↔ row < base + size / 2 :=
        time_lt_time_iff hascending hrow htime
      simp only [htime, Option.any_some, decide_eq_true_eq]
      by_cases hlt : row < base + size / 2
      · rw [if_pos (habove.mpr hlt)]
        exact ih _ (by omega) base hbase (by omega) (by omega)
      · rw [if_neg (mt habove.mp hlt)]
        exact ih _ (by omega) _ (by omega) (by omega) (by omega)

theorem findRow_eq_some_iff {times : List Int} (hascending : times.Pairwise (· < ·)) (key : Int)
    (row : Nat) : findRow times key = some row ↔ times[row]? = some key := by
  constructor
  · intro hfound
    simp only [findRow] at hfound
    split at hfound
    · obtain rfl := Option.some.inj hfound
      assumption
    · exact absurd hfound (Option.some_ne_none row).symm
  · intro hrow
    have hlt : row < times.length := (List.getElem?_eq_some_iff.mp hrow).1
    have hhalve : halve times key times.length 0 = row :=
      halve_eq hascending hrow times.length 0 (Nat.zero_le row) (by omega) (by omega)
    simp [findRow, hhalve, hrow]

/-! ## Bookings -/

variable {α : Type} [Scalar α]

/-- The trades that exit at a time, in their order. -/
def exitingAt (trades : List (Trade α)) (time : Int) : List (Trade α) :=
  trades.filter fun t => t.exitTime = time

/-- The profit of some trades, added one by one to what is there. -/
def addProfits (booked : α) (trades : List (Trade α)) : α :=
  (trades.map Trade.profit).foldl (· + ·) booked

/-- One trade changes the row of its exit time and no other. -/
theorem getElem?_bookTrade {times : List Int} (hascending : times.Pairwise (· < ·))
    (booked : List α) (trade : Trade α) {row : Nat} {time : Int} (htime : times[row]? = some time) :
    (bookTrade times booked trade)[row]? =
      booked[row]?.map fun profit => addProfits profit (exitingAt [trade] time) := by
  unfold bookTrade exitingAt addProfits
  cases hfound : findRow times trade.exitTime with
  | none =>
      have hne : trade.exitTime ≠ time := by
        rintro rfl
        rw [(findRow_eq_some_iff hascending _ row).mpr htime] at hfound
        exact absurd hfound (Option.some_ne_none row)
      simp [hne]
  | some found =>
      have hexit := (findRow_eq_some_iff hascending _ found).mp hfound
      by_cases heq : found = row
      · subst heq
        obtain rfl : trade.exitTime = time := Option.some.inj (hexit.symm.trans htime)
        simp
      · have hne : trade.exitTime ≠ time := by
          rintro rfl
          exact heq (row_unique hascending hexit htime)
        simp [hne, heq]

@[simp] theorem length_bookTrade (times : List Int) (booked : List α) (trade : Trade α) :
    (bookTrade times booked trade).length = booked.length := by
  unfold bookTrade
  cases findRow times trade.exitTime with
  | none => rfl
  | some row => exact List.length_modify _ _ _

@[simp] theorem length_bookings (times : List Int) (trades : List (Trade α)) :
    (bookings times trades).length = times.length := by
  have hfold (booked : List α) :
      (trades.foldl (bookTrade times) booked).length = booked.length := by
    induction trades generalizing booked with
    | nil => rfl
    | cons trade rest ih => rw [List.foldl_cons, ih, length_bookTrade]
  rw [bookings, hfold, List.length_replicate]

/-- What is booked on a row: the profit of the trades that exit at its time. -/
theorem getElem?_bookings {times : List Int} (hascending : times.Pairwise (· < ·))
    (trades : List (Trade α)) (row : Nat) :
    (bookings times trades)[row]? =
      times[row]?.map fun time => addProfits 0 (exitingAt trades time) := by
  -- Trade by trade, from any amounts booked before.
  have hfold (booked : List α) {time : Int} (htime : times[row]? = some time) :
      (trades.foldl (bookTrade times) booked)[row]? =
        booked[row]?.map fun profit => addProfits profit (exitingAt trades time) := by
    induction trades generalizing booked with
    | nil => simp [exitingAt, addProfits]
    | cons trade rest ih =>
        rw [List.foldl_cons, ih, getElem?_bookTrade hascending booked trade htime]
        cases booked[row]? with
        | none => rfl
        | some profit =>
            by_cases hexit : trade.exitTime = time
            · simp [exitingAt, addProfits, hexit]
            · simp [exitingAt, addProfits, hexit]
  cases htime : times[row]? with
  | none =>
      have hlength : times.length ≤ row := List.getElem?_eq_none_iff.mp htime
      simpa using hlength
  | some time =>
      have hlt : row < times.length := (List.getElem?_eq_some_iff.mp htime).1
      rw [bookings, hfold _ htime, List.getElem?_replicate, if_pos hlt]
      rfl

/-- The trades that exit at one of some times. -/
def exitingWithin (trades : List (Trade α)) (times : List Int) : List (Trade α) :=
  trades.filter fun t => t.exitTime ∈ times

/-- The bookings of some first rows are those of the trades that exit there. -/
theorem bookings_take {times : List Int} (hascending : times.Pairwise (· < ·))
    (trades : List (Trade α)) (k : Nat) :
    bookings (times.take k) (exitingWithin trades (times.take k)) =
      (bookings times trades).take k := by
  have hprefix : (times.take k).Pairwise (· < ·) := hascending.sublist (List.take_sublist k times)
  apply List.ext_getElem?
  intro row
  rw [getElem?_bookings hprefix, List.getElem?_take, List.getElem?_take]
  by_cases hcut : row < k
  · rw [if_pos hcut, if_pos hcut, getElem?_bookings hascending]
    cases htime : times[row]? with
    | none => rfl
    | some time =>
        have hmem : time ∈ times.take k :=
          List.mem_of_getElem? ((List.getElem?_take_of_lt hcut).trans htime)
        have hsame :
            exitingAt (exitingWithin trades (times.take k)) time = exitingAt trades time := by
          unfold exitingAt exitingWithin
          rw [List.filter_filter]
          apply List.filter_congr
          intro t _
          by_cases hexit : t.exitTime = time
          · simp [hexit, hmem]
          · simp [hexit]
        rw [Option.map_some, Option.map_some, hsame]
  · rw [if_neg hcut, if_neg hcut]
    rfl

/-! ## Equity and drawdown -/

theorem equityFrom_take (capital earned : α) (rows : List (Int × α)) (k : Nat) :
    equityFrom capital earned (rows.take k) = (equityFrom capital earned rows).take k := by
  induction rows generalizing earned k with
  | nil => simp [equityFrom]
  | cons row rest ih =>
      cases k with
      | zero => simp [equityFrom]
      | succ k => simp only [equityFrom, List.take_succ_cons, ih]

theorem getElem?_equityFrom (capital earned : α) (rows : List (Int × α)) (i : Nat) :
    (equityFrom capital earned rows)[i]? = rows[i]?.map fun row =>
      ⟨row.1, capital + ((rows.take (i + 1)).map Prod.snd).foldl (· + ·) earned⟩ := by
  induction rows generalizing earned i with
  | nil => simp [equityFrom]
  | cons row rest ih =>
      cases i with
      | zero => simp [equityFrom]
      | succ i => simp [equityFrom, ih]

/-- Equity after a row is the capital and what was booked up to the row, added from left to
right. -/
theorem getElem?_equityCurve (candles : List (Candle α)) (trades : List (Trade α)) (capital : α)
    (i : Nat) :
    (equityCurve candles trades capital)[i]? = candles[i]?.map fun c => ⟨c.time,
      capital + ((bookings (candles.map Candle.time) trades).take (i + 1)).foldl (· + ·) 0⟩ := by
  have hsnd : (((candles.map Candle.time).zip (bookings (candles.map Candle.time) trades)).take
      (i + 1)).map Prod.snd = (bookings (candles.map Candle.time) trades).take (i + 1) := by
    rw [List.map_take, List.map_snd_zip]
    simp
  rw [equityCurve, getElem?_equityFrom, hsnd, List.zip_eq_zipWith, List.getElem?_zipWith,
    List.getElem?_map]
  cases hcandle : candles[i]? with
  | none => rfl
  | some c =>
      have hlt : i < (bookings (candles.map Candle.time) trades).length := by
        rw [length_bookings, List.length_map]
        exact (List.getElem?_eq_some_iff.mp hcandle).1
      rw [List.getElem?_eq_getElem hlt]
      rfl

theorem length_equityCurve (candles : List (Candle α)) (trades : List (Trade α)) (capital : α) :
    (equityCurve candles trades capital).length = candles.length := by
  have hfrom (earned : α) (rows : List (Int × α)) :
      (equityFrom capital earned rows).length = rows.length := by
    induction rows generalizing earned with
    | nil => rfl
    | cons row rest ih => rw [equityFrom, List.length_cons, ih, List.length_cons]
  rw [equityCurve, hfrom, List.length_zip, length_bookings, Nat.min_self, List.length_map]

/-- On ascending candles, the equity of some first rows is that of the trades that exit there. -/
theorem equityCurve_take {candles : List (Candle α)} (hascending : Ascending candles)
    (trades : List (Trade α)) (capital : α) (k : Nat) :
    equityCurve (candles.take k) (exitingWithin trades ((candles.map Candle.time).take k)) capital =
      (equityCurve candles trades capital).take k := by
  simp only [equityCurve, List.map_take]
  rw [bookings_take hascending, ← equityFrom_take, List.zip_eq_zipWith, List.zip_eq_zipWith,
    List.take_zipWith]

theorem drawdownsFrom_take (highest : α) (curve : List (EquityPoint α)) (k : Nat) :
    drawdownsFrom highest (curve.take k) = (drawdownsFrom highest curve).take k := by
  induction curve generalizing highest k with
  | nil => simp [drawdownsFrom]
  | cons point rest ih =>
      cases k with
      | zero => simp [drawdownsFrom]
      | succ k => simp only [drawdownsFrom, List.take_succ_cons, ih]

theorem drawdowns_take (curve : List (EquityPoint α)) (k : Nat) :
    drawdowns (curve.take k) = (drawdowns curve).take k :=
  drawdownsFrom_take _ curve k

end Backtester
