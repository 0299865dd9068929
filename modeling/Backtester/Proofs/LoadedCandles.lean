import Backtester.Proofs.UsableCandles
import Backtester.Table.Candles
import Mathlib.Data.List.Forall2
import Mathlib.Data.List.Nodup
import Mathlib.Data.List.Perm.Basic

/-!
# Loaded candles

The candles of a table are its data rows as a map from times: sorted by time, each time once, and at
each time the last row that has it.  The order comes from a stable sort, which leaves rows of one
time in the order of the table, and the choice from thinning neighbours of one time to the last.

* `latestAt` — the last row with a time.
* `SortedMap` — candles are the sorted map of some rows; `sortedMap_orderCandles`,
  `SortedMap.unique` and `SortedMap.of_perm` say that ordering gives it, that there is no other one,
  and that the order of rows of different times does not count.
* `Writes` — the row that a record writes under a header.
* `DataRows` — the rows of a table.
* `readCandles_eq_ok_iff` — reading a table gives the sorted map of its rows.
* `problem_of_checkCandles` — what can be wrong with candles whose times ascend.
* `loaded_candles_sorted_map` — this with what follows for checking and for reordered tables.
-/

namespace Backtester

/-! ## The sorted map of some rows -/

section

variable {α : Type} {rows rows' candles candles' : List (Candle α)}

/-- The last row with a time. -/
def latestAt (rows : List (Candle α)) (time : Int) : Option (Candle α) :=
  (rows.filter fun row => row.time == time).getLast?

/-- Candles whose times ascend and are those of the rows, each candle being the last row of its
time. -/
structure SortedMap (rows candles : List (Candle α)) : Prop where
  ascending : Ascending candles
  times : ∀ time, time ∈ candles.map Candle.time ↔ time ∈ rows.map Candle.time
  latest : ∀ c ∈ candles, latestAt rows c.time = some c

theorem mem_of_latestAt {c : Candle α} {time : Int} (h : latestAt rows time = some c) :
    c ∈ rows ∧ c.time = time := by
  obtain ⟨hmem, htime⟩ := List.mem_filter.mp (List.mem_of_getLast? h)
  exact ⟨hmem, eq_of_beq htime⟩

theorem exists_latestAt {row : Candle α} (h : row ∈ rows) :
    ∃ c, latestAt rows row.time = some c := by
  have hmem : row ∈ rows.filter fun other => other.time == row.time :=
    List.mem_filter.mpr ⟨h, beq_self_eq_true _⟩
  exact ⟨_, List.getLast?_eq_some_getLast (List.ne_nil_of_mem hmem)⟩

theorem latestAt_cons (first : Candle α) {c : Candle α} {time : Int}
    (h : latestAt rows time = some c) : latestAt (first :: rows) time = some c := by
  unfold latestAt at h ⊢
  rw [List.filter_cons]
  split
  · rw [List.getLast?_cons, h]
    rfl
  · exact h

/-- Thinning rows in order of time to the last of each time. -/
theorem sortedMap_keepLast (h : rows.Pairwise fun a b => a.time ≤ b.time) :
    SortedMap rows (keepLast rows) := by
  fun_induction keepLast rows with
  | case1 => exact ⟨List.Pairwise.nil, fun _ => Iff.rfl, fun c hc => by cases hc⟩
  | case2 candle =>
      refine ⟨List.pairwise_singleton _ _, fun _ => Iff.rfl, fun c hc => ?_⟩
      obtain rfl := List.mem_singleton.mp hc
      simp [latestAt]
  | case3 first second rest hsame ih =>
      have hmap := ih h.of_cons
      refine ⟨hmap.ascending, fun time => ?_, fun c hc => latestAt_cons first (hmap.latest c hc)⟩
      rw [hmap.times, List.map_cons, List.map_cons, List.map_cons, hsame]
      simp
  | case4 first second rest hne ih =>
      have hmap := ih h.of_cons
      have hfirst : ∀ c ∈ second :: rest, first.time ≤ c.time := fun _ => List.rel_of_pairwise_cons h
      have hsecond : ∀ c ∈ rest, second.time ≤ c.time :=
        fun _ => List.rel_of_pairwise_cons h.of_cons
      have hbefore : ∀ c ∈ second :: rest, first.time < c.time := by
        intro c hc
        have hlt : first.time < second.time :=
          Int.lt_iff_le_and_ne.mpr ⟨hfirst second List.mem_cons_self, hne⟩
        rcases List.mem_cons.mp hc with rfl | hc
        · exact hlt
        · exact Int.lt_of_lt_of_le hlt (hsecond c hc)
      refine ⟨?_, fun time => ?_, ?_⟩
      · refine List.pairwise_cons.mpr ⟨fun time htime => ?_, hmap.ascending⟩
        obtain ⟨c, hc, rfl⟩ := List.mem_map.mp ((hmap.times time).mp htime)
        exact hbefore c hc
      · rw [List.map_cons, List.map_cons, List.mem_cons, List.mem_cons, hmap.times]
      · refine List.forall_mem_cons.mpr ⟨?_, fun c hc => latestAt_cons first (hmap.latest c hc)⟩
        have hnone : (second :: rest).filter (fun row => row.time == first.time) = [] := by
          rw [List.filter_eq_nil_iff]
          intro c hc
          simpa using (Int.ne_of_lt (hbefore c hc)).symm
        rw [latestAt, List.filter_cons_of_pos (by simp), hnone]
        rfl

theorem timeOrder_trans (a b c : Candle α) (hab : decide (a.time ≤ b.time) = true)
    (hbc : decide (b.time ≤ c.time) = true) : decide (a.time ≤ c.time) = true :=
  decide_eq_true (Int.le_trans (of_decide_eq_true hab) (of_decide_eq_true hbc))

theorem timeOrder_total (a b : Candle α) :
    (decide (a.time ≤ b.time) || decide (b.time ≤ a.time)) = true := by
  simpa using Int.le_total a.time b.time

/-- Sorting leaves rows of one time in their order. -/
theorem filter_mergeSort_time (rows : List (Candle α)) (time : Int) :
    (rows.mergeSort fun a b => decide (a.time ≤ b.time)).filter (fun row => row.time == time) =
      rows.filter fun row => row.time == time := by
  have hsame : (rows.filter fun row => row.time == time).Pairwise
      fun a b => decide (a.time ≤ b.time) = true := by
    refine List.pairwise_of_forall_mem_list fun a ha b hb => decide_eq_true ?_
    have ha := eq_of_beq (List.mem_filter.mp ha).2
    have hb := eq_of_beq (List.mem_filter.mp hb).2
    exact Int.le_of_eq (ha.trans hb.symm)
  -- Rows of one time are in order already, and so they are part of the sorted rows as they stand.
  have hpart := (List.sublist_mergeSort timeOrder_trans timeOrder_total hsame
    List.filter_sublist).filter fun row => row.time == time
  rw [List.filter_filter] at hpart
  simp only [Bool.and_self] at hpart
  have hperm := (List.mergeSort_perm rows fun a b => decide (a.time ≤ b.time)).filter
    fun row => row.time == time
  exact (hpart.eq_of_length hperm.length_eq.symm).symm

/-- Ordering rows gives their sorted map. -/
theorem sortedMap_orderCandles (rows : List (Candle α)) : SortedMap rows (orderCandles rows) := by
  have hsorted := List.pairwise_mergeSort timeOrder_trans timeOrder_total rows
  obtain ⟨hascending, htimes, hlatest⟩ := sortedMap_keepLast (hsorted.imp of_decide_eq_true)
  refine ⟨hascending, fun time => ?_, fun c hc => ?_⟩
  · rw [orderCandles, htimes]
    exact ((List.mergeSort_perm rows _).map Candle.time).mem_iff
  · have hlast := hlatest c hc
    rwa [latestAt, filter_mergeSort_time] at hlast

/-- Rows have only one sorted map. -/
theorem SortedMap.unique (h : SortedMap rows candles) (h' : SortedMap rows candles') :
    candles = candles' := by
  have hperm : (candles.map Candle.time).Perm (candles'.map Candle.time) := by
    refine (List.perm_ext_iff_of_nodup (h.ascending.imp Int.ne_of_lt)
      (h'.ascending.imp Int.ne_of_lt)).mpr
      fun time => ?_
    rw [h.times, h'.times]
  have htimes : candles.map Candle.time = candles'.map Candle.time :=
    hperm.eq_of_pairwise (fun a b _ _ hab hba => absurd hba (Int.lt_asymm hab)) h.ascending
      h'.ascending
  -- A candle is the last row of its time.
  have hlookup {candles : List (Candle α)} (h : SortedMap rows candles) :
      candles.map some = (candles.map Candle.time).map (latestAt rows) := by
    rw [List.map_map]
    exact List.map_congr_left fun c hc => (h.latest c hc).symm
  exact List.map_injective_iff.mpr (fun _ _ => Option.some.inj)
    ((hlookup h).trans ((congrArg _ htimes).trans (hlookup h').symm))

/-- The order of rows does not count if their times are different. -/
theorem SortedMap.of_perm (h : SortedMap rows candles) (hperm : rows.Perm rows')
    (hnodup : (rows.map Candle.time).Nodup) : SortedMap rows' candles := by
  refine ⟨h.ascending, fun time => (h.times time).trans (hperm.map Candle.time).mem_iff,
    fun c hc => ?_⟩
  obtain ⟨hmem, -⟩ := mem_of_latestAt (h.latest c hc)
  obtain ⟨d, hd⟩ := exists_latestAt (hperm.mem_iff.mp hmem)
  obtain ⟨hmem', htime⟩ := mem_of_latestAt hd
  have hsame : d = c := List.inj_on_of_nodup_map hnodup (hperm.mem_iff.mpr hmem') hmem htime
  rw [hd, hsame]

end

/-! ## Data rows -/

/-- A record under a header writes a candle: it has the columns of a candle table, its prices are
numbers, and its time has one of the forms of a time. -/
def Writes (header record : List (List Char)) (candle : Candle Float) : Prop :=
  ∃ timeField undated time, recordCandle? header (record.map trim) = some (timeField, undated) ∧
    readTime timeField = some time ∧ candle = { undated with time := time }

/-- The data rows of a table are what the records behind its header write. -/
def DataRows (text : String) (rows : List (Candle Float)) : Prop :=
  match csvRecords text.toList with
  | [] => rows = []
  | header :: records => List.Forall₂ (Writes (header.map trim)) records rows

section

variable {header record : List (List Char)} {records : List (List (List Char))} {number : Nat}
  {text : String} {candle : Candle Float} {rows candles : List (Candle Float)}

/-- The number of a record only matters for problems. -/
theorem readRecord_eq_ok_iff :
    readRecord header (record.map trim) number = .ok candle ↔ Writes header record candle := by
  unfold readRecord Writes
  cases hrecord : recordCandle? header (record.map trim) with
  | none => simp
  | some fields =>
      obtain ⟨timeField, undated⟩ := fields
      cases htime : readTime timeField with
      | none => simp [htime]
      | some time => simp [htime, eq_comm]

theorem readRecords_eq_ok_iff :
    readRecords header number records = .ok rows ↔ List.Forall₂ (Writes header) records rows := by
  induction records generalizing number rows with
  | nil => simp [readRecords, eq_comm]
  | cons record rest ih =>
      rw [readRecords, List.forall₂_cons_left_iff]
      constructor
      · intro h
        obtain ⟨candle, hcandle, h⟩ := bind_eq_ok.mp h
        obtain ⟨candles, hcandles, h⟩ := bind_eq_ok.mp h
        cases h
        exact ⟨candle, candles, readRecord_eq_ok_iff.mp hcandle, ih.mp hcandles, rfl⟩
      · rintro ⟨candle, candles, hcandle, hcandles, rfl⟩
        exact bind_eq_ok.mpr ⟨candle, readRecord_eq_ok_iff.mpr hcandle,
          bind_eq_ok.mpr ⟨candles, ih.mpr hcandles, rfl⟩⟩

theorem dataRows_iff_of_records (htext : csvRecords text.toList = header :: records) :
    DataRows text rows ↔ readRecords (header.map trim) 1 records = .ok rows := by
  rw [DataRows, htext, readRecords_eq_ok_iff]

theorem dataRows_iff_of_empty (htext : csvRecords text.toList = []) :
    DataRows text rows ↔ rows = [] := by
  rw [DataRows, htext]

theorem DataRows.unique {rows' : List (Candle Float)} (h : DataRows text rows)
    (h' : DataRows text rows') : rows = rows' := by
  cases htext : csvRecords text.toList with
  | nil =>
      rw [dataRows_iff_of_empty htext] at h h'
      rw [h, h']
  | cons header records =>
      rw [dataRows_iff_of_records htext] at h h'
      exact Except.ok.inj (h.symm.trans h')

/-- A table is read exactly when all of its records write candles. -/
theorem readCandles_eq_ok_iff :
    readCandles text = .ok candles ↔ ∃ rows, DataRows text rows ∧ SortedMap rows candles := by
  have hordered (rows : List (Candle Float)) :
      SortedMap rows candles ↔ orderCandles rows = candles := by
    constructor
    · exact (sortedMap_orderCandles rows).unique
    · rintro rfl
      exact sortedMap_orderCandles rows
  simp only [hordered]
  unfold readCandles
  cases htext : csvRecords text.toList with
  | nil =>
      have hempty : orderCandles ([] : List (Candle Float)) = [] := by
        simp [orderCandles, keepLast]
      simp [dataRows_iff_of_empty htext, hempty, eq_comm]
  | cons header records =>
      simp only [dataRows_iff_of_records htext]
      cases readRecords (header.map trim) 1 records <;> simp [Except.map]

/-! ## What can be wrong with loaded candles -/

/-- A value of a candle is not finite or is negative, and this is the problem. -/
def BadValue (candles : List (Candle Float)) (problem : CandleProblem) : Prop :=
  ∃ c ∈ candles, ∃ field ∈ c.fields, (field.2.isFinite = false ∨ field.2 < 0) ∧
    problem = .badValue field.1 field.2

/-- In candles whose times ascend only a value can be wrong. -/
theorem badValue_of_stopsAt (hascending : Ascending candles) {row : Nat} {problem : CandleProblem}
    (h : StopsAt candles row problem) : BadValue candles problem := by
  obtain ⟨c, hrow, hproblem⟩ := h.here
  have hmem := List.mem_of_getElem? hrow
  cases hproblem with
  | value hfields hfront hvalue =>
      refine ⟨c, hmem, (_, _), ?_, ?_, rfl⟩
      · rw [hfields]
        exact List.mem_append_right _ List.mem_cons_self
      · simpa [value_test_iff] using (value_test_iff _).mpr hvalue
  | time hvalues hprevious hle =>
      have hrows : Ascending (candles.take row ++ [c]) := by
        rw [take_concat hrow]
        exact hascending.sublist ((List.take_sublist _ _).map Candle.time)
      have hlt := (ascending_concat_iff.mp hrows).2 _ (List.mem_of_getLast? hprevious)
      exact absurd hlt (not_lt.mpr hle)

theorem problem_of_checkCandles (hascending : Ascending candles) {problem : Nat × CandleProblem}
    (h : checkCandles candles = .error problem) :
    candles = [] ∧ problem.2 = .noCandles ∨ BadValue candles problem.2 := by
  rcases eq_or_ne candles [] with rfl | hne
  · cases h
    exact Or.inl ⟨rfl, rfl⟩
  · rcases checkCandles_cases hne with ⟨hok, -⟩ | ⟨row, problem', herror, hstops⟩
    · rw [hok] at h
      cases h
    · rw [herror] at h
      cases h
      exact Or.inr (badValue_of_stopsAt hascending hstops)

/-! ## Tables with their records in another order -/

/-- Tables with the same header and the same records behind it, in some order each. -/
def Reordered (text text' : String) : Prop :=
  ∃ header records records', csvRecords text.toList = header :: records ∧
    csvRecords text'.toList = header :: records' ∧ records.Perm records'

/-- Records in another order write the same rows in another order. -/
theorem Reordered.exists_dataRows {text' : String} (h : Reordered text text')
    (hrows : DataRows text rows) : ∃ rows', DataRows text' rows' ∧ rows.Perm rows' := by
  obtain ⟨header, records, records', htext, htext', hperm⟩ := h
  unfold DataRows at hrows ⊢
  rw [htext] at hrows
  rw [htext']
  obtain ⟨rows', hwrites, hperm'⟩ := List.perm_comp_forall₂ hperm.symm hrows
  exact ⟨rows', hwrites, hperm'.symm⟩

/-- Loaded candles are the sorted map of the data rows of their table.  A table is read exactly when
each of its records writes a row; then the times ascend strictly, they are the times of the rows, and
at each time stands the last row that has it.  So the check of these candles fails only for a table
without data rows or for a value that is not finite or is negative, and if no two rows have the same
time, their order in the table does not count. -/
theorem loaded_candles_sorted_map (text : String) (candles : List (Candle Float)) :
    (readCandles text = .ok candles ↔ ∃ rows, DataRows text rows ∧ SortedMap rows candles) ∧
    (readCandles text = .ok candles →
      (∀ problem, checkCandles candles = .error problem →
        DataRows text [] ∧ problem.2 = .noCandles ∨ BadValue candles problem.2) ∧
      ∀ text' rows, Reordered text text' → DataRows text rows → (rows.map Candle.time).Nodup →
        readCandles text' = .ok candles) := by
  refine ⟨readCandles_eq_ok_iff, fun hread => ⟨fun problem hproblem => ?_, ?_⟩⟩
  · obtain ⟨rows, hrows, hmap⟩ := readCandles_eq_ok_iff.mp hread
    refine (problem_of_checkCandles hmap.ascending hproblem).imp_left fun ⟨hempty, hnone⟩ => ?_
    have hnoRows : rows = [] := by
      rw [List.eq_nil_iff_forall_not_mem]
      intro row hrow
      have htime := (hmap.times row.time).mpr (List.mem_map_of_mem hrow)
      rw [hempty] at htime
      cases htime
    rw [← hnoRows]
    exact ⟨hrows, hnone⟩
  · intro text' rows hreordered hrows hnodup
    obtain ⟨rows', hrows', hperm⟩ := hreordered.exists_dataRows hrows
    obtain ⟨rows'', hrows'', hmap⟩ := readCandles_eq_ok_iff.mp hread
    obtain rfl := hrows.unique hrows''
    exact readCandles_eq_ok_iff.mpr ⟨rows', hrows', hmap.of_perm hperm hnodup⟩

end

/-- A time that stands in a table twice, in seconds and as a date, with the later record counting;
and two records in either order. -/
theorem loaded_candles_sorted_map_two_spellings :
    let repeated := "time,open,high,low,close\n120,3,3,3,3\n60,1,1,1,1\n1970-01-01 00:01:00,2,2,2,2\n"
    let descending := "time,open,high,low,close\n120,3,3,3,3\n60,2,2,2,2\n"
    let ascending := "time,open,high,low,close\n60,2,2,2,2\n120,3,3,3,3\n"
    let candles : List (Candle Float) := [⟨60, 2, 2, 2, 2, 0⟩, ⟨120, 3, 3, 3, 3, 0⟩]
    readCandles repeated = .ok candles ∧ readCandles descending = .ok candles ∧
    Reordered descending ascending ∧ readCandles ascending = .ok candles := by
  intro repeated descending ascending candles
  let header := ["time", "open", "high", "low", "close"].map String.toList
  let early := ["60", "2", "2", "2", "2"].map String.toList
  let late := ["120", "3", "3", "3", "3"].map String.toList
  have hrecords : csvRecords descending.toList = header :: [late, early] := by decide +kernel
  have hrows : DataRows descending [⟨120, 3, 3, 3, 3, 0⟩, ⟨60, 2, 2, 2, 2, 0⟩] :=
    (dataRows_iff_of_records hrecords).mpr (by decide +kernel)
  have hrows' : DataRows repeated
      [⟨120, 3, 3, 3, 3, 0⟩, ⟨60, 1, 1, 1, 1, 0⟩, ⟨60, 2, 2, 2, 2, 0⟩] := by
    have hrecords : csvRecords repeated.toList = header :: [late, ["60", "1", "1", "1", "1"].map
        String.toList, ["1970-01-01 00:01:00", "2", "2", "2", "2"].map String.toList] := by
      decide +kernel
    exact (dataRows_iff_of_records hrecords).mpr (by decide +kernel)
  have hmap : SortedMap [⟨120, 3, 3, 3, 3, 0⟩, ⟨60, 2, 2, 2, 2, 0⟩] candles :=
    ⟨by decide, fun time => by simp [candles, or_comm], by decide +kernel⟩
  have hmap' : SortedMap [⟨120, 3, 3, 3, 3, 0⟩, ⟨60, 1, 1, 1, 1, 0⟩, ⟨60, 2, 2, 2, 2, 0⟩] candles :=
    ⟨by decide, fun time => by simp [candles, or_comm], by decide +kernel⟩
  have hreordered : Reordered descending ascending :=
    ⟨header, [late, early], [early, late], hrecords, by decide +kernel, List.Perm.swap early late []⟩
  have hread : readCandles descending = .ok candles :=
    (loaded_candles_sorted_map descending candles).1.mpr ⟨_, hrows, hmap⟩
  refine ⟨(loaded_candles_sorted_map repeated candles).1.mpr ⟨_, hrows', hmap'⟩, hread, hreordered, ?_⟩
  exact ((loaded_candles_sorted_map descending candles).2 hread).2 ascending _ hreordered hrows
    (by decide)

end Backtester
