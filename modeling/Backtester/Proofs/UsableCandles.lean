import Backtester.Proofs.Booking
import Backtester.Proofs.WholeNumbers
import Backtester.Settings.Range
import Mathlib.Order.Bounds.Basic

/-!
# Usable candles

Before a run its candles are checked row by row: the five values of a row first, then its time
against the time of the row before.  The check stops at the first row where something is wrong.
Neighbours in order make all rows ordered, so what it lets pass is what the run relies on.

* `UsableRows` — what a run relies on: values that are finite and not negative, and every time
  before all later ones.
* `usableRows_concat_iff` — one more row is compared with the last one only.
* `RowProblem` — what can be wrong with a row after others.
* `stopsAt_of_firstProblem` — where the check stops, and why.
* `candle_check_exact` — the check accepts what a run relies on, and nothing else.
-/

namespace Backtester

open Doubles

/-- A finite value that is not negative. -/
def UsableValue (x : Float) : Prop := x.isFinite = true ∧ 0 ≤ toReal x

/-- All values of a candle are finite and not negative. -/
def Candle.UsableValues (c : Candle Float) : Prop := ∀ field ∈ c.fields, UsableValue field.2

/-- Candles that a run can rely on. -/
structure UsableRows (candles : List (Candle Float)) : Prop where
  /-- Every price and volume is finite and not negative. -/
  values : ∀ c ∈ candles, c.UsableValues
  /-- Every time is before all later ones. -/
  ascending : Ascending candles

/-- What is wrong with a candle that stands behind some others. -/
inductive RowProblem (seen : List (Candle Float)) (c : Candle Float) : CandleProblem → Prop
  /-- The first of its values that is negative or not finite. -/
  | value {front behind : List (String × Float)} {name : String} {x : Float}
      (hfields : c.fields = front ++ (name, x) :: behind)
      (hfront : ∀ field ∈ front, UsableValue field.2) (hvalue : ¬UsableValue x) :
      RowProblem seen c (.badValue name x)
  /-- With five good values, its time is not after that of the candle before it. -/
  | time {previous : Candle Float} (hvalues : c.UsableValues)
      (hprevious : seen.getLast? = some previous) (hle : c.time ≤ previous.time) :
      RowProblem seen c (.notAfter c.time previous.time)

/-! ## One row -/

variable {seen rest : List (Candle Float)} {c : Candle Float} {problem : CandleProblem}

/-- The first field of a candle that fails the test of values. -/
def Candle.badField? (c : Candle Float) : Option (String × Float) :=
  c.fields.find? fun field => !field.2.isFinite || decide (field.2 < 0)

/-- The test of a value: not-a-number fails it, and negative zero passes. -/
theorem value_test_iff (x : Float) : (!x.isFinite || decide (x < 0)) = true ↔ ¬UsableValue x := by
  rw [UsableValue, Bool.or_eq_true, Bool.not_eq_true', decide_eq_true_iff]
  by_cases hfinite : x.isFinite = true
  · rw [lt_iff_toReal hfinite toReal_zero.1, toReal_zero.2]
    simp [hfinite]
  · simp [hfinite]

theorem Candle.badField?_eq_none_iff : c.badField? = none ↔ c.UsableValues := by
  rw [badField?, List.find?_eq_none]
  exact forall₂_congr fun field _ => (not_congr (value_test_iff field.2)).trans not_not

theorem Candle.badField?_eq_some_iff {name : String} {x : Float} :
    c.badField? = some (name, x) ↔ ¬UsableValue x ∧ ∃ front behind,
      c.fields = front ++ (name, x) :: behind ∧ ∀ field ∈ front, UsableValue field.2 := by
  have hgood (field : String × Float) :
      (!(!field.2.isFinite || decide (field.2 < 0))) = true ↔ UsableValue field.2 := by
    rw [Bool.not_eq_true', ← Bool.not_eq_true, value_test_iff, not_not]
  rw [badField?, List.find?_eq_some_iff_append, value_test_iff]
  simp only [hgood]

/-- The first bad value decides, and only without one the time does. -/
theorem Candle.problem?_eq (previous : Option ℤ) :
    c.problem? previous = c.badField?.elim
      (previous.bind fun time => if c.time ≤ time then some (.notAfter c.time time) else none)
      fun field => some (.badValue field.1 field.2) := by
  unfold problem?
  split
  · next name x hfield => rw [show c.badField? = some (name, x) from hfield, Option.elim_some]
  · next hfield =>
      rw [show c.badField? = none from hfield, Option.elim_none]
      cases previous <;> rfl

theorem Candle.problem?_eq_some_iff :
    c.problem? (seen.getLast?.map Candle.time) = some problem ↔ RowProblem seen c problem := by
  rw [problem?_eq]
  constructor
  · intro h
    cases hfield : c.badField? with
    | some field =>
        rw [hfield] at h
        obtain rfl := Option.some.inj h
        obtain ⟨hvalue, front, behind, hfields, hfront⟩ := badField?_eq_some_iff.mp hfield
        exact .value hfields hfront hvalue
    | none =>
        rw [hfield, Option.elim_none, Option.bind_map] at h
        obtain ⟨previous, hlast, htime⟩ := Option.bind_eq_some_iff.mp h
        obtain ⟨hle, heq⟩ := Option.ite_none_right_eq_some.mp htime
        obtain rfl := Option.some.inj heq
        exact .time (badField?_eq_none_iff.mp hfield) hlast hle
  · intro h
    cases h with
    | value hfields hfront hvalue =>
        rw [badField?_eq_some_iff.mpr ⟨hvalue, _, _, hfields, hfront⟩, Option.elim_some]
    | time hvalues hprevious hle =>
        rw [badField?_eq_none_iff.mpr hvalues, hprevious]
        exact if_pos hle

theorem Candle.problem?_eq_none_iff {previous : Option ℤ} :
    c.problem? previous = none ↔ c.UsableValues ∧ ∀ time ∈ previous, time < c.time := by
  rw [problem?_eq, ← badField?_eq_none_iff]
  cases c.badField? with
  | some field => simp
  | none => cases previous <;> simp

theorem ascending_concat_iff :
    Ascending (seen ++ [c]) ↔ Ascending seen ∧ ∀ d ∈ seen, d.time < c.time := by
  simp [Ascending, List.pairwise_append]

/-- Behind usable rows, a row is compared with the last of them: all others are earlier still. -/
theorem usableRows_concat_iff : UsableRows (seen ++ [c]) ↔
    UsableRows seen ∧ c.UsableValues ∧ ∀ time ∈ seen.getLast?.map Candle.time, time < c.time := by
  constructor
  · intro h
    obtain ⟨hseen, hbefore⟩ := ascending_concat_iff.mp h.ascending
    refine ⟨⟨fun d hd => h.values d (List.mem_append_left _ hd), hseen⟩,
      h.values c (List.mem_append_right _ (List.mem_singleton_self c)), fun time htime => ?_⟩
    obtain ⟨last, hlast, rfl⟩ := Option.map_eq_some_iff.mp htime
    exact hbefore last (List.mem_of_getLast? hlast)
  · rintro ⟨hseen, hvalues, hafter⟩
    refine ⟨fun d hd => ?_, ascending_concat_iff.mpr ⟨hseen.ascending, fun d hd => ?_⟩⟩
    · rcases List.mem_append.mp hd with hd | hd
      · exact hseen.values d hd
      · rw [List.mem_singleton.mp hd]
        exact hvalues
    · cases hlast : seen.getLast? with
      | none =>
          rw [List.getLast?_eq_none_iff.mp hlast] at hd
          cases hd
      | some last =>
          have hlt := hafter last.time (by rw [hlast]; rfl)
          obtain ⟨front, rfl⟩ := List.getLast?_eq_some_iff.mp hlast
          have hends := (ascending_concat_iff.mp hseen.ascending).2
          rcases List.mem_append.mp hd with hfront | hend
          · exact (hends d hfront).trans hlt
          · rwa [List.mem_singleton.mp hend]

/-- Rows that end with a problem are not usable. -/
theorem RowProblem.not_usableRows (h : RowProblem seen c problem) : ¬UsableRows (seen ++ [c]) := by
  intro husable
  have hnone := Candle.problem?_eq_none_iff.mpr (usableRows_concat_iff.mp husable).2
  rw [Candle.problem?_eq_some_iff.mpr h] at hnone
  cases hnone

/-- Some of the rows, in their order, are usable too. -/
theorem UsableRows.sublist {candles : List (Candle Float)} (h : UsableRows candles)
    (hsub : rest.Sublist candles) : UsableRows rest :=
  ⟨fun c hc => h.values c (hsub.subset hc), h.ascending.sublist (hsub.map Candle.time)⟩

theorem usableRows_nil : UsableRows [] := ⟨fun c hc => (by cases hc), List.Pairwise.nil⟩

/-! ## All rows -/

/-- The rows before a row are usable, and something is wrong with that row. -/
structure StopsAt (candles : List (Candle Float)) (row : ℕ) (problem : CandleProblem) : Prop where
  before : UsableRows (candles.take row)
  here : ∃ c, candles[row]? = some c ∧ RowProblem (candles.take row) c problem

theorem take_concat {candles : List (Candle Float)} {row : ℕ} (h : candles[row]? = some c) :
    candles.take row ++ [c] = candles.take (row + 1) := by
  rw [List.take_add_one, h, Option.toList_some]

/-- The rows before the stop are the most that are usable from the first on. -/
theorem StopsAt.isGreatest {candles : List (Candle Float)} {row : ℕ}
    (h : StopsAt candles row problem) :
    IsGreatest {n | n ≤ candles.length ∧ UsableRows (candles.take n)} row := by
  obtain ⟨c, hrow, hproblem⟩ := h.here
  refine ⟨⟨(List.getElem?_eq_some_iff.mp hrow).1.le, h.before⟩, ?_⟩
  rintro n ⟨-, husable⟩
  by_contra hlater
  -- More rows would hold the one with the problem.
  have hsub : (candles.take row ++ [c]).Sublist (candles.take n) := by
    rw [take_concat hrow]
    exact (List.take_prefix_take_left (by omega)).sublist
  exact hproblem.not_usableRows (husable.sublist hsub)

/-- Rows with a problem among them are not usable. -/
theorem StopsAt.not_usableRows {candles : List (Candle Float)} {row : ℕ}
    (h : StopsAt candles row problem) : ¬UsableRows candles := by
  intro husable
  obtain ⟨c, hrow, -⟩ := h.here
  have hmost := h.isGreatest.2 ⟨le_rfl, by rwa [List.take_length]⟩
  exact absurd (List.getElem?_eq_some_iff.mp hrow).1 (not_lt.mpr hmost)

theorem StopsAt.unique {candles : List (Candle Float)} {row row' : ℕ} {problem' : CandleProblem}
    (h : StopsAt candles row problem) (h' : StopsAt candles row' problem') :
    row = row' ∧ problem = problem' := by
  obtain rfl := h.isGreatest.unique h'.isGreatest
  obtain ⟨c, hrow, hproblem⟩ := h.here
  obtain ⟨c', hrow', hproblem'⟩ := h'.here
  obtain rfl := Option.some.inj (hrow.symm.trans hrow')
  exact ⟨rfl, Option.some.inj ((Candle.problem?_eq_some_iff.mpr hproblem).symm.trans
    (Candle.problem?_eq_some_iff.mpr hproblem'))⟩

/-- The check of the rows behind usable ones. -/
theorem firstProblem_cases (hseen : UsableRows seen) (rest : List (Candle Float)) :
    (firstProblem seen.length (seen.getLast?.map Candle.time) rest = none ∧
      UsableRows (seen ++ rest)) ∨
    ∃ row problem, firstProblem seen.length (seen.getLast?.map Candle.time) rest =
      some (row, problem) ∧ StopsAt (seen ++ rest) row problem := by
  induction rest generalizing seen with
  | nil => exact Or.inl ⟨rfl, by rwa [List.append_nil]⟩
  | cons c rest ih =>
      rw [firstProblem]
      cases hproblem : c.problem? (seen.getLast?.map Candle.time) with
      | some problem =>
          have htake : (seen ++ c :: rest).take seen.length = seen := List.take_left
          refine Or.inr ⟨seen.length, problem, rfl, ?_, c, ?_, ?_⟩
          · rwa [htake]
          · rw [List.getElem?_append_right le_rfl, Nat.sub_self]
            rfl
          · rw [htake]
            exact Candle.problem?_eq_some_iff.mp hproblem
      | none =>
          have hnext : UsableRows (seen ++ [c]) :=
            usableRows_concat_iff.mpr ⟨hseen, Candle.problem?_eq_none_iff.mp hproblem⟩
          have hrest := ih hnext
          rwa [List.length_append, List.getLast?_concat, List.append_assoc] at hrest

theorem checkCandles_cases {candles : List (Candle Float)} (hne : candles ≠ []) :
    (checkCandles candles = .ok () ∧ UsableRows candles) ∨
    ∃ row problem, checkCandles candles = .error (row, problem) ∧ StopsAt candles row problem := by
  have hempty : candles.isEmpty = false := by simpa using hne
  unfold checkCandles
  rw [hempty, if_neg Bool.false_ne_true]
  rcases firstProblem_cases usableRows_nil candles with
    ⟨hnone, husable⟩ | ⟨row, problem, hsome, hstops⟩
  · refine Or.inl ⟨?_, husable⟩
    rw [show firstProblem 0 none candles = none from hnone]
  · refine Or.inr ⟨row, problem, ?_, hstops⟩
    rw [show firstProblem 0 none candles = some (row, problem) from hsome]

theorem usableRows_of_checkCandles {candles : List (Candle Float)}
    (h : checkCandles candles = .ok ()) : UsableRows candles := by
  have hne : candles ≠ [] := by
    rintro rfl
    cases h
  rcases checkCandles_cases hne with ⟨-, husable⟩ | ⟨row, problem, herror, -⟩
  · exact husable
  · rw [herror] at h
    cases h

/-- Of no candles, none are usable rows from the first on. -/
theorem isGreatest_usableRows_nil {row : ℕ} :
    IsGreatest {n | n ≤ ([] : List (Candle Float)).length ∧ UsableRows (List.take n [])} row ↔
      row = 0 := by
  constructor
  · exact fun h => Nat.le_zero.mp h.1.1
  · rintro rfl
    exact ⟨⟨le_rfl, usableRows_nil⟩, fun n hn => hn.1⟩

/-- The check accepts exactly what a run relies on: one candle at least, values that are finite and
not negative, and every time before all later ones.  Otherwise it reports how many rows from the
first on are usable, and of the row behind them the first value, in the order of a table, that is
not; or, if all five are, its time.  The text of the problem begins with the name of what it is
about. -/
theorem candle_check_exact (candles : List (Candle Float)) :
    (checkCandles candles = .ok () ↔ candles ≠ [] ∧ UsableRows candles) ∧
    (∀ row problem, checkCandles candles = .error (row, problem) ↔
      IsGreatest {n | n ≤ candles.length ∧ UsableRows (candles.take n)} row ∧
      (candles = [] ∧ problem = .noCandles ∨
        ∃ c, candles[row]? = some c ∧ RowProblem (candles.take row) c problem)) ∧
    (∀ name x, (name ++ " must be a non-negative number, got ").toList <+:
      (CandleProblem.badValue name x).message.toList) ∧
    ∀ time previous, "time ".toList <+: (CandleProblem.notAfter time previous).message.toList := by
  have htext (front rest : String) : front.toList <+: (front ++ rest).toList := by
    rw [String.toList_append]
    exact List.prefix_append _ _
  refine ⟨?_, fun row problem => ?_, fun name x => ?_, fun time previous => ?_⟩
  · rcases eq_or_ne candles [] with rfl | hne
    · exact iff_of_false (by simp [checkCandles]) fun h => h.1 rfl
    · rcases checkCandles_cases hne with ⟨hok, husable⟩ | ⟨row, problem, herror, hstops⟩
      · exact iff_of_true hok ⟨hne, husable⟩
      · rw [herror]
        exact iff_of_false nofun fun h => hstops.not_usableRows h.2
  · rcases eq_or_ne candles [] with rfl | hne
    · rw [isGreatest_usableRows_nil]
      simp [checkCandles, eq_comm]
    · have hstops_iff : StopsAt candles row problem ↔
          IsGreatest {n | n ≤ candles.length ∧ UsableRows (candles.take n)} row ∧
          (candles = [] ∧ problem = .noCandles ∨
            ∃ c, candles[row]? = some c ∧ RowProblem (candles.take row) c problem) := by
        rw [or_iff_right fun h => hne h.1]
        exact ⟨fun h => ⟨h.isGreatest, h.here⟩, fun h => ⟨h.1.1.2, h.2⟩⟩
      rw [← hstops_iff]
      rcases checkCandles_cases hne with ⟨hok, husable⟩ | ⟨row', problem', herror, hstops⟩
      · rw [hok]
        exact iff_of_false nofun fun h => h.not_usableRows husable
      · rw [herror]
        constructor
        · rintro ⟨⟩
          exact hstops
        · intro h
          obtain ⟨rfl, rfl⟩ := h.unique hstops
          rfl
  · exact htext (name ++ " must be a non-negative number, got ") (NumberStyle.display.write x)
  · have hmessage : (CandleProblem.notAfter time previous).message =
        "time " ++ (intText time ++ " does not follow " ++ intText previous) := by
      simp [CandleProblem.message, String.append_assoc]
    rw [hmessage]
    exact htext _ _

/-- Negative zero is no negative number, and a bad value is reported before a time that does not
follow. -/
example : checkCandles [⟨0, -0.0, 1, 1, 1, 1⟩, ⟨0, 1, 1, 1, 1, -1⟩] =
    .error (1, .badValue "volume" (-1)) := by
  decide +kernel

end Backtester
