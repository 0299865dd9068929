import Backtester.Calendar
import Mathlib.Data.Int.Init
import Mathlib.Tactic.Ring

/-!
# Days and dates

The calendar goes from each date to the next one: to the next day of the month, else to the first of
the next month, else to 1 January of the next year.  Counted in this way from 1 January 1970, every
day has one date, and this is the date that the cycles of years give.

* `Date.next`, `DayOf` — the next date, and the date of a day by counting in both directions.
* `daysBeforeYear_succ` — a year has as many days as its months.
* `monthOfDay_of_lt`, `exists_monthOfDay` — the month and the day in it of a day of the year.
* `Date.dayNumber_next` — the next date is one day later.
* `Date.dayNumber_ofDayNumber`, `Date.eq_of_dayNumber` — days and dates belong together one to one.
* `dayOf_iff` — the date of a day is the one that is computed.
-/

namespace Backtester

/-! ## Months -/

theorem daysInMonths_take_succ {lengths : List Nat} {k length : Nat}
    (hlength : lengths[k]? = some length) :
    daysInMonths (lengths.take (k + 1)) = daysInMonths (lengths.take k) + length := by
  induction lengths generalizing k with
  | nil => cases hlength
  | cons first rest ih =>
      cases k with
      | zero =>
          obtain rfl := Option.some.inj hlength
          simp [daysInMonths]
      | succ k =>
          have hrest := ih (k := k) (by simpa using hlength)
          rw [List.take_succ_cons, List.take_succ_cons, daysInMonths, daysInMonths, hrest,
            Nat.add_assoc]

/-- The months before a month, together with the part of it before a day, are that day of the
year. -/
theorem monthOfDay_of_lt {lengths : List Nat} {k length d : Nat} (first : Nat)
    (hlength : lengths[k]? = some length) (hd : d < length) :
    monthOfDay first lengths (daysInMonths (lengths.take k) + d) = (first + k, d + 1) := by
  induction lengths generalizing k first with
  | nil => cases hlength
  | cons own rest ih =>
      cases k with
      | zero =>
          obtain rfl := Option.some.inj hlength
          rw [List.take_zero, daysInMonths, Nat.zero_add, monthOfDay, if_pos hd]
          rfl
      | succ k =>
          have hrest := ih (first + 1) (k := k) (by simpa using hlength)
          rw [List.take_succ_cons, daysInMonths, monthOfDay, if_neg (by omega)]
          rw [show own + daysInMonths (rest.take k) + d - own = daysInMonths (rest.take k) + d by
            omega, hrest, Nat.add_assoc, Nat.add_comm 1 k]

/-- Every day of the year lies in a month. -/
theorem exists_month_of_lt {lengths : List Nat} {day : Nat} (hday : day < daysInMonths lengths) :
    ∃ k length d, lengths[k]? = some length ∧ d < length ∧
      daysInMonths (lengths.take k) + d = day := by
  induction lengths generalizing day with
  | nil => cases hday
  | cons first rest ih =>
      rw [daysInMonths] at hday
      by_cases hfirst : day < first
      · exact ⟨0, first, day, rfl, hfirst, Nat.zero_add day⟩
      · have hrest : day - first < daysInMonths rest := by omega
        obtain ⟨k, length, d, hlength, hd, hsum⟩ := ih hrest
        refine ⟨k + 1, length, d, by simpa using hlength, hd, ?_⟩
        rw [List.take_succ_cons, daysInMonths]
        omega

theorem monthLength_bounds {leap : Bool} {k length : Nat}
    (hlength : (monthLengths leap)[k]? = some length) : k < 12 ∧ 0 < length ∧ length ≤ 31 := by
  have hk : k < 12 := (List.getElem?_eq_some_iff.mp hlength).1
  have hmem := List.mem_of_getElem? hlength
  have hall : ∀ length ∈ monthLengths leap, 0 < length ∧ length ≤ 31 := by
    cases leap <;> decide
  exact ⟨hk, hall length hmem⟩

/-- A year has as many days as its months. -/
theorem daysBeforeYear_succ (year : Int) :
    daysBeforeYear (year + 1) = daysBeforeYear year + daysInMonths (monthLengths (isLeapYear year)) := by
  have hleap : daysInMonths (monthLengths true) = 366 := rfl
  have hplain : daysInMonths (monthLengths false) = 365 := rfl
  unfold daysBeforeYear
  dsimp only
  cases hyear : isLeapYear year with
  | true =>
      rw [hleap]
      simp only [isLeapYear, Bool.and_eq_true, Bool.or_eq_true, decide_eq_true_eq] at hyear
      omega
  | false =>
      rw [hplain]
      simp only [isLeapYear, Bool.and_eq_false_iff, Bool.or_eq_false_iff, decide_eq_false_iff_not]
        at hyear
      omega

/-- A later year begins no sooner than an earlier one ends. -/
theorem daysBeforeYear_mono {year later : Int} (h : year < later) :
    daysBeforeYear (year + 1) ≤ daysBeforeYear later := by
  unfold daysBeforeYear
  dsimp only
  omega

namespace Date

/-! ## Dates that exist -/

/-- A date exists if its month is one of the twelve and long enough. -/
theorem exists?_iff {d : Date} :
    d.exists? = true ↔ ∃ k length j, d.month = k + 1 ∧ d.day = j + 1 ∧
      (monthLengths (isLeapYear d.year))[k]? = some length ∧ j < length := by
  unfold exists?
  rw [Bool.and_eq_true, Bool.and_eq_true, decide_eq_true_iff, decide_eq_true_iff,
    Option.any_eq_true]
  constructor
  · rintro ⟨⟨hmonth, hday⟩, length, hlength, hfits⟩
    have hle := of_decide_eq_true hfits
    exact ⟨d.month - 1, length, d.day - 1, by omega, by omega, hlength, by omega⟩
  · rintro ⟨k, length, j, hmonth, hday, hlength, hj⟩
    rw [hmonth, hday, Nat.add_sub_cancel]
    exact ⟨⟨Nat.le_add_left 1 k, Nat.le_add_left 1 j⟩, length, hlength, decide_eq_true hj⟩

/-- The day of a date in the `k + 1`th month. -/
theorem dayNumber_eq {d : Date} {k j : Nat} (hmonth : d.month = k + 1) (hday : d.day = j + 1) :
    d.dayNumber + epochDay =
      daysBeforeYear d.year +
        (daysInMonths ((monthLengths (isLeapYear d.year)).take k) + j : Nat) := by
  unfold dayNumber
  rw [hmonth, hday, Nat.add_sub_cancel, Nat.add_sub_cancel]
  push_cast
  ring

/-- The days up to the end of a month are among those of the year. -/
theorem daysInMonths_take_le (lengths : List Nat) (k : Nat) :
    daysInMonths (lengths.take k) ≤ daysInMonths lengths := by
  induction lengths generalizing k with
  | nil => rw [List.take_nil]
  | cons first rest ih =>
      cases k with
      | zero => exact Nat.zero_le _
      | succ k => exact Nat.add_le_add_left (ih k) first

/-- The day of a date lies in its year. -/
theorem dayNumber_bounds {d : Date} (h : d.exists? = true) :
    daysBeforeYear d.year ≤ d.dayNumber + epochDay ∧
      d.dayNumber + epochDay < daysBeforeYear (d.year + 1) := by
  obtain ⟨k, length, j, hmonth, hday, hlength, hj⟩ := exists?_iff.mp h
  have hend := daysInMonths_take_le (monthLengths (isLeapYear d.year)) (k + 1)
  rw [daysInMonths_take_succ hlength] at hend
  rw [dayNumber_eq hmonth hday, daysBeforeYear_succ]
  omega

/-- No two dates have the same day. -/
theorem eq_of_dayNumber {d e : Date} (hd : d.exists? = true) (he : e.exists? = true)
    (h : d.dayNumber = e.dayNumber) : d = e := by
  obtain ⟨hlow, hhigh⟩ := dayNumber_bounds hd
  obtain ⟨hlow', hhigh'⟩ := dayNumber_bounds he
  have hyear : d.year = e.year := by
    rcases lt_trichotomy d.year e.year with hlt | heq | hgt
    · have hmono := daysBeforeYear_mono hlt
      omega
    · exact heq
    · have hmono := daysBeforeYear_mono hgt
      omega
  obtain ⟨k, length, j, hmonth, hday, hlength, hj⟩ := exists?_iff.mp hd
  obtain ⟨k', length', j', hmonth', hday', hlength', hj'⟩ := exists?_iff.mp he
  have hsum := dayNumber_eq hmonth hday
  rw [h, dayNumber_eq hmonth' hday', hyear] at hsum
  have hdays := Int.ofNat.inj (add_left_cancel hsum)
  have hfound := monthOfDay_of_lt 1 hlength hj
  rw [hyear, ← hdays, monthOfDay_of_lt 1 hlength' hj', Prod.mk.injEq] at hfound
  obtain ⟨year, month, day⟩ := d
  obtain ⟨year', month', day'⟩ := e
  dsimp only at hyear hmonth hday hmonth' hday'
  rw [hyear, hmonth, hday, hmonth', hday', ← hfound.2, Nat.add_comm k 1, ← hfound.1,
    Nat.add_comm 1 k']

/-! ## The date of a day -/

/-- The days before a year, by the cycles of 400, 100 and 4 years that are over. -/
theorem daysBeforeYear_cycles (cycle : Int) {century four one : Nat} (hcentury : century ≤ 3)
    (hfour : four ≤ 24) (hone : one ≤ 3) :
    daysBeforeYear (400 * cycle + (100 * century + 4 * four + one : Nat) + 1) =
      146097 * cycle + (36524 * century + 1461 * four + 365 * one : Nat) := by
  unfold daysBeforeYear
  dsimp only
  omega

/-- The last year of four is a leap year, but for the last year of a century that is not the
fourth. -/
theorem isLeapYear_cycles (cycle : Int) {century four one : Nat} (hfour : four ≤ 24) (hone : one = 3)
    (hlast : four < 24 ∨ century = 3) :
    isLeapYear (400 * cycle + (100 * century + 4 * four + one : Nat) + 1) = true := by
  simp only [isLeapYear, Bool.and_eq_true, Bool.or_eq_true, decide_eq_true_eq]
  omega

theorem le_daysInMonths (leap : Bool) : 365 ≤ daysInMonths (monthLengths leap) := by
  cases leap <;> decide

/-- The year of a day, through the cycles of 400, 100, 4 and 1 years. -/
theorem exists_ofDayNumber (n : Int) :
    ∃ year, ∃ day : Nat, daysBeforeYear year + day = n + epochDay ∧
      day < daysInMonths (monthLengths (isLeapYear year)) ∧
      ofDayNumber n = ⟨year, (monthOfDay 1 (monthLengths (isLeapYear year)) day).1,
        (monthOfDay 1 (monthLengths (isLeapYear year)) day).2⟩ := by
  obtain ⟨inCycle, hinCycle⟩ : ∃ inCycle, inCycle = ((n + epochDay) % 146097).toNat := ⟨_, rfl⟩
  obtain ⟨century, hcentury⟩ : ∃ century, century = min (inCycle / 36524) 3 := ⟨_, rfl⟩
  obtain ⟨inCentury, hinCentury⟩ : ∃ inCentury, inCentury = inCycle - century * 36524 := ⟨_, rfl⟩
  obtain ⟨one, hone⟩ : ∃ one, one = min (inCentury % 1461 / 365) 3 := ⟨_, rfl⟩
  have hdate : ofDayNumber n =
      let year : Int := 400 * ((n + epochDay) / 146097) +
        (100 * century + 4 * (inCentury / 1461) + one : Nat) + 1
      ⟨year, (monthOfDay 1 (monthLengths (isLeapYear year)) (inCentury % 1461 - one * 365)).1,
        (monthOfDay 1 (monthLengths (isLeapYear year)) (inCentury % 1461 - one * 365)).2⟩ := by
    subst hone hinCentury hcentury hinCycle
    rfl
  have hfour : inCentury / 1461 ≤ 24 := by omega
  refine ⟨_, _, ?_, ?_, hdate⟩
  · rw [daysBeforeYear_cycles _ (by omega) hfour (by omega)]
    omega
  · -- The day 366 is only reached in a leap year.
    by_cases hlong : inCentury % 1461 - one * 365 < 365
    · exact hlong.trans_le (le_daysInMonths _)
    · rw [isLeapYear_cycles _ hfour (by omega) (by omega)]
      have hleap : daysInMonths (monthLengths true) = 366 := rfl
      omega

theorem exists?_ofDayNumber (n : Int) :
    (ofDayNumber n).exists? = true ∧ (ofDayNumber n).dayNumber = n := by
  obtain ⟨year, day, hsum, hday, hdate⟩ := exists_ofDayNumber n
  obtain ⟨k, length, j, hlength, hj, hmonths⟩ := exists_month_of_lt hday
  rw [← hmonths, monthOfDay_of_lt 1 hlength hj] at hdate
  have hmonth : (ofDayNumber n).month = k + 1 := by rw [hdate, Nat.add_comm]
  have hdays : (ofDayNumber n).day = j + 1 := by rw [hdate]
  have hyear : (ofDayNumber n).year = year := by rw [hdate]
  refine ⟨exists?_iff.mpr ⟨k, length, j, hmonth, hdays, by rw [hyear, hlength], hj⟩, ?_⟩
  have hnumber := dayNumber_eq hmonth hdays
  rw [hyear, hmonths, hsum] at hnumber
  omega

/-! ## The next date -/

/-- The length of a month. -/
def monthLength (year : Int) (month : Nat) : Nat :=
  ((monthLengths (isLeapYear year))[month - 1]?).getD 0

/-- The date after a date. -/
def next (d : Date) : Date :=
  if d.day < monthLength d.year d.month then ⟨d.year, d.month, d.day + 1⟩
  else if d.month < 12 then ⟨d.year, d.month + 1, 1⟩
  else ⟨d.year + 1, 1, 1⟩

theorem exists_month (leap : Bool) {k : Nat} (hk : k < 12) :
    ∃ length, (monthLengths leap)[k]? = some length ∧ 0 < length := by
  have hlength : (monthLengths leap)[k]? = some ((monthLengths leap).get ⟨k, hk⟩) :=
    List.getElem?_eq_getElem hk
  exact ⟨_, hlength, (monthLength_bounds hlength).2.1⟩

/-- The next date is one day later. -/
theorem dayNumber_next {d : Date} (h : d.exists? = true) :
    d.next.exists? = true ∧ d.next.dayNumber = d.dayNumber + 1 := by
  obtain ⟨k, length, j, hmonth, hday, hlength, hj⟩ := exists?_iff.mp h
  have hnumber := dayNumber_eq hmonth hday
  have hlast : monthLength d.year d.month = length := by
    rw [monthLength, hmonth, Nat.add_sub_cancel, hlength, Option.getD_some]
  obtain ⟨hk, -, -⟩ := monthLength_bounds hlength
  have hstep := daysInMonths_take_succ hlength
  unfold next
  rw [hlast]
  by_cases hsame : d.day < length
  · rw [if_pos hsame]
    have hnext := dayNumber_eq (d := ⟨d.year, d.month, d.day + 1⟩) (j := j + 1) hmonth (by rw [hday])
    refine ⟨exists?_iff.mpr ⟨k, length, j + 1, hmonth, by rw [hday], hlength, by omega⟩, ?_⟩
    push_cast at hnext hnumber
    omega
  rw [if_neg hsame]
  have hend : j + 1 = length := by omega
  by_cases hyear : d.month < 12
  · rw [if_pos hyear]
    obtain ⟨length', hlength', hpositive⟩ := exists_month (isLeapYear d.year) (k := k + 1) (by omega)
    have hnext := dayNumber_eq (d := ⟨d.year, d.month + 1, 1⟩) (k := k + 1) (j := 0) (by rw [hmonth]) rfl
    refine ⟨exists?_iff.mpr ⟨k + 1, length', 0, by rw [hmonth], rfl, hlength', hpositive⟩, ?_⟩
    dsimp only at hnext
    rw [hstep] at hnext
    push_cast at hnext hnumber
    omega
  · rw [if_neg hyear]
    obtain ⟨length', hlength', hpositive⟩ := exists_month (isLeapYear (d.year + 1)) (k := 0) (by omega)
    have hnext := dayNumber_eq (d := ⟨d.year + 1, 1, 1⟩) (k := 0) (j := 0) rfl rfl
    refine ⟨exists?_iff.mpr ⟨0, length', 0, rfl, rfl, hlength', hpositive⟩, ?_⟩
    have hwhole : (monthLengths (isLeapYear d.year)).take (k + 1) = monthLengths (isLeapYear d.year) :=
      List.take_of_length_le (by show 12 ≤ k + 1; omega)
    rw [hwhole] at hstep
    dsimp only at hnext
    rw [daysBeforeYear_succ, hstep, List.take_zero, daysInMonths] at hnext
    push_cast at hnext hnumber
    omega

end Date

/-! ## Counting -/

open Date

/-- The date of a day by counting from 1 January 1970 on, and back to the date that goes before. -/
inductive DayOf : Int → Date → Prop
  | start : DayOf 0 ⟨1970, 1, 1⟩
  | forward {n : Int} {d : Date} (h : DayOf n d) : DayOf (n + 1) d.next
  | back {n : Int} {d : Date} (h : DayOf (n + 1) d.next) (hd : d.exists? = true) : DayOf n d

theorem ofDayNumber_of_dayNumber {n : Int} {d : Date} (hd : d.exists? = true)
    (h : d.dayNumber = n) : d = ofDayNumber n :=
  eq_of_dayNumber hd (exists?_ofDayNumber n).1 (h.trans (exists?_ofDayNumber n).2.symm)

theorem ofDayNumber_succ (n : Int) : ofDayNumber (n + 1) = (ofDayNumber n).next := by
  obtain ⟨hd, hnumber⟩ := exists?_ofDayNumber n
  obtain ⟨hnext, hsucc⟩ := dayNumber_next hd
  exact (ofDayNumber_of_dayNumber hnext (by rw [hsucc, hnumber])).symm

/-- The date of a day by counting is the one that is computed. -/
theorem dayOf_iff {n : Int} {d : Date} : DayOf n d ↔ d = ofDayNumber n := by
  constructor
  · intro h
    induction h with
    | start => decide
    | @forward n d _ ih => rw [ih, ofDayNumber_succ]
    | @back n d _ hd ih =>
        have hnumber := congrArg dayNumber ih
        rw [(dayNumber_next hd).2, (exists?_ofDayNumber (n + 1)).2] at hnumber
        exact ofDayNumber_of_dayNumber hd (by omega)
  · rintro rfl
    induction n using Int.induction_on with
    | zero => exact .start
    | succ n ih =>
        rw [ofDayNumber_succ]
        exact .forward ih
    | pred n ih =>
        refine .back ?_ (exists?_ofDayNumber _).1
        rwa [← ofDayNumber_succ, sub_add_cancel]

end Backtester
