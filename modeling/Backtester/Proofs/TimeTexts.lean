import Backtester.Proofs.CalendarDays
import Backtester.Proofs.CandleTables

/-!
# Times read back

A time can be written as a date and a time of day in several ways, and as a number of seconds or
milliseconds.  The forms are tried in a fixed order, and each text is taken by its own form.

* `Moment.isAt_iff` — every time has one moment, its date and time of day in universal time.
* `takeDigits_paddedText`, `takeLooseDate_text`, `takeClock_clockText` — padded numbers, dates and
  times of day are read back, whatever stands behind them.
* `readTime_dateText` — a text that starts with a date is tried in the forms with a date only.
* `readOffsetTime_text` — the form with an offset needs one behind the time of day.
* `readTime_zoned` — a text with an offset stands for the time in universal time.
* `time_spellings_read_back` — all spellings of a time are read as that time, and the console shows
  the first of them.
-/

namespace Backtester

open Grammar

/-! ## Moments -/

/-- A date in one of the years from 1 to 9999. -/
structure Date.InRange (d : Date) : Prop where
  exists? : d.exists? = true
  first : 1 ≤ d.year
  last : d.year ≤ 9999

/-- A date and a time of day in universal time. -/
structure Moment where
  /-- The date. -/
  date : Date
  /-- The hour of the day. -/
  hour : Fin 24
  /-- The minute of the hour. -/
  minute : Fin 60
  /-- The second of the minute. -/
  second : Fin 60
deriving DecidableEq

namespace Moment

variable {m : Moment} {time : ℤ}

/-- The seconds since the start of the day. -/
def clock (m : Moment) : ℕ := m.hour * 3600 + m.minute * 60 + m.second

/-- A clock that counts seconds from the start of 1970 shows the moment at a time. -/
structure IsAt (m : Moment) (time : ℤ) : Prop where
  date : DayOf (time / 86400) m.date
  clock : time % 86400 = m.clock

/-- The moment of a time. -/
def ofTime (time : ℤ) : Moment where
  date := Date.ofDayNumber (time / 86400)
  hour := ⟨(time % 86400).toNat / 3600, by omega⟩
  minute := ⟨(time % 86400).toNat / 60 % 60, by omega⟩
  second := ⟨(time % 86400).toNat % 60, by omega⟩

/-- Every time has one moment. -/
theorem isAt_iff : m.IsAt time ↔ m = ofTime time := by
  constructor
  · rintro ⟨hdate, hclock⟩
    obtain ⟨date, hour, minute, second⟩ := m
    rw [dayOf_iff] at hdate
    unfold clock at hclock
    unfold ofTime
    dsimp only at hdate hclock
    rw [mk.injEq, Fin.ext_iff, Fin.ext_iff, Fin.ext_iff]
    dsimp only
    exact ⟨hdate, by omega, by omega, by omega⟩
  · rintro rfl
    refine ⟨dayOf_iff.mpr rfl, ?_⟩
    unfold clock ofTime
    dsimp only
    omega

theorem IsAt.inRange (h : m.IsAt time) (hfirst : 1 ≤ m.date.year) (hlast : m.date.year ≤ 9999) :
    m.date.InRange := by
  refine ⟨?_, hfirst, hlast⟩
  rw [dayOf_iff.mp h.date]
  exact (Date.exists?_ofDayNumber _).1

theorem IsAt.dayNumber (h : m.IsAt time) : m.date.dayNumber = time / 86400 := by
  rw [dayOf_iff.mp h.date]
  exact (Date.exists?_ofDayNumber _).2

theorem IsAt.clockTime (h : m.IsAt time) (hrange : m.date.InRange) :
    clockTime m.date m.hour m.minute m.second = some time := by
  have hnumber := h.dayNumber
  have hclock := h.clock
  obtain ⟨hexists, hfirst, hlast⟩ := hrange
  have hhour := m.hour.isLt
  have hminute := m.minute.isLt
  have hsecond := m.second.isLt
  unfold Moment.clock at hclock
  unfold Backtester.clockTime firstYear lastYear
  -- A moment has no leap second, so nothing is cut off from its seconds.
  rw [if_pos (by simp [hexists]; omega), hnumber, min_eq_left (by omega), Option.some_inj]
  omega

/-- The times of the years from 1 to 9999. -/
theorem IsAt.bounds (h : m.IsAt time) (hrange : m.date.InRange) :
    -62135596800 ≤ time ∧ time < 253402300800 := by
  obtain ⟨hexists, hfirst, hlast⟩ := hrange
  obtain ⟨hlow, hhigh⟩ := Date.dayNumber_bounds hexists
  rw [h.dayNumber] at hlow hhigh
  unfold daysBeforeYear epochDay at hlow hhigh
  dsimp only at hlow hhigh
  omega

end Moment

/-! ## Padded numbers -/

theorem toList_paddedText (width n : ℕ) : (paddedText width n).toList =
    List.replicate (width - (decimalDigits n).length) '0' ++ decimalDigits n := by
  rw [paddedText, String.toList_ofList]

theorem allDigits_paddedText (width n : ℕ) : AllDigits (paddedText width n).toList := by
  rw [toList_paddedText]
  exact allDigits_append.mpr ⟨allDigits_replicate _, allDigits_decimalDigits n⟩

theorem digitsValue_paddedText (width n : ℕ) : digitsValue (paddedText width n).toList = n := by
  rw [toList_paddedText, digitsValue_append, digitsValue_replicate, digitsValue_decimalDigits,
    zero_mul, zero_add]

theorem length_paddedText {width n : ℕ} (hwidth : 0 < width) (hn : n < 10 ^ width) :
    (paddedText width n).toList.length = width := by
  have hlength : (decimalDigits n).length ≤ width := Nat.toDigits_length 10 n width hwidth hn
  rw [toList_paddedText, List.length_append, List.length_replicate, Nat.sub_add_cancel hlength]

theorem exists_paddedText {width n : ℕ} (hwidth : 0 < width) (hn : n < 10 ^ width) :
    ∃ c digits, (paddedText width n).toList = c :: digits ∧ isDigit c = true := by
  obtain ⟨c, digits, hcons⟩ := List.exists_cons_of_length_pos
    (hwidth.trans_eq (length_paddedText hwidth hn).symm)
  exact ⟨c, digits, hcons, allDigits_paddedText width n c (hcons ▸ List.mem_cons_self)⟩

/-- The last character of a padded number is no blank. -/
theorem getLast?_paddedText {width n : ℕ} (hwidth : 0 < width) (hn : n < 10 ^ width)
    {front : List Char} :
    ∀ c ∈ (front ++ (paddedText width n).toList).getLast?, isBlank c = false := by
  obtain ⟨first, digits, hcons, -⟩ := exists_paddedText hwidth hn
  have hne : (paddedText width n).toList ≠ [] := by
    rw [hcons]
    exact List.cons_ne_nil _ _
  intro c hc
  rw [List.getLast?_append_of_ne_nil _ hne] at hc
  exact not_isBlank_of_isDigit (allDigits_paddedText width n c (List.mem_of_getLast? hc))

section

variable {n : ℕ} (rest : List Char)

/-- A padded number is read back, whatever stands behind it. -/
theorem takeDigits_paddedText {least width : ℕ} (hleast : least ≤ width) (hwidth : 0 < width)
    (hn : n < 10 ^ width) :
    takeDigits least width ((paddedText width n).toList ++ rest) = some (n, rest) := by
  have hlength := length_paddedText hwidth hn
  have hdigits : (((paddedText width n).toList ++ rest).take width).takeWhile isDigit =
      (paddedText width n).toList := by
    rw [List.take_left' hlength]
    exact List.takeWhile_eq_self_iff.mpr (allDigits_paddedText width n)
  unfold takeDigits
  dsimp only
  rw [hdigits, hlength, if_neg (not_lt.mpr hleast), digitsValue_paddedText, List.drop_left' hlength]

theorem trimStart_paddedText {width : ℕ} (hwidth : 0 < width) (hn : n < 10 ^ width) :
    trimStart ((paddedText width n).toList ++ rest) = (paddedText width n).toList ++ rest := by
  obtain ⟨c, digits, hcons, hc⟩ := exists_paddedText hwidth hn
  rw [hcons]
  exact trimStart_of_head fun _ h => Option.some.inj h ▸ not_isBlank_of_isDigit hc

theorem takeLoose_paddedText (hn : n < 10 ^ 2) :
    takeLoose ((paddedText 2 n).toList ++ rest) = some (n, rest) := by
  rw [takeLoose, trimStart_paddedText rest two_pos hn]
  exact takeDigits_paddedText rest (by norm_num) two_pos hn

theorem takeYear_paddedText (hn : n < 10 ^ 4) :
    takeYear ((paddedText 4 n).toList ++ rest) = some ((n : ℤ), rest) := by
  have hread := takeDigits_paddedText rest (by norm_num : 1 ≤ 4) four_pos hn
  obtain ⟨c, digits, hcons, hc⟩ := exists_paddedText four_pos hn
  have hsign : c ≠ '-' ∧ c ≠ '+' := by
    constructor <;>
      · rintro rfl
        exact absurd hc (by decide)
  rw [takeYear, trimStart_paddedText rest four_pos hn]
  -- Behind a sign any number of digits would be taken, so the first character matters.
  split
  · next htext =>
      rw [hcons] at htext
      exact absurd (List.cons.inj htext).1 hsign.1
  · next htext =>
      rw [hcons] at htext
      exact absurd (List.cons.inj htext).1 hsign.2
  · rw [hread, Option.map_some]

end

/-! ## Dates and times of day -/

/-- A date with four digits for the year and two for the month and the day. -/
def Date.text (d : Date) : String :=
  paddedText 4 d.year.toNat ++ "-" ++ paddedText 2 d.month ++ "-" ++ paddedText 2 d.day

namespace Moment

/-- A time of day with two digits for each part. -/
def clockText (m : Moment) : String :=
  paddedText 2 m.hour ++ ":" ++ paddedText 2 m.minute ++ ":" ++ paddedText 2 m.second

/-- A date and a time of day, with a character between the two. -/
def text (between : Char) (m : Moment) : String :=
  m.date.text ++ String.singleton between ++ m.clockText

end Moment

section

variable {d : Date} {m : Moment} (rest : List Char)

theorem Date.InRange.bounds (h : d.InRange) :
    d.year.toNat < 10 ^ 4 ∧ (d.year.toNat : ℤ) = d.year ∧ d.month < 10 ^ 2 ∧ d.day < 10 ^ 2 := by
  obtain ⟨hexists, hfirst, hlast⟩ := h
  obtain ⟨k, length, j, hmonth, hday, hlength, hj⟩ := Date.exists?_iff.mp hexists
  obtain ⟨hk, -, hlong⟩ := monthLength_bounds hlength
  omega

theorem toList_dateText_append : d.text.toList ++ rest =
    (paddedText 4 d.year.toNat).toList ++ '-' :: ((paddedText 2 d.month).toList ++
      '-' :: ((paddedText 2 d.day).toList ++ rest)) := by
  simp [Date.text]

theorem toList_clockText_append : m.clockText.toList ++ rest =
    (paddedText 2 m.hour).toList ++ ':' :: ((paddedText 2 m.minute).toList ++
      ':' :: ((paddedText 2 m.second).toList ++ rest)) := by
  simp [Moment.clockText]

theorem toList_text (between : Char) :
    (m.text between).toList = m.date.text.toList ++ between :: m.clockText.toList := by
  simp [Moment.text]

theorem passChar_cons (c : Char) : passChar c (c :: rest) = some rest := if_pos rfl

theorem takeLooseDate_text (h : d.InRange) :
    takeLooseDate (d.text.toList ++ rest) = some (d, rest) := by
  obtain ⟨hyear, hcast, hmonth, hday⟩ := h.bounds
  rw [toList_dateText_append]
  simp only [takeLooseDate, takeYear_paddedText _ hyear, takeLoose_paddedText _ hmonth,
    takeLoose_paddedText _ hday, passChar_cons, hcast, Option.bind_eq_bind, Option.bind_some]
  rfl

/-- A time of day is read back part by part by any reader of padded numbers. -/
theorem takeClock_clockText {number : List Char → Option (ℕ × List Char)}
    (hnumber : ∀ n < 10 ^ 2, ∀ rest, number ((paddedText 2 n).toList ++ rest) = some (n, rest)) :
    takeClock number (m.clockText.toList ++ rest) =
      some ((m.hour.val, m.minute.val, m.second.val), rest) := by
  have hhour := hnumber m.hour (by omega)
  have hminute := hnumber m.minute (by omega)
  have hsecond := hnumber m.second (by omega)
  rw [toList_clockText_append]
  simp only [takeClock, hhour, hminute, hsecond, passChar_cons, Option.bind_eq_bind,
    Option.bind_some]
  rfl

/-! ## The forms of a time -/

theorem readUniversalTime_dateText (h : d.InRange) (pass : List Char → Option (List Char)) :
    readUniversalTime pass (d.text.toList ++ rest) =
      (pass rest).bind fun text => (takeClock takeLoose text).bind fun clock =>
        if clock.2.isEmpty then clockTime d clock.1.1 clock.1.2.1 clock.1.2.2 else none := by
  rw [readUniversalTime, takeLooseDate_text rest h]
  rfl

theorem readDay_dateText (h : d.InRange) :
    readDay (d.text.toList ++ rest) = if rest.isEmpty then clockTime d 0 0 0 else none := by
  rw [readDay, takeLooseDate_text rest h]
  rfl

theorem readOffsetTime_dateText (h : d.InRange) :
    readOffsetTime (d.text.toList ++ rest) =
      (passChar 'T' rest <|> passChar 't' rest <|> passChar ' ' rest).bind fun text =>
        (takeClock (takeDigits 2 2) text).bind fun clock =>
          (passFraction clock.2).bind fun text => (takeOffset text).bind fun offset =>
            if offset.2.isEmpty then
              (clockTime d clock.1.1 clock.1.2.1 clock.1.2.2).map (· - offset.1)
            else none := by
  obtain ⟨hyear, hcast, hmonth, hday⟩ := h.bounds
  have hdate : (⟨d.year.toNat, d.month, d.day⟩ : Date) = d := by rw [hcast]
  rw [toList_dateText_append]
  simp only [readOffsetTime, takeDigits_paddedText _ le_rfl four_pos hyear,
    takeDigits_paddedText _ le_rfl two_pos hmonth, takeDigits_paddedText _ le_rfl two_pos hday,
    passChar_cons, Option.bind_eq_bind, Option.bind_some, hdate, Option.map_eq_bind]
  rfl

/-- A text with a digit first and a dash in it is no integer. -/
theorem readInteger_eq_none {c : Char} {text : List Char} (hc : isDigit c = true)
    (hdash : '-' ∈ text) : readInteger (c :: text) = none := by
  have hsign : takeSign (c :: text) = (false, c :: text) := by
    unfold takeSign
    split
    · next heq =>
        rw [(List.cons.inj heq).1] at hc
        exact absurd hc (by decide)
    · next heq =>
        rw [(List.cons.inj heq).1] at hc
        exact absurd hc (by decide)
    · rfl
  have hall : ¬(!(c :: text).isEmpty && (c :: text).all isDigit) = true := by
    rw [Bool.and_eq_true, List.all_eq_true]
    rintro ⟨-, hdigits⟩
    exact absurd (hdigits '-' (List.mem_cons_of_mem c hdash)) (by decide)
  unfold readInteger
  rw [hsign]
  dsimp only
  rw [if_neg hall]

theorem not_isBlank_of_mem_getLast? (h : d.InRange)
    (hlast : ∀ c ∈ rest.getLast?, isBlank c = false) :
    ∀ c ∈ (d.text.toList ++ rest).getLast?, isBlank c = false := by
  obtain ⟨-, -, -, hday⟩ := h.bounds
  by_cases hrest : rest = []
  · rw [hrest, List.append_nil, Date.text, String.toList_append]
    exact getLast?_paddedText two_pos hday
  · rw [List.getLast?_append_of_ne_nil _ hrest]
    exact hlast

/-- A date is no integer, so the text is tried in the other forms. -/
theorem readTime_dateText (h : d.InRange) (hlast : ∀ c ∈ rest.getLast?, isBlank c = false) :
    readTime (d.text.toList ++ rest) =
      (readOffsetTime (d.text.toList ++ rest) <|>
        readUniversalTime (fun t => some (trimStart t)) (d.text.toList ++ rest) <|>
        readUniversalTime (passChar 'T') (d.text.toList ++ rest) <|>
        readDay (d.text.toList ++ rest)) := by
  obtain ⟨hyear, -, -, -⟩ := h.bounds
  obtain ⟨first, digits, hcons, hdigit⟩ := exists_paddedText four_pos hyear
  have htext := toList_dateText_append (d := d) rest
  rw [hcons, List.cons_append] at htext
  have hinteger : readInteger (d.text.toList ++ rest) = none := by
    -- Only the dash behind the year keeps the text from being an integer.
    rw [htext]
    exact readInteger_eq_none hdigit (List.mem_append_right _ List.mem_cons_self)
  have htrim : trim (d.text.toList ++ rest) = d.text.toList ++ rest := by
    refine trim_of_ends (fun c hc => ?_) (not_isBlank_of_mem_getLast? rest h hlast)
    rw [htext] at hc
    exact Option.some.inj hc ▸ not_isBlank_of_isDigit hdigit
  unfold readTime
  dsimp only
  rw [htrim, hinteger]

end

/-! ## Offsets -/

/-- An offset from universal time, of whole minutes and below a day. -/
structure Offset where
  /-- The clock is behind universal time. -/
  west : Bool
  /-- The hours. -/
  hours : Fin 24
  /-- The minutes of an hour. -/
  minutes : Fin 60

namespace Offset

/-- How far the clock is before universal time. -/
def seconds (o : Offset) : ℤ :=
  if o.west then -(o.hours * 3600 + o.minutes * 60 : ℕ) else (o.hours * 3600 + o.minutes * 60 : ℕ)

/-- A sign, and two digits for hours and minutes. -/
def text (o : Offset) : String :=
  (if o.west then "-" else "+") ++ paddedText 2 o.hours ++ ":" ++ paddedText 2 o.minutes

theorem takeOffset_text (o : Offset) : takeOffset o.text.toList = some (o.seconds, []) := by
  obtain ⟨west, hours, minutes⟩ := o
  have hhours := takeDigits_paddedText (':' :: (paddedText 2 minutes).toList) (le_refl 2) two_pos
    (show hours.val < 10 ^ 2 by omega)
  have hminutes := takeDigits_paddedText [] (le_refl 2) two_pos
    (show minutes.val < 10 ^ 2 by omega)
  rw [List.append_nil] at hminutes
  have hshort : hours.val ≤ 23 ∧ minutes.val ≤ 59 := by omega
  cases west with
  | true =>
      simp [takeOffset, text, seconds, hhours, hminutes, passChar_cons, hshort]
  | false =>
      simp [takeOffset, text, seconds, hhours, hminutes, passChar_cons, hshort]

end Offset

/-! ## The spellings of a time -/

section

variable {m : Moment} {time : ℤ} {between : Char}

theorem getLast?_clockText (c : Char) :
    ∀ last ∈ (c :: m.clockText.toList).getLast?, isBlank last = false := by
  rw [Moment.clockText, String.toList_append, ← List.cons_append]
  exact getLast?_paddedText two_pos (by omega)

theorem readUniversalTime_text (h : m.date.InRange) (pass : List Char → Option (List Char))
    (hpass : pass (between :: m.clockText.toList) = some m.clockText.toList) :
    readUniversalTime pass (m.text between).toList =
      clockTime m.date m.hour m.minute m.second := by
  have hclock := takeClock_clockText (m := m) [] fun n hn rest => takeLoose_paddedText rest hn
  rw [List.append_nil] at hclock
  rw [toList_text, readUniversalTime_dateText _ h, hpass, Option.bind_some, hclock,
    Option.bind_some]
  rfl

/-- Behind the time of day the form with an offset reads the offset, if there is one. -/
theorem readOffsetTime_text (h : m.date.InRange)
    (hbetween : between = 'T' ∨ between = 't' ∨ between = ' ') {zone : List Char}
    (hpoint : zone.head? ≠ some '.') :
    readOffsetTime ((m.text between).toList ++ zone) = (takeOffset zone).bind fun offset =>
      if offset.2.isEmpty then (clockTime m.date m.hour m.minute m.second).map (· - offset.1)
      else none := by
  have hclock := takeClock_clockText (m := m) zone fun n hn rest =>
    takeDigits_paddedText rest (le_refl 2) two_pos hn
  have hpass (text : List Char) : (passChar 'T' (between :: text) <|>
      passChar 't' (between :: text) <|> passChar ' ' (between :: text)) = some text := by
    rcases hbetween with rfl | rfl | rfl <;> rfl
  have hfraction : passFraction zone = some zone := by
    unfold passFraction
    split
    · exact absurd rfl hpoint
    · rfl
  rw [toList_text, List.append_assoc, readOffsetTime_dateText _ h, List.cons_append, hpass,
    Option.bind_some, hclock, Option.bind_some, hfraction, Option.bind_some]

/-- Without an offset the text has not the form with an offset. -/
theorem readOffsetTime_text_eq_none (h : m.date.InRange)
    (hbetween : between = 'T' ∨ between = 't' ∨ between = ' ') :
    readOffsetTime (m.text between).toList = none := by
  have hpoint : ([] : List Char).head? ≠ some '.' := by simp
  have hread := readOffsetTime_text h hbetween hpoint
  rwa [List.append_nil] at hread

theorem readTime_text (h : m.date.InRange) : readTime (m.text between).toList =
    (readOffsetTime (m.text between).toList <|>
      readUniversalTime (fun t => some (trimStart t)) (m.text between).toList <|>
      readUniversalTime (passChar 'T') (m.text between).toList <|>
      readDay (m.text between).toList) := by
  rw [toList_text]
  exact readTime_dateText _ h (getLast?_clockText between)

theorem trimStart_clockText (m : Moment) :
    trimStart (' ' :: m.clockText.toList) = m.clockText.toList := by
  have hclock := toList_clockText_append (m := m) []
  rw [List.append_nil] at hclock
  have hblank : trimStart (' ' :: m.clockText.toList) = trimStart m.clockText.toList :=
    List.dropWhile_cons_of_pos rfl
  rw [hblank, hclock]
  exact trimStart_paddedText _ two_pos (by omega)

theorem readTime_text_space (h : m.IsAt time) (hrange : m.date.InRange) :
    readTime (m.text ' ').toList = some time := by
  have huniversal : readUniversalTime (fun t => some (trimStart t)) (m.text ' ').toList =
      some time := by
    rw [readUniversalTime_text hrange (fun t => some (trimStart t)), h.clockTime hrange]
    rw [trimStart_clockText]
  rw [readTime_text hrange, readOffsetTime_text_eq_none hrange (.inr (.inr rfl)), huniversal]
  simp

/-- The form with a blank does not take a text with a letter between the two. -/
theorem readUniversalTime_text_T (h : m.date.InRange) :
    readUniversalTime (fun t => some (trimStart t)) (m.text 'T').toList = none := by
  have hnumber : takeLoose (trimStart ('T' :: m.clockText.toList)) = none := rfl
  rw [toList_text, readUniversalTime_dateText _ h, Option.bind_some, takeClock, hnumber]
  rfl

theorem readTime_text_T (h : m.IsAt time) (hrange : m.date.InRange) :
    readTime (m.text 'T').toList = some time := by
  have huniversal : readUniversalTime (passChar 'T') (m.text 'T').toList = some time := by
    rw [readUniversalTime_text hrange (passChar 'T') (passChar_cons _ 'T'), h.clockTime hrange]
  rw [readTime_text hrange, readOffsetTime_text_eq_none hrange (.inl rfl),
    readUniversalTime_text_T hrange, huniversal]
  simp

/-- A text with an offset shows the time on a clock that is before universal time. -/
theorem readTime_zoned {offset : ℤ} {zone : List Char} (h : m.IsAt (time + offset))
    (hrange : m.date.InRange) (hbetween : between = 'T' ∨ between = 't' ∨ between = ' ')
    (hzone : takeOffset zone = some (offset, []))
    (hlast : ∀ c ∈ zone.getLast?, isBlank c = false) :
    readTime ((m.text between).toList ++ zone) = some time := by
  obtain ⟨sign, rest, rfl⟩ : ∃ sign rest, zone = sign :: rest := by
    cases zone with
    | nil => cases hzone
    | cons sign rest => exact ⟨sign, rest, rfl⟩
  have hpoint : (sign :: rest).head? ≠ some '.' := by
    rintro ⟨rfl⟩
    cases hzone
  have hoffset : readOffsetTime ((m.text between).toList ++ sign :: rest) = some time := by
    rw [readOffsetTime_text hrange hbetween hpoint, hzone, Option.bind_some,
      h.clockTime hrange]
    simp
  have hend : ∀ c ∈ ((between :: m.clockText.toList) ++ sign :: rest).getLast?,
      isBlank c = false := by
    rwa [List.getLast?_append_of_ne_nil _ (List.cons_ne_nil _ _)]
  have hread := readTime_dateText _ hrange hend
  rw [← List.append_assoc, ← toList_text, hoffset] at hread
  exact hread

theorem readTime_zulu {zulu : Char} (h : m.IsAt time) (hrange : m.date.InRange)
    (hbetween : between = 'T' ∨ between = 't' ∨ between = ' ')
    (hzulu : zulu = 'Z' ∨ zulu = 'z') :
    readTime (m.text between ++ String.singleton zulu).toList = some time := by
  rw [← add_zero time] at h
  rw [String.toList_append, String.toList_singleton]
  refine readTime_zoned h hrange hbetween ?_ ?_
  · rw [takeOffset, if_pos hzulu]
  · rintro c ⟨rfl⟩
    rcases hzulu with rfl | rfl <;> rfl

theorem readTime_offset {o : Offset} (h : m.IsAt (time + o.seconds)) (hrange : m.date.InRange)
    (hbetween : between = 'T' ∨ between = 't' ∨ between = ' ') :
    readTime (m.text between ++ o.text).toList = some time := by
  rw [String.toList_append]
  refine readTime_zoned h hrange hbetween o.takeOffset_text ?_
  rw [Offset.text, String.toList_append]
  exact getLast?_paddedText two_pos (by omega)

/-- A midnight is also written as its date. -/
theorem readTime_day (h : m.IsAt time) (hrange : m.date.InRange) (hmidnight : time % 86400 = 0) :
    readTime m.date.text.toList = some time := by
  have hclock : m.hour.val = 0 ∧ m.minute.val = 0 ∧ m.second.val = 0 := by
    have hseconds := h.clock
    rw [hmidnight, Moment.clock] at hseconds
    omega
  have htime : clockTime m.date 0 0 0 = some time := by
    have hshown := h.clockTime hrange
    rwa [hclock.1, hclock.2.1, hclock.2.2] at hshown
  -- Nothing stands behind the date, so each form with a time of day fails there.
  have hoffset := readOffsetTime_dateText [] hrange
  have hblank := readUniversalTime_dateText [] hrange fun t => some (trimStart t)
  have hletter := readUniversalTime_dateText [] hrange (passChar 'T')
  have hday := readDay_dateText [] hrange
  have hread := readTime_dateText [] hrange (by simp)
  rw [hoffset, hblank, hletter, hday, List.append_nil] at hread
  rw [hread]
  simp [passChar, takeClock, takeLoose, trimStart, takeDigits, htime]

/-- The console shows a time in the first form, to the minute. -/
theorem timeText_seconds (h : m.IsAt time) (hfirst : 1 ≤ m.date.year) (hlast : m.date.year ≤ 9999) :
    timeText time ++ ":" ++ paddedText 2 m.second = m.text ' ' := by
  obtain rfl := Moment.isAt_iff.mp h
  have hyear : 1 ≤ (Date.ofDayNumber (time / 86400)).year := hfirst
  have hyear' : (Date.ofDayNumber (time / 86400)).year ≤ 9999 := hlast
  unfold timeText yearText firstYear lastYear
  dsimp only
  rw [if_pos (by omega), if_pos (by omega)]
  unfold Moment.text Moment.clockText Date.text Moment.ofTime
  simp [String.append_assoc]

theorem readTime_seconds (h : m.IsAt time) (hrange : m.date.InRange) (hseconds : time ≤ 10 ^ 11) :
    readTime (intText time).toList = some time := by
  obtain ⟨hlow, hhigh⟩ := h.bounds hrange
  have hread : timeReadBack time = time := if_neg (not_lt.mpr hseconds)
  rw [readTime_intText (by unfold minInt64; omega) (by unfold maxInt64; omega), hread]

theorem readTime_milliseconds {milli : ℤ} (h : m.IsAt time) (hrange : m.date.InRange)
    (hleast : 0 ≤ milli) (hmost : milli < 1000) (hmillis : 10 ^ 11 < 1000 * time + milli) :
    readTime (intText (1000 * time + milli)).toList = some time := by
  obtain ⟨hlow, hhigh⟩ := h.bounds hrange
  have hread : timeReadBack (1000 * time + milli) = (1000 * time + milli) / 1000 := if_pos hmillis
  rw [readTime_intText (by unfold minInt64; omega) (by unfold maxInt64; omega), hread,
    Option.some_inj]
  omega

/-- A time of the years from 1 to 9999 is read from each of its spellings: date and time of day in
universal time, the same with a `Z` or on a clock with an offset, the date of a midnight, and the
seconds or the milliseconds.  The console shows the first of them to the minute. -/
theorem time_spellings_read_back (h : m.IsAt time) (hfirst : 1 ≤ m.date.year)
    (hlast : m.date.year ≤ 9999) :
    readTime (m.text ' ').toList = some time ∧
    readTime (m.text 'T').toList = some time ∧
    (∀ between zulu : Char, between = 'T' ∨ between = 't' ∨ between = ' ' →
      zulu = 'Z' ∨ zulu = 'z' → readTime (m.text between ++ String.singleton zulu).toList = some time) ∧
    (∀ (o : Offset) (shown : Moment) (between : Char), shown.IsAt (time + o.seconds) →
      1 ≤ shown.date.year → shown.date.year ≤ 9999 →
      between = 'T' ∨ between = 't' ∨ between = ' ' →
      readTime (shown.text between ++ o.text).toList = some time) ∧
    (time % 86400 = 0 → readTime m.date.text.toList = some time) ∧
    (time ≤ 10 ^ 11 → readTime (intText time).toList = some time) ∧
    (∀ milli : ℤ, 0 ≤ milli → milli < 1000 → 10 ^ 11 < 1000 * time + milli →
      readTime (intText (1000 * time + milli)).toList = some time) ∧
    timeText time ++ ":" ++ paddedText 2 m.second = m.text ' ' := by
  have hrange := h.inRange hfirst hlast
  refine ⟨readTime_text_space h hrange, readTime_text_T h hrange, ?zulu, ?offset,
    readTime_day h hrange, readTime_seconds h hrange, ?milliseconds,
    timeText_seconds h hfirst hlast⟩
  case zulu =>
    intro between zulu hbetween hzulu
    exact readTime_zulu h hrange hbetween hzulu
  case offset =>
    intro o shown between hshown hfirst' hlast' hbetween
    exact readTime_offset hshown (hshown.inRange hfirst' hlast') hbetween
  case milliseconds =>
    intro milli hleast hmost hmillis
    exact readTime_milliseconds h hrange hleast hmost hmillis

/-- Midnight of 29 February 2000. -/
theorem time_spellings_read_back_leap_day :
    (Moment.mk ⟨2000, 2, 29⟩ 0 0 0).IsAt 951782400 ∧
    readTime "2000-02-29 00:00:00".toList = some 951782400 ∧
    readTime "2000-02-29T00:00:00".toList = some 951782400 ∧
    readTime "2000-02-29T00:00:00Z".toList = some 951782400 ∧
    readTime "2000-02-28T18:30:00-05:30".toList = some 951782400 ∧
    readTime "2000-02-29".toList = some 951782400 ∧
    readTime "951782400".toList = some 951782400 ∧
    readTime "951782400999".toList = some 951782400 ∧
    timeText 951782400 ++ ":00" = "2000-02-29 00:00:00" := by
  have hmoment : (Moment.mk ⟨2000, 2, 29⟩ 0 0 0).IsAt 951782400 :=
    Moment.isAt_iff.mpr (by decide)
  have hshown : (Moment.mk ⟨2000, 2, 28⟩ 18 30 0).IsAt (951782400 + (Offset.mk true 5 30).seconds) :=
    Moment.isAt_iff.mpr (by decide)
  obtain ⟨hblank, hletter, hzulu, hoffset, hday, hseconds, hmillis, hconsole⟩ :=
    time_spellings_read_back hmoment (by decide) (by decide)
  replace hzulu := hzulu 'T' 'Z' (.inl rfl) (.inl rfl)
  replace hoffset := hoffset _ _ 'T' hshown (by decide) (by decide) (.inl rfl)
  replace hday := hday (by decide)
  replace hseconds := hseconds (by decide)
  replace hmillis := hmillis 999 (by decide) (by decide) (by decide)
  have hspace : (Moment.mk ⟨2000, 2, 29⟩ 0 0 0).text ' ' = "2000-02-29 00:00:00" := by decide
  rw [hspace] at hblank hconsole
  exact ⟨hmoment, hblank, hletter, hzulu, hoffset, hday, hseconds, hmillis, hconsole⟩

end

end Backtester
