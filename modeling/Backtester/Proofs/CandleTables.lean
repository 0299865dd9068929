import Backtester.Proofs.CsvTexts
import Backtester.Proofs.LoadedCandles
import Backtester.Proofs.PrintedConditions
import Backtester.Proofs.RuleForms

/-!
# Candle tables read back

Candles are written as a table with a record for each, the time as the number of its seconds and the
values with their shortest digits.  All of these texts are made of figures, so no field needs quotes
and no blank is trimmed.  Read again, a value is the same double and a time the same number, unless
it is so large that it is taken for milliseconds.

* `candleTable` — the table of some candles.
* `IsFigure` — the characters of written times and values.
* `readTime_intText`, `price?_record` — written times and values read back.
* `dataRows_candleTable` — the rows of the table of some candles.
* `candle_table_reads_back` — a table gives back its candles if no time counts as milliseconds.
-/

namespace Backtester

open Grammar

/-! ## The table of some candles -/

/-- The fields of a candle: its time and its values. -/
def candleRecord (c : Candle Float) : List String :=
  intText c.time :: c.fields.map fun column => NumberStyle.display.write column.2

/-- The table of some candles. -/
def candleTable (candles : List (Candle Float)) : String :=
  "time,open,high,low,close,volume\n" ++
    String.join (candles.map fun c => ",".intercalate (candleRecord c) ++ "\n")

/-- The names of the columns. -/
def candleHeader : List (List Char) := ("time" :: priceColumns).map String.toList

/-! ## Figures -/

/-- A character of a written number. -/
def IsFigure (c : Char) : Prop := isDigit c = true ∨ c = '.' ∨ c = '-'

theorem IsFigure.not_isBlank {c : Char} (h : IsFigure c) : isBlank c = false := by
  rcases h with hdigit | rfl | rfl
  · exact not_isBlank_of_isDigit hdigit
  · rfl
  · rfl

theorem IsFigure.needsQuotes {c : Char} (h : IsFigure c) : needsQuotes c = false := by
  rcases h with hdigit | rfl | rfl
  · rw [CsvState.needsQuotes_eq_false_iff]
    refine ⟨?_, ?_, ?_, ?_⟩ <;>
      · rintro rfl
        revert hdigit
        decide
  · rfl
  · rfl

theorem isFigure_decimalDigits {n : ℕ} {c : Char} (hc : c ∈ decimalDigits n) : IsFigure c :=
  Or.inl (allDigits_decimalDigits n c hc)

theorem isFigure_intText {n : ℤ} {c : Char} (hc : c ∈ (intText n).toList) : IsFigure c := by
  unfold intText natText at hc
  split at hc
  · rw [String.toList_append, String.toList_ofList, List.mem_append] at hc
    rcases hc with hsign | hdigits
    · exact Or.inr (Or.inr (List.mem_singleton.mp hsign))
    · rw [String.toList_ofList] at hdigits
      exact isFigure_decimalDigits hdigits
  · rw [String.toList_ofList] at hc
    exact isFigure_decimalDigits hc

theorem IsNumber.isFigure {word whole fraction : List Char} {negative : Bool}
    (h : IsNumber word negative whole fraction) {c : Char} (hc : c ∈ word) : IsFigure c := by
  obtain ⟨body, rfl, hbody, -⟩ := h.exists_body
  rcases List.mem_append.mp hc with hminus | hfigure
  · cases negative with
    | true => exact Or.inr (Or.inr (List.mem_singleton.mp hminus))
    | false => cases hminus
  · exact (hbody c hfigure).imp_right Or.inl

/-- A written value is a number that stands for the value. -/
theorem exists_isNumber_write {x : Float} (hx : x.isFinite = true) :
    ∃ negative whole fraction,
      IsNumber (NumberStyle.display.write x).toList negative whole fraction ∧
        Scalar.ofDecimal negative (digitsValue (whole ++ fraction)) (-fraction.length) = x := by
  generalize hliteral : (Operand.literal x : Operand Float) = operand
  have hoperand := hliteral ▸ isOperand_write hx
  cases hoperand with
  | number hnumber =>
      injection hliteral with hvalue
      exact ⟨_, _, _, hnumber, hvalue.symm⟩
  | name hname => cases hliteral

theorem readNumber_write {x : Float} (hx : x.isFinite = true) :
    ∃ literal, readNumber (NumberStyle.display.write x).toList = some literal ∧
      literal.value = x := by
  obtain ⟨negative, whole, fraction, hnumber, hvalue⟩ := exists_isNumber_write hx
  exact ⟨_, readNumber_of_isNumber hnumber, hvalue⟩

/-! ## Times -/

theorem readInteger_intText {n : ℤ} (hlow : minInt64 ≤ n) (hhigh : n ≤ maxInt64) :
    readInteger (intText n).toList = some n := by
  have hdigits : ∀ c ∈ decimalDigits n.natAbs, isDigit c = true := allDigits_decimalDigits _
  have hsplit : takeSign (intText n).toList = (decide (n < 0), decimalDigits n.natAbs) := by
    unfold intText natText
    split
    · next hneg => simp [takeSign, hneg]
    · next hnonneg =>
        rw [String.toList_ofList]
        unfold takeSign
        split
        · next heq => exact absurd (hdigits '-' (heq ▸ List.mem_cons_self)) (by decide)
        · next heq => exact absurd (hdigits '+' (heq ▸ List.mem_cons_self)) (by decide)
        · simp [hnonneg]
  have hsome :
      (!(decimalDigits n.natAbs).isEmpty && (decimalDigits n.natAbs).all isDigit) = true := by
    rw [List.all_eq_true.mpr hdigits]
    simp [decimalDigits_ne_nil]
  have hvalue : (if decide (n < 0) = true then -(digitsValue (decimalDigits n.natAbs) : ℤ)
      else digitsValue (decimalDigits n.natAbs)) = n := by
    rw [digitsValue_decimalDigits]
    simp only [decide_eq_true_eq]
    split <;> omega
  unfold readInteger
  rw [hsplit]
  dsimp only
  rw [if_pos hsome, hvalue, if_pos ⟨hlow, hhigh⟩]

/-- A time as it is read from its seconds. -/
def timeReadBack (time : ℤ) : ℤ := if largestSeconds < time then time / 1000 else time

theorem readTime_intText {n : ℤ} (hlow : minInt64 ≤ n) (hhigh : n ≤ maxInt64) :
    readTime (intText n).toList = some (timeReadBack n) := by
  have htrim : trim (intText n).toList = (intText n).toList :=
    trim_of_forall_not_isBlank fun c hc => (isFigure_intText hc).not_isBlank
  unfold readTime
  dsimp only
  rw [htrim, readInteger_intText hlow hhigh]
  rfl

/-! ## The rows of a table -/

section

variable {c : Candle Float}

/-- All fields of a candle with finite values are made of figures. -/
theorem isFigure_candleRecord (hfinite : ∀ column ∈ c.fields, column.2.isFinite = true)
    {field : String} (hfield : field ∈ candleRecord c) :
    ∀ character ∈ field.toList, IsFigure character := by
  intro character hcharacter
  rcases List.mem_cons.mp hfield with rfl | hvalue
  · exact isFigure_intText hcharacter
  · obtain ⟨column, hcolumn, rfl⟩ := List.mem_map.mp hvalue
    obtain ⟨negative, whole, fraction, hnumber, -⟩ := exists_isNumber_write (hfinite column hcolumn)
    exact IsNumber.isFigure hnumber hcharacter

theorem trim_candleRecord (hfinite : ∀ column ∈ c.fields, column.2.isFinite = true) :
    ((candleRecord c).map String.toList).map trim = (candleRecord c).map String.toList := by
  rw [List.map_map]
  refine List.map_congr_left fun field hfield => ?_
  exact trim_of_forall_not_isBlank fun character hcharacter =>
    (isFigure_candleRecord hfinite hfield character hcharacter).not_isBlank

/-- The values of a record are those of its fields. -/
theorem price?_of_write {name : String} {header record : List (List Char)} {x : Float}
    (hx : x.isFinite = true)
    (hfield : field? name header record = some (NumberStyle.display.write x).toList) :
    price? name header record = some x := by
  obtain ⟨literal, hliteral, hvalue⟩ := readNumber_write hx
  rw [price?, hfield, Option.bind_eq_bind, Option.bind_some, hliteral, Option.bind_eq_bind,
    Option.bind_some, hvalue]
  rfl

theorem writes_candleRecord (hfinite : ∀ column ∈ c.fields, column.2.isFinite = true)
    (hlow : minInt64 ≤ c.time) (hhigh : c.time ≤ maxInt64) :
    Writes (candleHeader.map trim) ((candleRecord c).map String.toList)
      { c with time := timeReadBack c.time } := by
  have hheader : candleHeader.map trim = candleHeader := by decide +kernel
  refine ⟨(intText c.time).toList, { c with time := 0 }, _, ?_, readTime_intText hlow hhigh, rfl⟩
  rw [hheader, trim_candleRecord hfinite]
  simp only [Candle.fields, List.forall_mem_cons] at hfinite
  obtain ⟨hopening, hhighest, hlowest, hclose, hvolume, -⟩ := hfinite
  have hvolumes : volume? candleHeader ((candleRecord c).map String.toList) = some c.volume :=
    price?_of_write hvolume rfl
  have hlength : ¬((candleRecord c).map String.toList).length ≠ candleHeader.length := by
    simp [candleRecord, Candle.fields, candleHeader, priceColumns]
  have htime : field? "time" candleHeader ((candleRecord c).map String.toList) =
      some (intText c.time).toList := rfl
  rw [recordCandle?, if_neg hlength, htime, price?_of_write hopening rfl,
    price?_of_write hhighest rfl, price?_of_write hlowest rfl, price?_of_write hclose rfl, hvolumes]
  rfl

end

/-- A candle as it is read from its record. -/
def Candle.readBack (c : Candle Float) : Candle Float := { c with time := timeReadBack c.time }

section

variable {candles : List (Candle Float)}

/-- The records of the table of some candles. -/
def candleRecords (candles : List (Candle Float)) : List (List (List Char)) :=
  candleHeader :: candles.map fun c => (candleRecord c).map String.toList

theorem length_of_mem_candleRecords {fields : List (List Char)}
    (h : fields ∈ candleRecords candles) : fields.length = 6 := by
  rcases List.mem_cons.mp h with rfl | hrecord
  · rfl
  · obtain ⟨c, -, rfl⟩ := List.mem_map.mp hrecord
    rfl

theorem toList_candleTable
    (hfinite : ∀ c ∈ candles, ∀ column ∈ c.fields, column.2.isFinite = true) :
    (candleTable candles).toList = (candleRecords candles).flatMap csvLine := by
  have hheader : "time,open,high,low,close,volume\n".toList = csvLine candleHeader := by
    decide +kernel
  unfold candleTable candleRecords
  rw [String.toList_append, String.toList_join, hheader, List.flatMap_cons, List.flatMap_map,
    List.flatMap_map]
  refine congrArg (csvLine candleHeader ++ ·) (List.flatMap_congr fun c hc => ?_)
  refine (csvLine_of_plain (List.cons_ne_nil _ _) fun field hfield character hcharacter => ?_).symm
  exact (isFigure_candleRecord (hfinite c hc) hfield character hcharacter).needsQuotes

theorem csvRecords_candleTable
    (hfinite : ∀ c ∈ candles, ∀ column ∈ c.fields, column.2.isFinite = true) :
    csvRecords (candleTable candles).toList = candleRecords candles := by
  have hmark : ((candleRecords candles).flatMap csvLine).head? ≠ some '\ufeff' := by
    rw [← toList_candleTable hfinite]
    unfold candleTable
    rw [String.toList_append]
    exact fun h => absurd (Option.some.inj h) (by decide)
  rw [toList_candleTable hfinite]
  refine csvRecords_flatMap_csvLine (fun fields hfields => ?_) hmark
  have hsix := length_of_mem_candleRecords hfields
  constructor
  · rintro rfl
    cases hsix
  · rintro rfl
    cases hsix

theorem dataRows_candleTable
    (hfinite : ∀ c ∈ candles, ∀ column ∈ c.fields, column.2.isFinite = true)
    (hwords : ∀ c ∈ candles, minInt64 ≤ c.time ∧ c.time ≤ maxInt64) :
    DataRows (candleTable candles) (candles.map Candle.readBack) := by
  rw [DataRows, csvRecords_candleTable hfinite, candleRecords]
  dsimp only
  rw [List.forall₂_map_left_iff, List.forall₂_map_right_iff, List.forall₂_same]
  exact fun c hc => writes_candleRecord (hfinite c hc) (hwords c hc).1 (hwords c hc).2

/-! ## The table read again -/

/-- Candles whose times ascend are their own sorted map. -/
theorem SortedMap.of_ascending (h : Ascending candles) : SortedMap candles candles := by
  refine ⟨h, fun time => Iff.rfl, fun c hc => ?_⟩
  obtain ⟨d, hd⟩ := exists_latestAt hc
  obtain ⟨hmem, htime⟩ := mem_of_latestAt hd
  rw [hd, List.inj_on_of_nodup_map (h.imp Int.ne_of_lt) hmem hc htime]

theorem map_readBack (htimes : ∀ c ∈ candles, c.time ≤ 10 ^ 11) :
    candles.map Candle.readBack = candles := by
  refine (List.map_congr_left fun c hc => ?_).trans (List.map_id candles)
  have htime : timeReadBack c.time = c.time := if_neg (not_lt.mpr (htimes c hc))
  rw [Candle.readBack, htime]
  rfl

/-- The last of some times cannot be a time that is read from milliseconds. -/
theorem times_le_of_sortedMap (h : SortedMap (candles.map Candle.readBack) candles) :
    ∀ c ∈ candles, c.time ≤ 10 ^ 11 := by
  intro c hc
  obtain ⟨last, hlast, hgreatest⟩ :=
    Set.exists_max_image {c | c ∈ candles} Candle.time (List.finite_toSet candles) ⟨c, hc⟩
  have hrow := (h.times last.time).mp (List.mem_map_of_mem hlast)
  rw [List.map_map] at hrow
  obtain ⟨d, hd, htime⟩ := List.mem_map.mp hrow
  have hdtime := hgreatest d hd
  have hctime := hgreatest c hc
  have hread : timeReadBack d.time = last.time := htime
  unfold timeReadBack largestSeconds at hread
  split at hread <;> omega

/-- Finite candles with ascending times of 64 bits, written as a table and read again, are the same
candles exactly when no time is beyond `10 ^ 11`; a later one is read as milliseconds. -/
theorem candle_table_reads_back (hascending : Ascending candles)
    (hfinite : ∀ c ∈ candles, ∀ column ∈ c.fields, column.2.isFinite = true)
    (hwords : ∀ c ∈ candles, minInt64 ≤ c.time ∧ c.time ≤ maxInt64) :
    readCandles (candleTable candles) = .ok candles ↔ ∀ c ∈ candles, c.time ≤ 10 ^ 11 := by
  have hrows := dataRows_candleTable hfinite hwords
  rw [readCandles_eq_ok_iff]
  constructor
  · rintro ⟨rows, hrows', hmap⟩
    obtain rfl := hrows.unique hrows'
    exact times_le_of_sortedMap hmap
  · intro htimes
    rw [map_readBack htimes] at hrows
    exact ⟨candles, hrows, .of_ascending hascending⟩

end

/-- A time before 1970, negative zero, and the latest time that is read as seconds. -/
theorem candle_table_reads_back_bounds :
    let candles : List (Candle Float) :=
      [⟨-1, 0.1, 250, -0, 1e-7, 0⟩, ⟨100000000000, 1, 2, 0.5, 1e21, 3⟩]
    Ascending candles ∧
      (∀ c ∈ candles, ∀ column ∈ c.fields, column.2.isFinite = true) ∧
      (∀ c ∈ candles, minInt64 ≤ c.time ∧ c.time ≤ maxInt64) ∧
      (∀ c ∈ candles, c.time ≤ 10 ^ 11) ∧
      candleTable candles = "time,open,high,low,close,volume\n-1,0.1,250,-0,0.0000001,0\n" ++
        "100000000000,1,2,0.5,1000000000000000000000,3\n" ∧
      readCandles (candleTable candles) = .ok candles := by
  intro candles
  have hascending : Ascending candles := by decide
  have hfinite : ∀ c ∈ candles, ∀ column ∈ c.fields, column.2.isFinite = true := by decide +kernel
  have hwords : ∀ c ∈ candles, minInt64 ≤ c.time ∧ c.time ≤ maxInt64 := by decide +kernel
  have htimes : ∀ c ∈ candles, c.time ≤ 10 ^ 11 := by decide +kernel
  exact ⟨hascending, hfinite, hwords, htimes, by decide +kernel,
    (candle_table_reads_back hascending hfinite hwords).mpr htimes⟩

end Backtester
