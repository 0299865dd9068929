import Backtester.Proofs.CsvTexts
import Backtester.Proofs.FrameShape
import Backtester.Proofs.NumberTexts
import Backtester.Table.Indicators

/-!
# Indicator tables read back

An indicator table has a record for the names of its columns and one for each candle.  The name of
an unknown indicator may hold any characters, commas, quotes and line ends among them; every record
starts with a time, so none is an empty line, and every output has a value at the row of every
candle, so no field is left empty for want of one.

* `NumberStyle.write_ne_nil` — no double is written as the empty text.
* `Shows`, `ShowsRow` — fields and records that show values.
* `length_indicatorRecord`, `csvRecords_indicatorTable` — the records of a table.
* `showsRow_indicatorRecord` — the record of a candle shows the values at its row.
* `indicator_table_reads_back` — what the records of a written table are.
-/

namespace Backtester

/-! ## Texts of doubles -/

theorem Binary64.lt_of_ofFloat {x : Float} {negative : Bool} {m : ℕ} {q : ℤ}
    (h : ofFloat x = .finite negative m q) : m < 2 ^ 53 := by
  have hfraction : x.toBits.toNat % twoTo 52 < 2 ^ 52 := Nat.mod_lt _ (by decide)
  have hleading : twoTo 52 = 2 ^ 52 := rfl
  unfold ofFloat at h
  dsimp only at h
  split at h
  · split at h <;> cases h
  · split at h
    · cases h
      omega
    · cases h
      omega

theorem NumberStyle.write_ne_nil (style : NumberStyle) (x : Float) :
    (style.write x).toList ≠ [] := by
  unfold write
  split
  · decide
  · next negative _ => cases negative <;> decide
  · next negative m q hparts =>
      obtain ⟨p, htext, hp, -⟩ := style.exists_parts q (Binary64.lt_of_ofFloat hparts)
      have hne : p.text ≠ [] := by
        unfold NumberParts.text
        simp [hp.whole_ne_nil]
      rw [signedText, String.toList_ofList, htext]
      split
      · exact List.cons_ne_nil _ _
      · exact hne

/-! ## Fields and records that show values -/

/-- A field shows a value: it is empty exactly for not-a-number, and else the text of the value. -/
structure Shows (x : Float) (field : List Char) : Prop where
  empty_iff : field = [] ↔ x.isNaN = true
  text : x.isNaN = false → field = (NumberStyle.display.write x).toList

/-- A record shows a row of some series: behind the time of the candle there is one field for each
series, and it shows the value that the series has at the row. -/
inductive ShowsRow (series : List (List Float)) (row : ℕ) (candle : Candle Float) :
    List (List Char) → Prop
  | intro {cells : List (List Char)}
      (hcells : List.Forall₂ (fun values cell => ∃ x, values[row]? = some x ∧ Shows x cell)
        series cells) :
      ShowsRow series row candle ((intText candle.time).toList :: cells)

theorem shows_valueField (x : Float) : Shows x (valueField x) := by
  unfold valueField
  cases hnan : x.isNaN with
  | true =>
      rw [if_pos rfl]
      exact ⟨iff_of_true rfl hnan, fun h => absurd (hnan.symm.trans h) Bool.noConfusion⟩
  | false =>
      rw [if_neg Bool.false_ne_true]
      exact ⟨iff_of_false (NumberStyle.display.write_ne_nil x) (ne_true_of_eq_false hnan), fun _ => rfl⟩

/-! ## The records of a table -/

namespace Indicator

theorem columnNames_length_pos (kind : Indicator) : 0 < kind.columnNames.length := by
  cases kind with
  | unknown name period => cases period <;> exact Nat.one_pos
  | _ => exact Nat.succ_pos _

theorem map_snd_columns {α : Type} [Scalar α] (closes : List α) (kind : Indicator) :
    (kind.columns closes).map Prod.snd = kind.outputs closes := by
  apply List.map_snd_zip
  rw [length_outputs]

end Indicator

section

variable (candles : List (Candle Float)) (kind : Indicator)

theorem length_indicatorRecord (row : ℕ) (candle : Candle Float) :
    (indicatorRecord (kind.columns (candles.map Candle.close)) row candle).length =
      kind.columnNames.length + 1 := by
  rw [indicatorRecord, List.length_cons, List.length_map, Indicator.columns, List.length_zip,
    Indicator.length_outputs, min_self]

theorem length_of_mem_indicatorRecords {record : List (List Char)}
    (h : record ∈ indicatorRecords candles kind) :
    record.length = kind.columnNames.length + 1 := by
  rcases List.mem_cons.mp h with rfl | hrow
  · simp [indicatorHeader]
  · obtain ⟨row, hrow, rfl⟩ := List.mem_mapIdx.mp hrow
    exact length_indicatorRecord candles kind row _

theorem csvRecords_indicatorTable :
    csvRecords (indicatorTable candles kind).toList = indicatorRecords candles kind := by
  rw [indicatorTable, String.toList_ofList]
  refine csvRecords_flatMap_csvLine (fun record hrecord => ?_) ?_
  · have hlength := length_of_mem_indicatorRecords candles kind hrecord
    have hsome := kind.columnNames_length_pos
    constructor
    · rintro rfl
      rw [List.length_nil] at hlength
      omega
    · rintro rfl
      rw [List.length_singleton] at hlength
      omega
  · have hrecords : ∃ rest, (indicatorRecords candles kind).flatMap csvLine = 't' :: rest := by
      obtain ⟨name, names, hnames⟩ := List.exists_cons_of_length_pos kind.columnNames_length_pos
      rw [indicatorRecords, List.flatMap_cons, indicatorHeader, hnames]
      exact ⟨_, rfl⟩
    obtain ⟨rest, hrest⟩ := hrecords
    rw [hrest]
    exact fun h => absurd (Option.some.inj h) (by decide)

/-- The record of a candle shows the values of all outputs at its row. -/
theorem showsRow_indicatorRecord {row : ℕ} {candle : Candle Float}
    (hrow : candles[row]? = some candle) :
    ShowsRow (kind.outputs (candles.map Candle.close)) row candle
      (indicatorRecord (kind.columns (candles.map Candle.close)) row candle) := by
  have hcells : ((kind.columns (candles.map Candle.close)).map fun column =>
      (column.2[row]?.map valueField).getD []) =
        (kind.outputs (candles.map Candle.close)).map fun values =>
          (values[row]?.map valueField).getD [] := by
    rw [← kind.map_snd_columns, List.map_map]
    rfl
  refine .intro ?_
  rw [hcells, List.forall₂_map_right_iff, List.forall₂_same]
  intro values hvalues
  have hlength : row < values.length := by
    rw [Indicator.length_of_mem_outputs hvalues, List.length_map]
    exact (List.getElem?_eq_some_iff.mp hrow).1
  refine ⟨values[row], List.getElem?_eq_getElem hlength, ?_⟩
  rw [List.getElem?_eq_getElem hlength]
  exact shows_valueField _

/-- A written indicator table is read as the names of its columns behind `time`, whatever characters
they hold, and one record for each candle, all with the same number of fields.  The record of a
candle holds its time, and a field of its own for the value of each output at the row of the
candle. -/
theorem indicator_table_reads_back :
    ∃ records,
      csvRecords (indicatorTable candles kind).toList =
        ("time" :: kind.columnNames).map String.toList :: records ∧
      records.length = candles.length ∧
      (∀ record ∈ records, record.length = ("time" :: kind.columnNames).length) ∧
      ∀ row candle, candles[row]? = some candle → ∃ record, records[row]? = some record ∧
        ShowsRow (kind.outputs (candles.map Candle.close)) row candle record := by
  refine ⟨_, csvRecords_indicatorTable candles kind, List.length_mapIdx, fun record hrecord => ?_,
    fun row candle hrow => ?_⟩
  · exact length_of_mem_indicatorRecords candles kind (List.mem_cons_of_mem _ hrecord)
  · refine ⟨_, ?_, showsRow_indicatorRecord candles kind hrow⟩
    rw [List.getElem?_mapIdx, hrow, Option.map_some]

/-- A name with a comma, quotes and a line end, over a value and not-a-number. -/
example :
    indicatorTable [⟨60, 1, 1, 1, 1.5, 0⟩, ⟨120, 1, 1, 1, 0 / 0, 0⟩] (.unknown "a,\n\"B\"" (some 3)) =
      "time,\"a,\n\"\"b\"\"_3\"\n60,1.5\n120,\n" := by
  decide +kernel

end

end Backtester
