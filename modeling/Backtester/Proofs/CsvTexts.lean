import Backtester.Table.Csv

/-!
# Written tables read back

The reader of comma-separated tables goes over the characters once.  A written field ends in a
state that holds its characters, in a mode in which a comma or a line feed ends the field; a written
record ends with the record put before those read so far; and so a table is read as its records.

* `csvField_eq_self` — a field that needs no quotes is written as it is.
* `CsvState.foldl_csvField` — what reading a written field does.
* `CsvState.foldl_csvLine` — what reading a written record does.
* `csvRecords_flatMap_csvLine` — the records of a written table.
-/

namespace Backtester

theorem csvField_eq_self {field : List Char} (h : ∀ c ∈ field, needsQuotes c = false) :
    csvField field = field := by
  refine if_neg ?_
  rw [Bool.not_eq_true, List.any_eq_false]
  exact fun c hc => by simp [h c hc]

/-- Fields that need no quotes are written with commas between them. -/
theorem csvLine_of_plain {fields : List String} (hne : fields ≠ [])
    (h : ∀ field ∈ fields, ∀ c ∈ field.toList, needsQuotes c = false) :
    csvLine (fields.map String.toList) = (",".intercalate fields ++ "\n").toList := by
  rw [String.toList_append, String.toList_intercalate]
  induction fields with
  | nil => exact absurd rfl hne
  | cons field rest ih =>
      obtain ⟨hfield, hrest⟩ := List.forall_mem_cons.mp h
      cases rest with
      | nil => simp [csvLine, csvField_eq_self hfield]
      | cons next others =>
          have hothers := ih (List.cons_ne_nil _ _) hrest
          rw [List.map_cons, List.map_cons, csvLine, csvField_eq_self hfield, ← List.map_cons,
            hothers]
          · simp [List.intercalate_cons_cons]
          · simp

namespace CsvState

/-! ## One field -/

/-- What a field that is written in the mode `first` may leave: a mode in which a comma or a line
feed ends the field.  Before a record only the empty field leaves the mode as it was. -/
def Closes (first last : CsvMode) (field : List Char) : Prop :=
  last = .startField ∨ last = .plain ∨ last = .afterQuote ∨
    (last = .startRecord ∧ first = .startRecord ∧ field = [])

theorem needsQuotes_eq_false_iff (c : Char) :
    needsQuotes c = false ↔ c ≠ ',' ∧ c ≠ '"' ∧ c ≠ '\r' ∧ c ≠ '\n' := by
  simp [needsQuotes, and_assoc]

/-- Plain characters are added to the field one by one. -/
theorem foldl_plain {text : List Char} (h : ∀ c ∈ text, needsQuotes c = false)
    (field : List Char) (record : List (List Char)) (records : List (List (List Char))) :
    text.foldl step ⟨.plain, field, record, records⟩ =
      ⟨.plain, text.reverse ++ field, record, records⟩ := by
  induction text generalizing field with
  | nil => rfl
  | cons c rest ih =>
      obtain ⟨hc, hrest⟩ := List.forall_mem_cons.mp h
      obtain ⟨hcomma, -, hreturn, hfeed⟩ := (needsQuotes_eq_false_iff c).mp hc
      have hstep : step ⟨.plain, field, record, records⟩ c =
          ⟨.plain, c :: field, record, records⟩ := by
        simp [step, stepPlain, push, hcomma, hreturn, hfeed]
      rw [List.foldl_cons, hstep, ih hrest, List.reverse_cons, List.append_assoc]
      rfl

/-- Between quotes a doubled quote is one, and every other character itself. -/
theorem foldl_quoted (text : List Char) (field : List Char) (record : List (List Char))
    (records : List (List (List Char))) :
    (text.flatMap fun c => if c = '"' then ['"', '"'] else [c]).foldl step
        ⟨.quoted, field, record, records⟩ = ⟨.quoted, text.reverse ++ field, record, records⟩ := by
  induction text generalizing field with
  | nil => rfl
  | cons c rest ih =>
      have hstep : (if c = '"' then ['"', '"'] else [c]).foldl step
          ⟨.quoted, field, record, records⟩ = ⟨.quoted, c :: field, record, records⟩ := by
        by_cases hc : c = '"'
        · subst hc
          rfl
        · simp [step, push, hc]
      rw [List.flatMap_cons, List.foldl_append, hstep, ih, List.reverse_cons, List.append_assoc]
      rfl

/-- A written field is held by the state after it. -/
theorem foldl_csvField {first : CsvMode} (hfirst : first = .startRecord ∨ first = .startField)
    (field : List Char) (record : List (List Char)) (records : List (List (List Char))) :
    ∃ last, (csvField field).foldl step ⟨first, [], record, records⟩ =
      ⟨last, field.reverse, record, records⟩ ∧ Closes first last field := by
  cases hquotes : field.any needsQuotes with
  | false =>
      have hplain : ∀ c ∈ field, needsQuotes c = false := by
        simpa using List.any_eq_false.mp hquotes
      rw [csvField_eq_self hplain]
      cases field with
      | nil =>
          refine ⟨first, rfl, ?_⟩
          rcases hfirst with rfl | rfl
          · exact Or.inr (Or.inr (Or.inr ⟨rfl, rfl, rfl⟩))
          · exact Or.inl rfl
      | cons c rest =>
          obtain ⟨hc, hrest⟩ := List.forall_mem_cons.mp hplain
          obtain ⟨hcomma, hquote, hreturn, hfeed⟩ := (needsQuotes_eq_false_iff c).mp hc
          have hstep : step ⟨first, [], record, records⟩ c = ⟨.plain, [c], record, records⟩ := by
            rcases hfirst with rfl | rfl <;>
              simp [step, stepPlain, push, hcomma, hquote, hreturn, hfeed]
          refine ⟨.plain, ?_, Or.inr (Or.inl rfl)⟩
          rw [List.foldl_cons, hstep, foldl_plain hrest, List.reverse_cons]
  | true =>
      have hopening : step ⟨first, [], record, records⟩ '"' = ⟨.quoted, [], record, records⟩ := by
        rcases hfirst with rfl | rfl <;> rfl
      refine ⟨.afterQuote, ?_, Or.inr (Or.inr (Or.inl rfl))⟩
      rw [csvField, if_pos hquotes, List.cons_append, List.foldl_cons, hopening, List.foldl_append,
        foldl_quoted, List.append_nil]
      rfl

/-- A comma behind a field ends it. -/
theorem step_comma {first last : CsvMode} {field : List Char} (h : Closes first last field)
    (read : List Char) (record : List (List Char)) (records : List (List (List Char))) :
    step ⟨last, read, record, records⟩ ',' =
      ⟨.startField, [], read.reverse :: record, records⟩ := by
  rcases h with rfl | rfl | rfl | ⟨rfl, -, -⟩ <;> rfl

/-- A line feed behind a field ends the record, unless the line is empty. -/
theorem step_lineFeed {first last : CsvMode} {field : List Char} (h : Closes first last field)
    (hsome : ¬(first = .startRecord ∧ field = [])) (read : List Char) (record : List (List Char))
    (records : List (List (List Char))) :
    step ⟨last, read, record, records⟩ '\n' =
      ⟨.startRecord, [], [], (read.reverse :: record).reverse :: records⟩ := by
  rcases h with rfl | rfl | rfl | ⟨-, hrecord, hempty⟩
  · rfl
  · rfl
  · rfl
  · exact absurd ⟨hrecord, hempty⟩ hsome

/-! ## Records -/

/-- A written record ends with the record, unless it is one empty field on a line of its own. -/
theorem foldl_csvLine {first : CsvMode} (hfirst : first = .startRecord ∨ first = .startField)
    {fields : List (List Char)} (hne : fields ≠ [])
    (hsome : ¬(first = .startRecord ∧ fields = [[]])) (record : List (List Char))
    (records : List (List (List Char))) :
    (csvLine fields).foldl step ⟨first, [], record, records⟩ =
      ⟨.startRecord, [], [], (record.reverse ++ fields) :: records⟩ := by
  induction fields generalizing first record with
  | nil => exact absurd rfl hne
  | cons field rest ih =>
      obtain ⟨last, hfield, hcloses⟩ := foldl_csvField hfirst field record records
      cases rest with
      | nil =>
          have hline : ¬(first = .startRecord ∧ field = []) := by
            rintro ⟨hrecord, rfl⟩
            exact hsome ⟨hrecord, rfl⟩
          show (csvField field ++ ['\n']).foldl step _ = _
          rw [List.foldl_append, hfield, List.foldl_cons, step_lineFeed hcloses hline]
          simp
      | cons next others =>
          show (csvField field ++ ',' :: csvLine (next :: others)).foldl step _ = _
          rw [List.foldl_append, hfield, List.foldl_cons, step_comma hcloses,
            ih (Or.inr rfl) (List.cons_ne_nil _ _) (by simp)]
          simp

theorem foldl_csvLines {table : List (List (List Char))} (h : ∀ fields ∈ table,
    fields ≠ [] ∧ fields ≠ [[]]) (records : List (List (List Char))) :
    (table.flatMap csvLine).foldl step ⟨.startRecord, [], [], records⟩ =
      ⟨.startRecord, [], [], table.reverse ++ records⟩ := by
  induction table generalizing records with
  | nil => rfl
  | cons fields rest ih =>
      obtain ⟨⟨hne, hsome⟩, hrest⟩ := List.forall_mem_cons.mp h
      rw [List.flatMap_cons, List.foldl_append, foldl_csvLine (Or.inl rfl) hne (fun h => hsome h.2),
        ih hrest]
      simp

end CsvState

/-- A written table is read as its records.  A record needs a field, and a lone empty field would be
an empty line; a byte order mark in front would be dropped. -/
theorem csvRecords_flatMap_csvLine {table : List (List (List Char))}
    (h : ∀ fields ∈ table, fields ≠ [] ∧ fields ≠ [[]])
    (hmark : (table.flatMap csvLine).head? ≠ some '\ufeff') :
    csvRecords (table.flatMap csvLine) = table := by
  have hwhole : dropByteOrderMark (table.flatMap csvLine) = table.flatMap csvLine := by
    unfold dropByteOrderMark
    split
    · next rest heq => exact absurd (congrArg List.head? heq) hmark
    · rfl
  have hread := CsvState.foldl_csvLines h []
  rw [List.append_nil] at hread
  rw [csvRecords, hwhole]
  show ((table.flatMap csvLine).foldl CsvState.step ⟨.startRecord, [], [], []⟩).finish = table
  rw [hread]
  exact List.reverse_reverse table

end Backtester
