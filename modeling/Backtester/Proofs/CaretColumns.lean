import Backtester.Proofs.ReadingPositions

/-!
# The column of the caret

A problem in a condition text is shown below the text, with a caret between the two.  The position
of a problem counts bytes and the caret stands that many columns in, so it stands below the
character where reading stopped as long as all characters before it are of one byte; else it stands
further to the right by the other bytes of those characters.

* `TextProblem.shownLines` — the lines that are shown for a problem.
* `caretLine` — a caret after a number of columns.
* `continuationBytes`, `byteSize_eq_length_add` — the bytes of a text beyond one for each character.
* `TextProblem.shownLines_of_line` — a text of one line is shown on the first line and the caret on
  the second.
* `caret_column` — where the caret stands.
* `caret_beside_problem` — it need not be the column of the character.
-/

namespace Backtester

/-- A caret after a number of columns. -/
def caretLine (columns : Nat) : List Char := List.replicate columns ' ' ++ ['^']

/-- The lines that are shown for a problem in a text. -/
def TextProblem.shownLines (p : TextProblem) (text : String) : List (List Char) :=
  (p.withContext text).toList.splitOn '\n'

/-- The bytes of a text beyond the first of each character. -/
def continuationBytes (text : List Char) : Nat := (text.map fun c => c.utf8Size - 1).sum

theorem byteSize_eq_length_add (text : List Char) :
    byteSize text = text.length + continuationBytes text := by
  induction text with
  | nil => rfl
  | cons c rest ih =>
      have hc := c.utf8Size_pos
      rw [byteSize, ih, List.length_cons, continuationBytes, continuationBytes, List.map_cons,
        List.sum_cons]
      omega

theorem utf8Size_eq_one_iff (c : Char) : c.utf8Size - 1 = 0 ↔ c.toNat < 128 := by
  have hc := c.utf8Size_pos
  have hone : c.utf8Size - 1 = 0 ↔ c.utf8Size = 1 := by omega
  rw [hone, Char.utf8Size_eq_one_iff, UInt32.le_iff_toNat_le]
  exact Nat.lt_succ_iff.symm

theorem continuationBytes_eq_zero_iff (text : List Char) :
    continuationBytes text = 0 ↔ ∀ c ∈ text, c.toNat < 128 := by
  induction text with
  | nil => simp [continuationBytes]
  | cons c rest ih =>
      rw [List.forall_mem_cons, ← ih, ← utf8Size_eq_one_iff, continuationBytes, List.map_cons,
        List.sum_cons, Nat.add_eq_zero_iff]
      rfl

theorem caretLine_inj {m n : Nat} : caretLine m = caretLine n ↔ m = n := by
  refine ⟨fun h => ?_, congrArg caretLine⟩
  simpa [caretLine] using congrArg List.length h

/-- A text of one line is shown on the first line, and the caret on the second. -/
theorem TextProblem.shownLines_of_line (p : TextProblem) {text : String}
    (hline : '\n' ∉ text.toList) :
    ∃ lines, p.shownLines text = text.toList :: caretLine p.position :: lines := by
  have hcaret : '\n' ∉ caretLine p.position := by
    simp [caretLine, List.mem_replicate]
  have hshown : (p.withContext text).toList =
      text.toList ++ '\n' :: (caretLine p.position ++ '\n' :: p.display.toList) := by
    simp [withContext, caretLine]
  rw [shownLines, hshown, List.splitOn_append_cons_self_of_not_mem hline,
    List.splitOn_append_cons_self_of_not_mem hcaret]
  exact ⟨_, rfl⟩

theorem TextProblem.honest_of_ofText? {α : Type} [Scalar α] {text : String} {p : TextProblem}
    (h : (Condition.ofText? text : Except TextProblem (List (Condition α))) = .error p) :
    p.Honest text.toList := by
  rw [Condition.ofText?, ← ByteReader.map_ruleWithEnd] at h
  have hends := ByteReader.ends_readRule (α := α) text.toList
  cases hread : ByteReader.ruleWithEnd (α := α) text.toList with
  | ok step =>
      rw [hread] at h
      cases h
  | error problem =>
      rw [hread] at h hends
      obtain rfl := Except.error.inj h
      exact hends.honest

/-- Below a text of one line the caret stands as many columns in as there are bytes before the place
that the problem is about.  These are the characters before it and their further bytes, and so the
caret is below that place exactly when all characters before it are of one byte. -/
theorem caret_column {α : Type} [Scalar α] (text : String) (p : TextProblem)
    (hline : '\n' ∉ text.toList)
    (hproblem : (Condition.ofText? text : Except TextProblem (List (Condition α))) = .error p) :
    ∃ before behind, text.toList = before ++ behind ∧ byteSize before = p.position ∧
      Describes behind p.cause ∧
      (p.shownLines text)[0]? = some text.toList ∧
      (p.shownLines text)[1]? = some (caretLine (before.length + continuationBytes before)) ∧
      ((p.shownLines text)[1]? = some (caretLine before.length) ↔ ∀ c ∈ before, c.toNat < 128) := by
  obtain ⟨before, behind, htext, hposition, hdescribes⟩ := p.honest_of_ofText? hproblem
  obtain ⟨lines, hlines⟩ := p.shownLines_of_line hline
  have hcolumns := byteSize_eq_length_add before
  refine ⟨before, behind, htext, hposition, hdescribes, ?_, ?_, ?_⟩
  · rw [hlines]
    rfl
  · rw [hlines, ← hcolumns, hposition]
    rfl
  · rw [hlines, ← continuationBytes_eq_zero_iff, ← hposition, hcolumns]
    show some (caretLine _) = some (caretLine _) ↔ _
    rw [Option.some_inj, caretLine_inj]
    omega

/-- The name before the sign has one character of two bytes. -/
theorem ofText?_accented : (Condition.ofText? "é @" : Except TextProblem (List (Condition Float))) =
    .error ⟨.wantedComparator "@", 3⟩ := by
  have hrun : (Condition.ofText? "é @" : Except TextProblem (List (Condition Float))).map
      List.length = .error ⟨.wantedComparator "@", 3⟩ := by decide +kernel
  cases hread : (Condition.ofText? "é @" : Except TextProblem (List (Condition Float))) with
  | ok conditions =>
      rw [hread] at hrun
      cases hrun
  | error p =>
      rw [hread] at hrun
      exact congrArg Except.error (Except.error.inj hrun)

theorem caret_column_accented :
    '\n' ∉ "é @".toList ∧
    (Condition.ofText? "é @" : Except TextProblem (List (Condition Float))) =
      .error ⟨.wantedComparator "@", 3⟩ ∧
    ∃ before behind, "é @".toList = before ++ behind ∧ byteSize before = 3 ∧
      Describes behind (.wantedComparator "@") ∧
      (TextProblem.shownLines ⟨.wantedComparator "@", 3⟩ "é @")[0]? = some "é @".toList ∧
      (TextProblem.shownLines ⟨.wantedComparator "@", 3⟩ "é @")[1]? =
        some (caretLine (before.length + continuationBytes before)) ∧
      ((TextProblem.shownLines ⟨.wantedComparator "@", 3⟩ "é @")[1]? =
        some (caretLine before.length) ↔ ∀ c ∈ before, c.toNat < 128) := by
  have hline : '\n' ∉ "é @".toList := by decide
  exact ⟨hline, ofText?_accented, caret_column "é @" _ hline ofText?_accented⟩

/-- There the caret has three columns before it, but the sign has two characters. -/
theorem caret_beside_problem :
    ¬∀ (text : String) (p : TextProblem), '\n' ∉ text.toList →
      (Condition.ofText? text : Except TextProblem (List (Condition Float))) = .error p →
      ∀ before behind, text.toList = before ++ behind → byteSize before = p.position →
        (p.shownLines text)[1]? = some (caretLine before.length) := by
  intro hall
  have hline : '\n' ∉ "é @".toList := by decide
  have hcaret := hall "é @" _ hline ofText?_accented ['é', ' '] ['@'] (by decide) (by decide)
  obtain ⟨lines, hlines⟩ :=
    TextProblem.shownLines_of_line ⟨.wantedComparator "@", 3⟩ hline
  rw [hlines] at hcaret
  have hcolumns := caretLine_inj.mp (Option.some_inj.mp hcaret)
  exact absurd hcolumns (by decide)

end Backtester
