import Backtester.Proofs.LeastRows
import Backtester.Run

/-!
# Signals on a row

What the signals of a frame say on one row, and what the frame holds under a name.

* `signalAt_holds` — a condition on a row, with the row before it.
* `signalAt_allHold` — several conditions on a row.
* `signalAt_readyRows` — a row is ready where every column the conditions read has a number.
* `get?_insert_self`, `get?_insert_of_ne` — the column under a name after one is put in.
-/

namespace Backtester

/-- A row together with the one before it. -/
theorem getElem?_withPrevious {β : Type} (rows : List β) (i : Nat) :
    (withPrevious rows)[i]? =
      rows[i]?.map fun row => (if i = 0 then none else rows[i - 1]?, row) := by
  rw [withPrevious, List.zip_eq_zipWith, List.getElem?_zipWith]
  cases hrow : rows[i]? with
  | none => cases (none :: rows.map some)[i]? <;> rfl
  | some row =>
      cases i with
      | zero => rfl
      | succ i =>
          have hlt : i + 1 < rows.length := (List.getElem?_eq_some_iff.mp hrow).1
          have hbefore : rows[i]? = some rows[i] := List.getElem?_eq_getElem (by omega)
          rw [List.getElem?_cons_succ, List.getElem?_map, hbefore]
          simp [hbefore]

variable {α : Type} [Scalar α]

namespace Frame

/-! ## Conditions and readiness -/

theorem valuesOf_column (f : Frame α) {name : String} {values : List α}
    (hcolumn : f.get? name = some values) : f.valuesOf (.column name) = values := by
  rw [valuesOf, hcolumn]
  rfl

/-- A condition looks at a row and the row before it. -/
theorem signalAt_holds (f : Frame α) (c : Condition α) {rows : List (α × α)}
    (hrows : (f.valuesOf c.left).zip (f.valuesOf c.right) = rows) (i : Nat) :
    signalAt (f.holds c) i =
      rows[i]?.any fun row => c.comparator.holds (if i = 0 then none else rows[i - 1]?) row := by
  rw [signalAt, List.getD_eq_getElem?_getD, holds, hrows, List.getElem?_map, getElem?_withPrevious]
  cases rows[i]? <;> rfl

theorem signalAt_zipWith {β : Type} (g : Bool → β → Bool) (series : List Bool) (values : List β)
    (hfalse : ∀ x, g false x = false) (i : Nat) :
    signalAt (List.zipWith g series values) i = values[i]?.any (g (signalAt series i)) := by
  rw [signalAt, List.getD_eq_getElem?_getD, List.getElem?_zipWith, signalAt,
    List.getD_eq_getElem?_getD]
  cases hseries : series[i]? <;> cases hvalue : values[i]? <;> simp [hfalse]

theorem signalAt_replicate (n i : Nat) : signalAt (List.replicate n true) i = true ↔ i < n := by
  rw [signalAt, List.getD_eq_getElem?_getD, List.getElem?_replicate]
  by_cases hi : i < n
  · simp [hi]
  · simp [hi]

/-- Several conditions hold on a row where each of them does. -/
theorem signalAt_allHold (f : Frame α) {conditions : List (Condition α)} (hsome : conditions ≠ [])
    (i : Nat) : signalAt (f.allHold conditions) i = true ↔
      i < f.length ∧ ∀ c ∈ conditions, signalAt (f.holds c) i = true := by
  have hempty : ¬conditions.isEmpty = true := by simpa using hsome
  rw [allHold, if_neg hempty, ← signalAt_replicate f.length i]
  generalize List.replicate f.length true = all
  clear hsome hempty
  induction conditions generalizing all with
  | nil => simp
  | cons c rest ih =>
      refine (ih _).trans ?_
      rw [signalAt_zipWith _ _ _ (fun _ => rfl), List.forall_mem_cons, ← and_assoc]
      apply and_congr_left'
      rw [signalAt.eq_def (f.holds c), List.getD_eq_getElem?_getD]
      cases (f.holds c)[i]? <;> simp

/-- A row is ready where every named column of the frame has a number. -/
theorem signalAt_readyRows (f : Frame α) (names : List String) (i : Nat) :
    signalAt (f.readyRows names) i = true ↔ i < f.length ∧ ∀ name ∈ names, ∀ column,
      f.get? name = some column → ∃ x, column[i]? = some x ∧ Scalar.isNaN x = false := by
  rw [readyRows, ← signalAt_replicate f.length i]
  -- Name by name, from any rows left ready by the names before.
  generalize List.replicate f.length true = ready
  induction names generalizing ready with
  | nil => simp
  | cons name rest ih =>
      rw [List.forall_mem_cons]
      cases hcolumn : f.get? name with
      | none =>
          rw [List.filterMap_cons_none hcolumn, ih]
          simp
      | some column =>
          rw [List.filterMap_cons_some hcolumn, List.foldl_cons, ih,
            signalAt_zipWith _ _ _ (fun _ => rfl), ← and_assoc]
          apply and_congr_left'
          cases hvalue : column[i]? <;> simp [hvalue]

/-! ## Columns -/

theorem get?_insert_self {α : Type} (f : Frame α) (name : String) (values : List α) :
    (f.insert name values).get? name = some values :=
  List.lookup_cons_self

theorem get?_insert_of_ne {α : Type} (f : Frame α) {name other : String} (hne : other ≠ name)
    (values : List α) : (f.insert name values).get? other = f.get? other := by
  have hbeq : (other == name) = false := beq_false_of_ne hne
  rw [get?, insert, List.lookup_cons, hbeq]
  show (f.columns.filter fun column => column.1 != name).lookup other = f.columns.lookup other
  induction f.columns with
  | nil => rfl
  | cons column rest ih =>
      by_cases hname : column.1 = name
      · rw [List.filter_cons_of_neg (by simpa using hname), ih, List.lookup_cons, hname, hbeq]
      · rw [List.filter_cons_of_pos (by simpa using hname), List.lookup_cons, List.lookup_cons, ih]

theorem insertOutput_of_not_mem {α : Type} (f : Frame α) {name : String}
    (hname : name ∉ priceColumns) (values : List α) :
    f.insertOutput (name, values) = f.insert name values := by
  unfold insertOutput
  rw [if_neg (by simpa using hname)]

end Frame

end Backtester
