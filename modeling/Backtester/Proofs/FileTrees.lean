import Backtester.Files
import Mathlib.Data.List.Basic

/-!
# Writing to a file tree

What a written text and a made folder change in a file tree, and what stays as it was.

* `node?_put` — what stands at a place after a node is put somewhere.
* `walk_put` — a path that leads to a place still does so after a file is put there.
* `read?_of_write?` — a text that has been written is what a reader of the path finds.
* `OnWay` — the folders that a path leads through; `node?_createFolder` — making a folder adds
  missing ones of these and changes nothing else.
-/

namespace Backtester
namespace FileTree

/-! ## Putting nodes -/

theorem node?_of_isPermanent (t : FileTree) {l : Location} (h : l.isPermanent = true) :
    t.node? l = some .folder := if_pos h

/-- A node is found at its place, unless a folder is there that cannot go away. -/
theorem node?_put (t : FileTree) (l place : Location) (node : FileNode) :
    (t.put l node).node? place =
      if place = l ∧ l.isPermanent = false then some node else t.node? place := by
  have hlookup (hne : place ≠ l) :
      (t.put l node).nodes.lookup place = t.nodes.lookup place := by
    have hbeq : (place == l) = false := beq_false_of_ne hne
    show ((l, node) :: t.nodes.filter fun entry => decide (entry.1 ≠ l)).lookup place = _
    rw [List.lookup_cons, hbeq]
    dsimp only
    induction t.nodes with
    | nil => rfl
    | cons entry rest ih =>
        by_cases hentry : entry.1 = l
        · rw [List.filter_cons_of_neg (by simpa using hentry), ih, List.lookup_cons, hentry, hbeq]
        · rw [List.filter_cons_of_pos (by simpa using hentry), List.lookup_cons, List.lookup_cons,
            ih]
  by_cases hplace : place = l
  · subst hplace
    cases hpermanent : place.isPermanent with
    | true => simp [node?_of_isPermanent _ hpermanent]
    | false => simp [node?, hpermanent, put]
  · simp [node?, hplace, hlookup]

theorem node?_put_self (t : FileTree) {l : Location} (h : t.node? l ≠ some .folder)
    (node : FileNode) : (t.put l node).node? l = some node := by
  have hfree : l.isPermanent = false := Bool.eq_false_iff.mpr (mt (node?_of_isPermanent t) h)
  rw [node?_put, if_pos ⟨rfl, hfree⟩]

theorem node?_put_of_ne (t : FileTree) {l place : Location} (h : place ≠ l) (node : FileNode) :
    (t.put l node).node? place = t.node? place := by
  rw [node?_put, if_neg fun hsame => h hsame.1]

/-! ## Writing and reading -/

/-- The way to a place leads through folders only, so a file put at its end does not block it. -/
theorem walk_put {t : FileTree} {place : Location} (hplace : t.node? place ≠ some .folder)
    (node : FileNode) {l : Location} {names : List String} (h : t.walk l names = .ok place) :
    (t.put place node).walk l names = .ok place := by
  induction names generalizing l with
  | nil => exact h
  | cons name rest ih =>
      rw [walk] at h ⊢
      cases hnode : t.node? l with
      | none => rw [hnode] at h; cases h
      | some found =>
          rw [hnode] at h
          cases found with
          | file _ => cases h
          | bytes => cases h
          | closed _ => cases h
          | folder =>
              have hne : l ≠ place := by
                rintro rfl
                exact hplace hnode
              rw [node?_put_of_ne t hne, hnode]
              dsimp only at h ⊢
              cases henter : enter l name with
              | error problem => rw [henter] at h; cases h
              | ok next =>
                  rw [henter] at h
                  exact ih h

theorem resolve_eq_ok_iff {t : FileTree} {path : String} {place : Location} :
    t.resolve path = .ok place ↔
      checkPath path = .ok () ∧ t.walk (startOf path) (pathParts path) = .ok place := by
  unfold resolve
  cases checkPath path with
  | error problem => exact iff_of_false (fun h => by cases h) fun h => by cases h.1
  | ok value => exact (and_iff_right rfl).symm

/-- A text can be put where nothing is, and over a file that is not closed. -/
theorem write?_eq_ok_iff {t written : FileTree} {path text : String} :
    t.write? path text = .ok written ↔
      ∃ place, t.resolve path = .ok place ∧ t.node? place ≠ some .folder ∧
        (∀ problem, t.node? place ≠ some (.closed problem)) ∧
          written = t.put place (.file text) := by
  unfold write?
  cases hresolve : t.resolve path with
  | error problem => exact iff_of_false (fun h => by cases h) (by rintro ⟨place, h, -⟩; cases h)
  | ok place =>
      dsimp only [bind, Except.bind]
      split
      · next hfolder =>
          refine iff_of_false (fun h => by cases h) ?_
          rintro ⟨other, hother, hnot, -⟩
          cases hother
          exact hnot hfolder
      · next problem hclosed =>
          refine iff_of_false (fun h => by cases h) ?_
          rintro ⟨other, hother, -, hopen, -⟩
          cases hother
          exact hopen problem hclosed
      · next hnot hopen =>
          constructor
          · intro h
            cases h
            exact ⟨place, rfl, hnot, hopen, rfl⟩
          · rintro ⟨other, hother, -, -, rfl⟩
            cases hother
            rfl

theorem resolve_put {t : FileTree} {path : String} {place : Location}
    (hresolve : t.resolve path = .ok place) (hplace : t.node? place ≠ some .folder)
    (node : FileNode) : (t.put place node).resolve path = .ok place := by
  obtain ⟨hpath, hwalk⟩ := resolve_eq_ok_iff.mp hresolve
  exact resolve_eq_ok_iff.mpr ⟨hpath, walk_put hplace _ hwalk⟩

/-- What has been written is read. -/
theorem read?_of_write? {t written : FileTree} {path text : String}
    (h : t.write? path text = .ok written) : written.read? path = .ok text := by
  obtain ⟨place, hresolve, hplace, -, rfl⟩ := write?_eq_ok_iff.mp h
  unfold read?
  rw [resolve_put hresolve hplace]
  dsimp only [bind, Except.bind]
  rw [node?_put_self t hplace]
  rfl

/-! ## Making folders -/

/-- The places that some names lead through, one after another. -/
def OnWay (l : Location) (names : List String) (place : Location) : Prop :=
  ∃ n, (names.take n).foldlM enter l = .ok place

theorem OnWay.cons {l next place : Location} {name : String} {rest : List String}
    (henter : enter l name = .ok next) (h : OnWay next rest place) :
    OnWay l (name :: rest) place := by
  obtain ⟨n, hn⟩ := h
  refine ⟨n + 1, ?_⟩
  rw [List.take_succ_cons, List.foldlM_cons, henter]
  exact hn

/-- Going along some names adds missing folders on the way, and changes nothing else. -/
theorem node?_makeFolders (t : FileTree) (l : Location) (names : List String) (place : Location) :
    (t.makeFolders l names).1.node? place = t.node? place ∨
      t.node? place = none ∧ (t.makeFolders l names).1.node? place = some .folder ∧
        OnWay l names place := by
  induction names generalizing t l with
  | nil => exact Or.inl rfl
  | cons name rest ih =>
      rw [makeFolders]
      cases henter : enter l name with
      | error problem => exact Or.inl rfl
      | ok next =>
          dsimp only
          cases hnode : t.node? next with
          | some found =>
              cases found with
              | file _ => exact Or.inl rfl
              | bytes => exact Or.inl rfl
              | closed _ => exact Or.inl rfl
              | folder =>
                  rcases ih t next with hsame | ⟨hnone, hmade, hway⟩
                  · exact Or.inl hsame
                  · exact Or.inr ⟨hnone, hmade, hway.cons henter⟩
          | none =>
              dsimp only
              have hnext := node?_put_self t (l := next) (by rw [hnode]; simp) .folder
              rcases ih (t.put next .folder) next with hsame | ⟨hnone, hmade, hway⟩
              · by_cases hplace : place = next
                · subst hplace
                  exact Or.inr ⟨hnode, hsame.trans hnext, 1, by simpa using henter⟩
                · exact Or.inl (hsame.trans (node?_put_of_ne t hplace _))
              · have hplace : place ≠ next := by
                  rintro rfl
                  rw [hnext] at hnone
                  cases hnone
                rw [node?_put_of_ne t hplace] at hnone
                exact Or.inr ⟨hnone, hmade, hway.cons henter⟩

/-- Making a folder adds missing ones on the way to it, and changes nothing else. -/
theorem node?_createFolder (t : FileTree) (path : String) (place : Location) :
    (t.createFolder path).1.node? place = t.node? place ∨
      t.node? place = none ∧ (t.createFolder path).1.node? place = some .folder ∧
        OnWay (startOf path) (pathParts path) place := by
  unfold createFolder
  split
  · exact Or.inl rfl
  · exact node?_makeFolders t _ _ place

end FileTree
end Backtester
