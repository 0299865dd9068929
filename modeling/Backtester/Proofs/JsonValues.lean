import Backtester.Proofs.FrameShape
import Backtester.Proofs.JsonTexts
import Mathlib.Data.List.Forall2

/-!
# JSON values that were read

Whatever value is read from a text can be written and read again, on one line or over several, and
with the members of its objects in any order.

* `Json.Fits.readsOneLine`, `Json.documentOfText?_compact` — a value that fits, on one line.
* `Document.fits_of_value?` — a value that was read fits.
* `Json.Same`, `Json.Fits.of_same` — values that differ in the order of members at most.
* `Json.ofText?_rewritten` — a value that was read is read again from what is written for it.
-/

namespace Backtester

/-! ## Values on one line -/

namespace Json

theorem compactItems_eq (items : List Json) :
    compactItems items = [','].intercalate (items.map compactChars) :=
  eq_intercalate rfl (fun _ => rfl) (fun _ _ _ => rfl) items

/-- A member on one line. -/
def compactMember (member : String × Json) : List Char :=
  quoted member.1 ++ ':' :: member.2.compactChars

theorem compactMembers_eq (members : List (String × Json)) :
    compactMembers members = [','].intercalate (members.map compactMember) :=
  eq_intercalate rfl (fun _ => rfl)
    (fun _ _ _ => by simp [compactMembers]) members

/-- Wherever a value is written on one line, its tokens are read. -/
def ReadsOneLine (value : Json) : Prop :=
  ∀ rest, EndsNumber rest →
    tokens? (value.compactChars ++ rest) = (tokens? rest).map (value.document.tokens ++ ·)

theorem tokens?_compactItems {items : List Json} (hitems : ∀ value ∈ items, ReadsOneLine value)
    {rest : List Char} (hrest : EndsNumber rest) :
    tokens? (compactItems items ++ rest) =
      (tokens? rest).map (Document.itemTokens (itemDocuments items) ++ ·) := by
  rw [compactItems_eq, itemDocuments_eq_map, Document.itemTokens_eq, List.map_map]
  exact tokens?_separated tokens?_comma (endsNumber_cons (by decide)) hitems hrest

theorem tokens?_compactMembers {members : List (String × Json)}
    (hmembers : ∀ m ∈ members, ReadsOneLine m.2) {rest : List Char} (hrest : EndsNumber rest) :
    tokens? (compactMembers members ++ rest) =
      (tokens? rest).map (Document.memberTokens (memberDocuments members) ++ ·) := by
  rw [compactMembers_eq, memberDocuments_eq_map, Document.memberTokens_eq, List.map_map]
  refine tokens?_separated tokens?_comma (endsNumber_cons (by decide))
    (fun member hmember rest hrest => ?_) hrest
  have hcolon (more : List Char) : tokens? (':' :: more) = (tokens? more).map (.colon :: ·) :=
    tokens?_of_scanToken rfl rfl
  rw [compactMember, List.append_assoc, List.cons_append, tokens?_quoted, hcolon,
    hmembers member hmember rest hrest]
  simp [Function.comp_def]

theorem Fits.readsOneLine {levels : ℕ} {value : Json} (h : Fits levels value) :
    ReadsOneLine value := by
  induction h with
  | null => exact fun rest _ => tokens?_of_scanToken rfl rfl
  | bool value => cases value <;> exact fun rest _ => tokens?_of_scanToken rfl rfl
  | number hn => exact fun rest hrest => tokens?_number hn hrest
  | string text => exact fun rest _ => tokens?_quoted text rest
  | array hitems ih =>
      exact fun rest _ => tokens?_around rfl rfl (fun _ => rfl) (fun _ => rfl)
        (tokens?_compactItems ih (endsNumber_cons (by decide) rest))
  | object hkeys hmembers ih =>
      exact fun rest _ => tokens?_around rfl rfl (fun _ => rfl) (fun _ => rfl)
        (tokens?_compactMembers ih (endsNumber_cons (by decide) rest))

/-- The one line of a value is read as the document of the value. -/
theorem documentOfText?_compact {levels : ℕ} {value : Json} (h : Fits levels value) :
    Document.ofText? value.compact = some value.document := by
  have htokens := h.readsOneLine [] (by simp [EndsNumber])
  have hnone : tokens? [] = some [] := by simp [tokens?_eq]
  rw [List.append_nil, hnone] at htokens
  rw [Document.ofText?, compact, String.toList_ofList, htokens]
  simp [Document.ofTokens?_tokens]

end Json

/-! ## What is read fits -/

theorem NumberLexeme.plain_of_value? {lexeme : NumberLexeme} {n : JsonNumber}
    (h : lexeme.value? = some n) : n.Plain := by
  unfold value? at h
  split at h
  · next hnatural =>
      cases h
      exact hnatural.2.2
  · split at h
    · next hnegative =>
        cases h
        exact ⟨hnegative.2.2.1, hnegative.2.2.2⟩
    · obtain ⟨x, hx, rfl⟩ := Option.map_eq_some_iff.mp h
      unfold float? at hx
      dsimp only at hx
      split at hx
      · next hfinite =>
          cases hx
          exact hfinite
      · cases hx

theorem nodup_putMember {β : Type} {members : List (String × β)}
    (h : (members.map Prod.fst).Nodup) (key : String) (value : β) :
    ((putMember members key value).map Prod.fst).Nodup := by
  have hothers : ((members.filter fun m => m.1 != key).map Prod.fst).Nodup :=
    h.sublist (List.filter_sublist.map Prod.fst)
  rw [putMember, List.map_append, List.nodup_append]
  refine ⟨hothers, List.nodup_singleton key, ?_⟩
  intro name hname other hother heq
  obtain ⟨m, hm, rfl⟩ := List.mem_map.mp hname
  have hne : m.1 ≠ key := by simpa using (List.mem_filter.mp hm).2
  have hkey : other = key := by simpa using hother
  exact hne (heq.trans hkey)

theorem mem_putMember {β : Type} {members : List (String × β)} {key : String} {value : β}
    {m : String × β} (h : m ∈ putMember members key value) : m ∈ members ∨ m = (key, value) := by
  rcases List.mem_append.mp h with hmem | hmem
  · exact .inl (List.mem_filter.mp hmem).1
  · exact .inr (List.mem_singleton.mp hmem)

mutual

/-- A value that is read within a limit fits it. -/
theorem Document.fits_of_value? {levels : ℕ} {d : Document} {value : Json}
    (h : d.value? levels = some value) : Json.Fits levels value := by
  match d with
  | .null =>
      obtain rfl := Option.some.inj h
      exact .null
  | .bool value =>
      obtain rfl := Option.some.inj h
      exact .bool value
  | .number lexeme =>
      obtain ⟨n, hn, rfl⟩ := Option.map_eq_some_iff.mp h
      exact .number (NumberLexeme.plain_of_value? hn)
  | .string text =>
      obtain ⟨text, -, rfl⟩ := Option.map_eq_some_iff.mp h
      exact .string text
  | .array items =>
      rw [value?] at h
      match levels with
      | 0 => cases h
      | levels + 1 =>
          obtain ⟨values, hvalues, rfl⟩ := Option.map_eq_some_iff.mp h
          exact .array (fits_of_itemValues? hvalues)
  | .object members =>
      rw [value?] at h
      match levels with
      | 0 => cases h
      | levels + 1 =>
          obtain ⟨values, hvalues, rfl⟩ := Option.map_eq_some_iff.mp h
          obtain ⟨hkeys, hfits⟩ := fits_of_memberValues? hvalues List.nodup_nil (by simp)
          exact .object hkeys hfits

theorem Document.fits_of_itemValues? {levels : ℕ} {items : List Document} {values : List Json}
    (h : Document.itemValues? levels items = some values) :
    ∀ value ∈ values, Json.Fits levels value := by
  match items with
  | [] =>
      obtain rfl := Option.some.inj h
      simp
  | d :: rest =>
      rw [itemValues?] at h
      split at h
      · next value others hvalue hothers =>
          obtain rfl := Option.some.inj h
          exact List.forall_mem_cons.mpr ⟨fits_of_value? hvalue, fits_of_itemValues? hothers⟩
      · cases h

/-- The members collected so far have distinct keys and values that fit, and so have all of them. -/
theorem Document.fits_of_memberValues? {levels : ℕ} {members : List (Option String × Document)}
    {collected values : List (String × Json)}
    (h : Document.memberValues? levels collected members = some values)
    (hkeys : (collected.map Prod.fst).Nodup) (hfits : ∀ m ∈ collected, Json.Fits levels m.2) :
    (values.map Prod.fst).Nodup ∧ ∀ m ∈ values, Json.Fits levels m.2 := by
  match members with
  | [] =>
      obtain rfl := Option.some.inj h
      exact ⟨hkeys, hfits⟩
  | (key, d) :: rest =>
      unfold memberValues? at h
      split at h
      · next key value hvalue =>
          refine fits_of_memberValues? h (nodup_putMember hkeys key value) fun m hm => ?_
          rcases mem_putMember hm with hmem | rfl
          · exact hfits m hmem
          · exact fits_of_value? hvalue
      · cases h

end

/-! ## Members in another order -/

/-- Values that differ in the order of members at most: objects have the same value under each
key. -/
inductive Json.Same : Json → Json → Prop
  | refl (value : Json) : Same value value
  | array {items others : List Json} (hitems : List.Forall₂ Same items others) :
      Same (.array items) (.array others)
  | object {members others : List (String × Json)} (hkeys : (others.map Prod.fst).Nodup)
      (hvalues : ∀ key, Option.Rel Same (members.lookup key) (others.lookup key)) :
      Same (.object members) (.object others)

theorem exists_of_mem_right {β γ : Type} {related : β → γ → Prop} {xs : List β} {ys : List γ}
    (h : List.Forall₂ related xs ys) {y : γ} (hy : y ∈ ys) : ∃ x ∈ xs, related x y := by
  induction h with
  | nil => cases hy
  | @cons x y' xs ys hrelated hrest ih =>
      rcases List.mem_cons.mp hy with rfl | hmem
      · exact ⟨x, List.mem_cons_self, hrelated⟩
      · obtain ⟨x', hx', hrelated'⟩ := ih hmem
        exact ⟨x', List.mem_cons_of_mem _ hx', hrelated'⟩

namespace Json

/-- Members may be written in any order. -/
theorem same_of_perm {members others : List (String × Json)} (horder : members.Perm others)
    (hkeys : (members.map Prod.fst).Nodup) : Same (.object members) (.object others) := by
  have hothers : (others.map Prod.fst).Nodup := (horder.map Prod.fst).nodup_iff.mp hkeys
  refine .object hothers fun key => ?_
  cases hvalue : members.lookup key with
  | some value =>
      rw [lookup_of_mem hothers (horder.mem_iff.mp (mem_of_lookup hvalue))]
      exact .some (.refl value)
  | none =>
      cases hother : others.lookup key with
      | none => exact .none
      | some value =>
          rw [lookup_of_mem hkeys (horder.mem_iff.mpr (mem_of_lookup hother))] at hvalue
          cases hvalue

/-- Objects that differ in the order of members have the same value under each key. -/
theorem Same.lookup {members others : List (String × Json)}
    (h : Same (.object members) (.object others)) (key : String) :
    Option.Rel Same (members.lookup key) (others.lookup key) := by
  cases h with
  | refl =>
      cases members.lookup key with
      | none => exact .none
      | some value => exact .some (.refl value)
  | object _ hvalues => exact hvalues key

theorem Fits.nodup_keys {levels : ℕ} {members : List (String × Json)}
    (h : Fits levels (.object members)) : (members.map Prod.fst).Nodup := by
  cases h with
  | object hkeys _ => exact hkeys

/-- The order of members does not matter to whether JSON can hold a value. -/
theorem Fits.of_same {levels : ℕ} {value : Json} (h : Fits levels value) {other : Json}
    (hsame : Same value other) : Fits levels other := by
  induction h generalizing other with
  | null =>
      cases hsame
      exact .null
  | bool value =>
      cases hsame
      exact .bool value
  | number hn =>
      cases hsame
      exact .number hn
  | string text =>
      cases hsame
      exact .string text
  | array hitems ih =>
      cases hsame with
      | refl => exact .array hitems
      | array hmatched =>
          refine .array fun value hvalue => ?_
          obtain ⟨first, hfirst, hsame⟩ := exists_of_mem_right hmatched hvalue
          exact ih first hfirst hsame
  | @object levels members hkeys hmembers ih =>
      cases hsame with
      | refl => exact .object hkeys hmembers
      | object hothers hvalues =>
          refine .object hothers fun m hm => ?_
          have hrelated := hvalues m.1
          rw [lookup_of_mem hothers hm] at hrelated
          cases hfirst : List.lookup m.1 members with
          | none =>
              rw [hfirst] at hrelated
              cases hrelated
          | some first =>
              rw [hfirst] at hrelated
              cases hrelated with
              | some hsame => exact ih _ (mem_of_lookup hfirst) hsame

/-- A value that was read is read again from what is written for it, whatever the order of
members. -/
theorem ofText?_rewritten {text : String} {value other : Json} (h : ofText? text = some value)
    (hsame : Same value other) :
    ofText? other.compact = some other ∧ ofText? other.pretty = some other := by
  obtain ⟨d, -, hd⟩ := Option.bind_eq_some_iff.mp h
  have hfits := (Document.fits_of_value? hd).of_same hsame
  refine ⟨?_, ofText?_pretty hfits⟩
  rw [ofText?, documentOfText?_compact hfits]
  exact hfits.value?_document

end Json

end Backtester
