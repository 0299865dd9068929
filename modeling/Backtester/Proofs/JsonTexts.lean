import Backtester.Json.Document
import Backtester.Proofs.JsonTokens

/-!
# Written JSON reads back

A value that is written over several lines is read as itself.

* `Document.tokens`, `ofTokens?_tokens` — the tokens of a document, and that they are read as the
  document.
* `Json.document` — the document of a written value.
* `Json.Fits` — values that JSON can hold: plain numbers, distinct keys and a limited nesting.
* `Json.tokens?_separated` — parts with a separator between them.
* `Json.Fits.readsTokens` — the tokens of a written value.
* `Json.ofText?_pretty` — a value that fits is read from its text.
-/

namespace Backtester

/-- Parts written one after the other with a separator between them. -/
theorem eq_intercalate {β γ : Type} {write : List β → List γ} {one : β → List γ}
    {separator : List γ} (hnone : write [] = []) (hone : ∀ x, write [x] = one x)
    (hmore : ∀ x y rest, write (x :: y :: rest) = one x ++ (separator ++ write (y :: rest)))
    (xs : List β) : write xs = separator.intercalate (xs.map one) := by
  induction xs with
  | nil => simp [hnone]
  | cons x rest ih =>
      cases rest with
      | nil => simp [hone]
      | cons y rest =>
          simp only [List.map_cons] at ih ⊢
          rw [hmore, ih, List.intercalate_cons_cons, List.append_assoc]

/-! ## The tokens of a document -/

mutual

/-- The tokens of a document. -/
def Document.tokens : Document → List JsonToken
  | .null => [.null]
  | .bool value => [.bool value]
  | .number lexeme => [.number lexeme]
  | .string text => [.string text]
  | .array items => .openArray :: Document.itemTokens items ++ [.closeArray]
  | .object members => .openObject :: Document.memberTokens members ++ [.closeObject]

/-- The tokens of items with commas between them. -/
def Document.itemTokens : List Document → List JsonToken
  | [] => []
  | [d] => d.tokens
  | d :: rest => d.tokens ++ .comma :: Document.itemTokens rest

/-- The tokens of members with commas between them. -/
def Document.memberTokens : List (Option String × Document) → List JsonToken
  | [] => []
  | [(key, d)] => .string key :: .colon :: d.tokens
  | (key, d) :: rest =>
      .string key :: .colon :: d.tokens ++ .comma :: Document.memberTokens rest

end

namespace Document

/-- Where an array may end at once, a value is read as its first item. -/
theorem foldlM_firstItem (d : Document) (stack : List Opened) (rest : List JsonToken) :
    (d.tokens ++ rest).foldlM ReadState.step ⟨.firstItem, stack⟩ =
      (d.tokens ++ rest).foldlM ReadState.step ⟨.item, .array [] :: stack⟩ := by
  cases d <;> simp [tokens, ReadState.step]

/-- Where an object may end at once, a key is read as its first one. -/
theorem foldlM_firstKey (members : List (Option String × Document)) (hne : members ≠ [])
    (stack : List Opened) (rest : List JsonToken) :
    (memberTokens members ++ rest).foldlM ReadState.step ⟨.firstKey, stack⟩ =
      (memberTokens members ++ rest).foldlM ReadState.step ⟨.key [], stack⟩ := by
  match members with
  | [] => exact absurd rfl hne
  | [(key, d)] => rfl
  | (key, d) :: member :: others => rfl

mutual

/-- The tokens of a document are read as the document. -/
theorem foldlM_tokens (d : Document) (stack : List Opened) (rest : List JsonToken) :
    (d.tokens ++ rest).foldlM ReadState.step ⟨.item, stack⟩ =
      rest.foldlM ReadState.step ⟨.after d, stack⟩ := by
  match d with
  | null | bool _ | number _ | string _ => rfl
  | array [] => rfl
  | array (d :: others) =>
      have hitems := foldlM_itemTokens (d :: others) (by simp) [] stack rest
      have hfirst (more : List JsonToken) :
          (itemTokens (d :: others) ++ more).foldlM ReadState.step ⟨.firstItem, stack⟩ =
            (itemTokens (d :: others) ++ more).foldlM ReadState.step
              ⟨.item, .array [] :: stack⟩ := by
        cases others with
        | nil => exact foldlM_firstItem d stack more
        | cons d' others =>
            show (d.tokens ++ .comma :: itemTokens (d' :: others) ++ more).foldlM _ _ =
              (d.tokens ++ .comma :: itemTokens (d' :: others) ++ more).foldlM _ _
            rw [List.append_assoc]
            exact foldlM_firstItem d stack _
      show (itemTokens (d :: others) ++ [JsonToken.closeArray] ++ rest).foldlM ReadState.step
        ⟨.firstItem, stack⟩ = _
      rw [List.append_assoc, hfirst]
      exact hitems
  | object [] => rfl
  | object (member :: others) =>
      have hmembers := foldlM_memberTokens (member :: others) (by simp) [] stack rest
      show (memberTokens (member :: others) ++ [JsonToken.closeObject] ++ rest).foldlM ReadState.step
        ⟨.firstKey, stack⟩ = _
      rw [List.append_assoc, foldlM_firstKey _ (by simp)]
      exact hmembers

/-- Items after those read so far are read up to the end of the array. -/
theorem foldlM_itemTokens (items : List Document) (hne : items ≠ []) (before : List Document)
    (stack : List Opened) (rest : List JsonToken) :
    (itemTokens items ++ .closeArray :: rest).foldlM ReadState.step
        ⟨.item, .array before :: stack⟩ =
      rest.foldlM ReadState.step ⟨.after (.array (before.reverse ++ items)), stack⟩ := by
  match items with
  | [] => exact absurd rfl hne
  | [d] =>
      rw [itemTokens, foldlM_tokens d]
      simp [ReadState.step, ReadState.afterValue]
  | d :: d' :: others =>
      have hothers := foldlM_itemTokens (d' :: others) (by simp) (d :: before) stack rest
      show (d.tokens ++ .comma :: itemTokens (d' :: others) ++ .closeArray :: rest).foldlM _ _ = _
      rw [List.append_assoc, foldlM_tokens d]
      simpa [ReadState.step, ReadState.afterValue] using hothers

/-- Members after those read so far are read up to the end of the object. -/
theorem foldlM_memberTokens (members : List (Option String × Document)) (hne : members ≠ [])
    (before : List (Option String × Document)) (stack : List Opened) (rest : List JsonToken) :
    (memberTokens members ++ .closeObject :: rest).foldlM ReadState.step ⟨.key before, stack⟩ =
      rest.foldlM ReadState.step ⟨.after (.object (before.reverse ++ members)), stack⟩ := by
  match members with
  | [] => exact absurd rfl hne
  | [(key, d)] =>
      show (d.tokens ++ .closeObject :: rest).foldlM ReadState.step
        ⟨.item, .object before key :: stack⟩ = _
      rw [foldlM_tokens d]
      simp [ReadState.step, ReadState.afterValue]
  | (key, d) :: member :: others =>
      have hothers :=
        foldlM_memberTokens (member :: others) (by simp) ((key, d) :: before) stack rest
      show (d.tokens ++ .comma :: memberTokens (member :: others) ++ .closeObject :: rest).foldlM
        ReadState.step ⟨.item, .object before key :: stack⟩ = _
      rw [List.append_assoc, foldlM_tokens d]
      simpa [ReadState.step, ReadState.afterValue] using hothers

end

theorem ofTokens?_tokens (d : Document) : ofTokens? d.tokens = some d := by
  have hrun := foldlM_tokens d [] []
  rw [List.append_nil] at hrun
  rw [ofTokens?, hrun]
  rfl

theorem itemTokens_eq (items : List Document) :
    itemTokens items = [JsonToken.comma].intercalate (items.map tokens) :=
  eq_intercalate rfl (fun _ => rfl) (fun _ _ _ => rfl) items

theorem memberTokens_eq (members : List (Option String × Document)) :
    memberTokens members = [JsonToken.comma].intercalate
      (members.map fun m => .string m.1 :: .colon :: m.2.tokens) :=
  eq_intercalate rfl (fun _ => rfl) (fun _ _ _ => rfl) members

end Document

/-! ## The document of a value -/

mutual

/-- A value as a document: what the text of the value says. -/
def Json.document : Json → Document
  | .null => .null
  | .bool value => .bool value
  | .number n => .number n.lexeme
  | .string text => .string (some text)
  | .array items => .array (Json.itemDocuments items)
  | .object members => .object (Json.memberDocuments members)

/-- Values as documents. -/
def Json.itemDocuments : List Json → List Document
  | [] => []
  | value :: rest => value.document :: Json.itemDocuments rest

/-- Members as members of a document. -/
def Json.memberDocuments : List (String × Json) → List (Option String × Document)
  | [] => []
  | (key, value) :: rest => (some key, value.document) :: Json.memberDocuments rest

end

namespace Json

theorem itemDocuments_eq_map (items : List Json) : itemDocuments items = items.map document := by
  induction items with
  | nil => rfl
  | cons value rest ih => rw [itemDocuments, ih, List.map_cons]

theorem memberDocuments_eq_map (members : List (String × Json)) :
    memberDocuments members = members.map fun m => (some m.1, m.2.document) := by
  induction members with
  | nil => rfl
  | cons member rest ih => rw [memberDocuments, ih, List.map_cons]

/-- A value that JSON can hold: its numbers are plain, its keys are distinct and at most `levels`
arrays and objects lie inside each other. -/
inductive Fits : ℕ → Json → Prop
  | null {levels : ℕ} : Fits levels .null
  | bool {levels : ℕ} (value : Bool) : Fits levels (.bool value)
  | number {levels : ℕ} {n : JsonNumber} (hn : n.Plain) : Fits levels (.number n)
  | string {levels : ℕ} (text : String) : Fits levels (.string text)
  | array {levels : ℕ} {items : List Json} (hitems : ∀ value ∈ items, Fits levels value) :
      Fits (levels + 1) (.array items)
  | object {levels : ℕ} {members : List (String × Json)} (hkeys : (members.map Prod.fst).Nodup)
      (hmembers : ∀ m ∈ members, Fits levels m.2) : Fits (levels + 1) (.object members)

/-! ## The text of a value -/

/-- Wherever a value is written, its tokens are read. -/
def ReadsTokens (value : Json) : Prop :=
  ∀ level rest, EndsNumber rest →
    tokens? (value.prettyChars level ++ rest) = (tokens? rest).map (value.document.tokens ++ ·)

theorem endsNumber_cons {c : Char} (h : isDigit c = false ∧ c ≠ '.' ∧ c ≠ 'e' ∧ c ≠ 'E')
    (rest : List Char) : EndsNumber (c :: rest) := by
  intro c' hc'
  cases hc'
  exact h

theorem endsNumber_lineBreak (level : ℕ) (rest : List Char) :
    EndsNumber (lineBreak level ++ rest) := endsNumber_cons (by decide) _

theorem tokens?_comma (rest : List Char) :
    tokens? (',' :: rest) = (tokens? rest).map (.comma :: ·) := tokens?_of_scanToken rfl rfl

/-- Parts with a separator between them are read part by part. -/
theorem tokens?_separated {β : Type} {separator : List Char} {write : β → List Char}
    {tokens : β → List JsonToken} {parts : List β}
    (hcomma : ∀ rest, tokens? (separator ++ rest) = (tokens? rest).map (.comma :: ·))
    (hends : ∀ rest, EndsNumber (separator ++ rest))
    (hparts : ∀ part ∈ parts, ∀ rest, EndsNumber rest →
      tokens? (write part ++ rest) = (tokens? rest).map (tokens part ++ ·))
    {rest : List Char} (hrest : EndsNumber rest) :
    tokens? (separator.intercalate (parts.map write) ++ rest) =
      (tokens? rest).map ([JsonToken.comma].intercalate (parts.map tokens) ++ ·) := by
  induction parts with
  | nil => simp
  | cons part others ih =>
      have hpart := hparts part List.mem_cons_self
      cases others with
      | nil => simpa using hpart rest hrest
      | cons next others =>
          have hothers := ih fun p hp => hparts p (List.mem_cons_of_mem _ hp)
          simp only [List.map_cons] at hothers ⊢
          rw [List.intercalate_cons_cons, List.intercalate_cons_cons, List.append_assoc,
            List.append_assoc, hpart _ (hends _), hcomma, hothers]
          simp [Function.comp_def]

/-- What is written between items and members on lines of their own. -/
def nextLine (level : ℕ) : List Char := ',' :: lineBreak level

theorem tokens?_nextLine (level : ℕ) (rest : List Char) :
    tokens? (nextLine level ++ rest) = (tokens? rest).map (.comma :: ·) := by
  rw [nextLine, List.cons_append, tokens?_comma, tokens?_lineBreak]

theorem endsNumber_nextLine (level : ℕ) (rest : List Char) : EndsNumber (nextLine level ++ rest) :=
  endsNumber_cons (by decide) _

theorem prettyItems_eq (level : ℕ) (items : List Json) :
    prettyItems level items = (nextLine level).intercalate (items.map (prettyChars level)) :=
  eq_intercalate rfl (fun _ => rfl) (fun _ _ _ => by simp [prettyItems, nextLine]) items

theorem tokens?_prettyItems {items : List Json} (hitems : ∀ value ∈ items, ReadsTokens value)
    (level : ℕ) {rest : List Char} (hrest : EndsNumber rest) :
    tokens? (prettyItems level items ++ rest) =
      (tokens? rest).map (Document.itemTokens (itemDocuments items) ++ ·) := by
  rw [prettyItems_eq, itemDocuments_eq_map, Document.itemTokens_eq, List.map_map]
  exact tokens?_separated (tokens?_nextLine level) (endsNumber_nextLine level)
    (fun value hvalue => hitems value hvalue level) hrest

/-- A member on a line of its own. -/
def prettyMember (level : ℕ) (member : String × Json) : List Char :=
  quoted member.1 ++ ':' :: ' ' :: member.2.prettyChars level

theorem tokens?_prettyMember {member : String × Json} (hvalue : ReadsTokens member.2) (level : ℕ)
    (rest : List Char) (hrest : EndsNumber rest) :
    tokens? (prettyMember level member ++ rest) =
      (tokens? rest).map
        (.string (some member.1) :: .colon :: member.2.document.tokens ++ ·) := by
  have hcolon (more : List Char) :
      tokens? (':' :: ' ' :: more) = (tokens? more).map (.colon :: ·) := by
    have hscan : scanToken (':' :: ' ' :: more) = some (.colon, ' ' :: more) := rfl
    have hblank : tokens? ([' '] ++ more) = tokens? more :=
      tokens?_blanks (by simp [isJsonBlank]) more
    rw [tokens?_of_scanToken rfl hscan]
    exact congrArg _ hblank
  simp only [prettyMember, List.append_assoc, List.cons_append]
  rw [tokens?_quoted, hcolon, hvalue level rest hrest]
  simp [Function.comp_def]

theorem prettyMembers_eq (level : ℕ) (members : List (String × Json)) :
    prettyMembers level members =
      (nextLine level).intercalate (members.map (prettyMember level)) :=
  eq_intercalate rfl (fun _ => rfl)
    (fun _ _ _ => by simp [prettyMembers, nextLine]) members

theorem tokens?_prettyMembers {members : List (String × Json)}
    (hmembers : ∀ m ∈ members, ReadsTokens m.2) (level : ℕ) {rest : List Char}
    (hrest : EndsNumber rest) :
    tokens? (prettyMembers level members ++ rest) =
      (tokens? rest).map (Document.memberTokens (memberDocuments members) ++ ·) := by
  rw [prettyMembers_eq, memberDocuments_eq_map, Document.memberTokens_eq, List.map_map]
  exact tokens?_separated (tokens?_nextLine level) (endsNumber_nextLine level)
    (fun member hmember => tokens?_prettyMember (hmembers member hmember) level) hrest

/-- Tokens around the inside of an array or object. -/
theorem tokens?_around {first last : Char} {opening closing : JsonToken} {inside : List JsonToken}
    {text rest : List Char} (hfirst : isJsonBlank first = false) (hlast : isJsonBlank last = false)
    (hopening : ∀ more, scanToken (first :: more) = some (opening, more))
    (hclosing : ∀ more, scanToken (last :: more) = some (closing, more))
    (hinside : tokens? (text ++ last :: rest) = (tokens? (last :: rest)).map (inside ++ ·)) :
    tokens? (first :: text ++ [last] ++ rest) =
      (tokens? rest).map (opening :: inside ++ [closing] ++ ·) := by
  rw [tokens?_of_scanToken hlast (hclosing rest)] at hinside
  rw [List.append_assoc, List.singleton_append, List.cons_append,
    tokens?_of_scanToken hfirst (hopening _), hinside]
  simp [Function.comp_def]

/-- The same with line breaks inside. -/
theorem tokens?_lines {first last : Char} {opening closing : JsonToken} {inside : List JsonToken}
    {text : List Char} (hfirst : isJsonBlank first = false) (hlast : isJsonBlank last = false)
    (hopening : ∀ more, scanToken (first :: more) = some (opening, more))
    (hclosing : ∀ more, scanToken (last :: more) = some (closing, more))
    (hinside : ∀ more, EndsNumber more →
      tokens? (text ++ more) = (tokens? more).map (inside ++ ·)) (level : ℕ) (rest : List Char) :
    tokens? (first :: lineBreak (level + 1) ++ text ++ lineBreak level ++ [last] ++ rest) =
      (tokens? rest).map (opening :: inside ++ [closing] ++ ·) := by
  have hbetween : tokens? (lineBreak (level + 1) ++ text ++ lineBreak level ++ last :: rest) =
      (tokens? (last :: rest)).map (inside ++ ·) := by
    rw [List.append_assoc, List.append_assoc, tokens?_lineBreak,
      hinside _ (endsNumber_lineBreak _ _), tokens?_lineBreak]
  exact tokens?_around hfirst hlast hopening hclosing hbetween

theorem Fits.readsTokens {levels : ℕ} {value : Json} (h : Fits levels value) :
    ReadsTokens value := by
  induction h with
  | null =>
      intro level rest _
      exact tokens?_of_scanToken rfl rfl
  | bool value =>
      intro level rest _
      cases value <;> exact tokens?_of_scanToken rfl rfl
  | number hn =>
      intro level rest hrest
      exact tokens?_number hn hrest
  | string text =>
      intro level rest _
      exact tokens?_quoted text rest
  | @array levels items hitems ih =>
      intro level rest _
      have hopening (more : List Char) : scanToken ('[' :: more) = some (.openArray, more) := rfl
      have hclosing (more : List Char) : scanToken (']' :: more) = some (.closeArray, more) := rfl
      cases items with
      | nil =>
          have hnone : tokens? ([] ++ ']' :: rest) = (tokens? (']' :: rest)).map ([] ++ ·) := by simp
          exact tokens?_around rfl rfl hopening hclosing hnone
      | cons value others =>
          exact tokens?_lines rfl rfl hopening hclosing
            (fun more hmore => tokens?_prettyItems ih (level + 1) hmore) level rest
  | @object levels members hkeys hmembers ih =>
      intro level rest _
      have hopening (more : List Char) : scanToken ('\x7b' :: more) = some (.openObject, more) := rfl
      have hclosing (more : List Char) : scanToken ('\x7d' :: more) = some (.closeObject, more) := rfl
      cases members with
      | nil =>
          have hnone : tokens? ([] ++ '\x7d' :: rest) = (tokens? ('\x7d' :: rest)).map ([] ++ ·) := by
            simp
          exact tokens?_around rfl rfl hopening hclosing hnone
      | cons member others =>
          exact tokens?_lines rfl rfl hopening hclosing
            (fun more hmore => tokens?_prettyMembers ih (level + 1) hmore) level rest

/-- The text of a value is read as the document of the value. -/
theorem documentOfText?_pretty {levels : ℕ} {value : Json} (h : Fits levels value) :
    Document.ofText? value.pretty = some value.document := by
  have htokens := h.readsTokens 0 [] (by simp [EndsNumber])
  have hnone : tokens? [] = some [] := by simp [tokens?_eq]
  rw [List.append_nil, hnone] at htokens
  rw [Document.ofText?, pretty, String.toList_ofList, htokens]
  simp [Document.ofTokens?_tokens]

/-! ## The value of a document -/

theorem itemValues?_itemDocuments {levels : ℕ} {items : List Json}
    (h : ∀ value ∈ items, value.document.value? levels = some value) :
    Document.itemValues? levels (itemDocuments items) = some items := by
  induction items with
  | nil => rfl
  | cons value rest ih =>
      rw [itemDocuments, Document.itemValues?, h value (by simp),
        ih fun v hv => h v (List.mem_cons_of_mem _ hv)]

theorem putMember_of_notMem {β : Type} {members : List (String × β)} {key : String}
    (h : key ∉ members.map Prod.fst) (value : β) :
    putMember members key value = members ++ [(key, value)] := by
  rw [putMember, List.filter_eq_self.mpr]
  intro m hm
  have hne : m.1 ≠ key := fun heq => h (List.mem_map.mpr ⟨m, hm, heq⟩)
  simpa using hne

theorem memberValues?_memberDocuments {levels : ℕ} {members : List (String × Json)}
    (h : ∀ m ∈ members, m.2.document.value? levels = some m.2) (collected : List (String × Json))
    (hkeys : ((collected ++ members).map Prod.fst).Nodup) :
    Document.memberValues? levels collected (memberDocuments members) =
      some (collected ++ members) := by
  induction members generalizing collected with
  | nil => simp [memberDocuments, Document.memberValues?]
  | cons member rest ih =>
      obtain ⟨key, value⟩ := member
      have hnew : key ∉ collected.map Prod.fst := by
        rw [List.map_append, List.map_cons, List.nodup_append] at hkeys
        intro hmem
        exact hkeys.2.2 key hmem key (by simp) rfl
      have hvalue : value.document.value? levels = some value := h _ List.mem_cons_self
      simp only [memberDocuments, Document.memberValues?, hvalue]
      rw [putMember_of_notMem hnew, ih (fun m hm => h m (List.mem_cons_of_mem _ hm))]
      · simp
      · simpa using hkeys

/-- The document of a value that fits has that value. -/
theorem Fits.value?_document {levels : ℕ} {value : Json} (h : Fits levels value) :
    value.document.value? levels = some value := by
  induction h with
  | null => rfl
  | bool value => rfl
  | string text => rfl
  | number hn => simp [document, Document.value?, JsonNumber.value?_lexeme hn]
  | array hitems ih => simp [document, Document.value?, itemValues?_itemDocuments ih]
  | object hkeys hmembers ih =>
      simp [document, Document.value?, memberValues?_memberDocuments ih [] (by simpa using hkeys)]

/-- A value that fits is read from its text. -/
theorem ofText?_pretty {value : Json} (h : Fits deepestNesting value) :
    ofText? value.pretty = some value := by
  rw [ofText?, documentOfText?_pretty h]
  exact h.value?_document

end Json

end Backtester
