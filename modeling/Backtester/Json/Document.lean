import Backtester.Json.Token

/-!
# JSON documents

A document is a JSON text as a tree, before its strings and numbers are looked at: a member may
repeat a key, a number may be beyond all doubles, and a string may hold half a character.  Such
parts are refused where their value is wanted and pass where they are skipped.

* `Document.ofText?` — reads a text.  The tokens drive a machine that keeps the open arrays and
  objects on a stack, one step per token.
* `Document.value?` — the value of a document whose nesting does not exceed a limit; of several
  members with one key the last counts.
* `Json.ofText?` — the value of a text.
-/

namespace Backtester

/-- A JSON text as a tree. -/
inductive Document where
  /-- The value `null`. -/
  | null
  /-- A truth value. -/
  | bool (value : Bool)
  /-- A number as written. -/
  | number (lexeme : NumberLexeme)
  /-- A string; `none` if half a character stands in it alone. -/
  | string (text : Option String)
  /-- A sequence. -/
  | array (items : List Document)
  /-- Members in the order of the text. -/
  | object (members : List (Option String × Document))

/-- An array or object that is still open. -/
inductive Opened where
  /-- An array with the items so far, last first. -/
  | array (items : List Document)
  /-- An object with the members so far, last first, and the key whose value is being read. -/
  | object (members : List (Option String × Document)) (key : Option String)

/-- What may come next. -/
inductive Awaited where
  /-- A value. -/
  | item
  /-- The first item of an array, or its end. -/
  | firstItem
  /-- A key, after these members. -/
  | key (members : List (Option String × Document))
  /-- The first key of an object, or its end. -/
  | firstKey
  /-- The colon after a key. -/
  | colon (members : List (Option String × Document)) (key : Option String)
  /-- Whatever may follow a finished value. -/
  | after (value : Document)

/-- The state of reading: what may come next, and the open arrays and objects, innermost first. -/
structure ReadState where
  /-- What may come next. -/
  awaited : Awaited
  /-- The open arrays and objects. -/
  stack : List Opened

namespace ReadState

/-- A token where a value may start. -/
def beginValue (stack : List Opened) : JsonToken → Option ReadState
  | .null => some ⟨.after .null, stack⟩
  | .bool value => some ⟨.after (.bool value), stack⟩
  | .number lexeme => some ⟨.after (.number lexeme), stack⟩
  | .string text => some ⟨.after (.string text), stack⟩
  | .openArray => some ⟨.firstItem, stack⟩
  | .openObject => some ⟨.firstKey, stack⟩
  | _ => none

/-- A token after a finished value. -/
def afterValue (value : Document) : List Opened → JsonToken → Option ReadState
  | .array items :: stack, .comma => some ⟨.item, .array (value :: items) :: stack⟩
  | .array items :: stack, .closeArray => some ⟨.after (.array (value :: items).reverse), stack⟩
  | .object members key :: stack, .comma => some ⟨.key ((key, value) :: members), stack⟩
  | .object members key :: stack, .closeObject =>
      some ⟨.after (.object ((key, value) :: members).reverse), stack⟩
  | _, _ => none

/-- What one token does. -/
def step (s : ReadState) (token : JsonToken) : Option ReadState :=
  match s.awaited, token with
  | .item, token => beginValue s.stack token
  | .firstItem, .closeArray => some ⟨.after (.array []), s.stack⟩
  | .firstItem, token => beginValue (.array [] :: s.stack) token
  | .firstKey, .closeObject => some ⟨.after (.object []), s.stack⟩
  | .firstKey, .string key => some ⟨.colon [] key, s.stack⟩
  | .key members, .string key => some ⟨.colon members key, s.stack⟩
  | .colon members key, .colon => some ⟨.item, .object members key :: s.stack⟩
  | .after value, token => afterValue value s.stack token
  | _, _ => none

/-- The document of a state after the last token. -/
def document? (s : ReadState) : Option Document :=
  match s.awaited, s.stack with
  | .after value, [] => some value
  | _, _ => none

end ReadState

namespace Document

/-- The document that a token list writes. -/
def ofTokens? (tokens : List JsonToken) : Option Document := do
  let last ← tokens.foldlM ReadState.step ⟨.item, []⟩
  last.document?

/-- The document that a text writes. -/
def ofText? (text : String) : Option Document := do
  let tokens ← tokens? text.toList
  ofTokens? tokens

end Document

/-- Puts a value under a key; the earlier value of the key, if there is one, gives way. -/
def putMember {β : Type} (members : List (String × β)) (key : String) (value : β) :
    List (String × β) :=
  members.filter (fun m => m.1 != key) ++ [(key, value)]

mutual

/-- The value of a document, with at most `levels` arrays and objects inside each other. -/
def Document.value? (levels : Nat) : Document → Option Json
  | .null => some .null
  | .bool value => some (.bool value)
  | .number lexeme => lexeme.value?.map .number
  | .string text => text.map .string
  | .array items =>
      if levels = 0 then none else (Document.itemValues? (levels - 1) items).map .array
  | .object members =>
      if levels = 0 then none else (Document.memberValues? (levels - 1) [] members).map .object

/-- The values of several documents. -/
def Document.itemValues? (levels : Nat) : List Document → Option (List Json)
  | [] => some []
  | d :: rest =>
      match d.value? levels, Document.itemValues? levels rest with
      | some value, some values => some (value :: values)
      | _, _ => none

/-- The values of members, put after those collected so far. -/
def Document.memberValues? (levels : Nat) (collected : List (String × Json)) :
    List (Option String × Document) → Option (List (String × Json))
  | [] => some collected
  | (key, d) :: rest =>
      match key, d.value? levels with
      | some key, some value => Document.memberValues? levels (putMember collected key value) rest
      | _, _ => none

end

/-- The deepest nesting of arrays and objects that is read. -/
def deepestNesting : Nat := 127

/-- The value that a text writes. -/
def Json.ofText? (text : String) : Option Json := do
  let d ← Document.ofText? text
  d.value? deepestNesting

end Backtester
