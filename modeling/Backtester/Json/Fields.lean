import Backtester.Json.Document

/-!
# Decoding records

A record is written as an object, whose unknown members are skipped, or as an array of its fields in
order.

* `Document.fields?` — the parts of a document that belong to the named fields.
* `orDefault`, `required` — a field that may be left out and one that may not.
* `Document.text?`, `Document.float?`, … — decoders of single values.
-/

namespace Backtester

/-- The documents of the members with a key. -/
def membersNamed (name : String) (members : List (Option String × Document)) : List Document :=
  members.filterMap fun m => if m.1 = some name then some m.2 else none

/-- Reads an optional field, with the value of a missing one. -/
def orDefault {β : Type} (default : β) (decode : Document → Option β) :
    Option Document → Option β
  | none => some default
  | some d => decode d

/-- Reads a field that may not be missing. -/
def required {β : Type} (decode : Document → Option β) : Option Document → Option β
  | none => none
  | some d => decode d

namespace Document

/-- The parts of a document that belong to the named fields.  In an object no named field may come
twice and every key must be a text; an array may end early but not go on after the last field. -/
def fields? (names : List String) : Document → Option (List (Option Document))
  | object members =>
      if members.all (fun m => m.1.isSome) &&
          names.all (fun name => decide ((membersNamed name members).length ≤ 1)) then
        some (names.map fun name => (membersNamed name members).head?)
      else none
  | array items =>
      if items.length ≤ names.length then
        some (items.map some ++ List.replicate (names.length - items.length) none)
      else none
  | _ => none

/-- The text of a string. -/
def text? : Document → Option String
  | string text => text
  | _ => none

/-- A truth value. -/
def bool? : Document → Option Bool
  | bool value => some value
  | _ => none

/-- The double nearest to a number. -/
def float? : Document → Option Float
  | number lexeme => lexeme.value?.map JsonNumber.toFloat
  | _ => none

/-- A natural number of 64 bits. -/
def natural? : Document → Option Nat
  | number lexeme =>
      match lexeme.value? with
      | some (.natural n) => some n
      | _ => none
  | _ => none

/-- An integer of 64 bits. -/
def integer? : Document → Option Int
  | number lexeme =>
      match lexeme.value? with
      | some (.natural n) => if (n : Int) ≤ maxInt64 then some n else none
      | some (.negative n) => some (-(n : Int))
      | _ => none
  | _ => none

/-- A value or null. -/
def optional? {β : Type} (decode : Document → Option β) : Document → Option (Option β)
  | null => some none
  | d => (decode d).map some

/-- A sequence of values. -/
def list? {β : Type} (decode : Document → Option β) : Document → Option (List β)
  | array items => items.mapM decode
  | _ => none

/-- The value that a word stands for; the word may also be the one key of an object, over null. -/
def word? {β : Type} (values : List (String × β)) : Document → Option β
  | string (some text) => values.lookup text
  | object [(some text, null)] => values.lookup text
  | _ => none

end Document

end Backtester
