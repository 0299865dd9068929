import Backtester.Number.Reading
import Backtester.Number.Binary64

/-!
# JSON values

* `JsonNumber` — a number that is a natural number of 64 bits, a negative integer of 64 bits, or a
  double.
* `Json` — values; an object holds each key once.
* `Json.ofFloat` — a double as a value: a number if it is finite, else null.
-/

namespace Backtester

/-- A JSON number. -/
inductive JsonNumber where
  /-- A natural number of 64 bits. -/
  | natural (n : Nat)
  /-- The negative integer `-n` of 64 bits. -/
  | negative (n : Nat)
  /-- Any other number. -/
  | float (x : Float)
deriving DecidableEq

/-- The double nearest to a number. -/
def JsonNumber.toFloat : JsonNumber → Float
  | natural n => Scalar.ofNat n
  | negative n => Scalar.ofInt (-(n : Int))
  | float x => x

/-- A JSON value. -/
inductive Json where
  /-- The value `null`. -/
  | null
  /-- A truth value. -/
  | bool (value : Bool)
  /-- A number. -/
  | number (value : JsonNumber)
  /-- A text. -/
  | string (value : String)
  /-- A sequence of values. -/
  | array (items : List Json)
  /-- Values under keys. -/
  | object (members : List (String × Json))

namespace Json

/-- A natural number as a value. -/
def ofNat (n : Nat) : Json := number (.natural n)

/-- An integer as a value. -/
def ofInt (n : Int) : Json := if n < 0 then number (.negative n.natAbs) else number (.natural n.natAbs)

/-- A double as a value; one that is not finite is null. -/
def ofFloat (x : Float) : Json := if x.isFinite then number (.float x) else null

/-- An optional value; a missing one is null. -/
def ofOption {β : Type} (encode : β → Json) : Option β → Json
  | none => null
  | some x => encode x

end Json

end Backtester
