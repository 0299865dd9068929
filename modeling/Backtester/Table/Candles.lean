import Backtester.Calendar.Reading
import Backtester.Candle
import Backtester.Table.Csv

/-!
# Candle tables

A candle table is a comma-separated table whose first record names the columns `time`, `open`,
`high`, `low`, `close` and `volume`, in any order and among others; `volume` may be missing and is
then zero.

* `readCandles` — the candles of a table, ascending in time; of several records with one time the
  last in the table counts.
* `TableProblem` — why a table cannot be read.
* `candlePath` — where the table of a symbol and a timeframe is kept.
-/

namespace Backtester

/-- Why a candle table cannot be read. -/
inductive TableProblem where
  /-- A record does not fit the columns, or a price is no number.  Records are counted from one. -/
  | malformed (record : Nat)
  /-- A time has none of the forms of a time. -/
  | badTime (text : String) (record : Nat)
deriving DecidableEq

/-- The fields of a record that belong to a column. -/
def fieldsNamed (name : String) (header record : List (List Char)) : List (List Char) :=
  ((header.zip record).filter fun column => column.1 == name.toList).map Prod.snd

/-- The one field of a column. -/
def field? (name : String) (header record : List (List Char)) : Option (List Char) :=
  match fieldsNamed name header record with
  | [field] => some field
  | _ => none

/-- The price in a column. -/
def price? (name : String) (header record : List (List Char)) : Option Float := do
  let field ← field? name header record
  let literal ← readNumber field
  return literal.value

/-- The volume of a record; zero without a column for it. -/
def volume? (header record : List (List Char)) : Option Float :=
  if (fieldsNamed "volume" header record).isEmpty then some 0 else price? "volume" header record

/-- The candle of a record, but for its time, and the text of the time. -/
def recordCandle? (header record : List (List Char)) : Option (List Char × Candle Float) := do
  if record.length ≠ header.length then none
  else
    let time ← field? "time" header record
    let opening ← price? "open" header record
    let high ← price? "high" header record
    let low ← price? "low" header record
    let close ← price? "close" header record
    let volume ← volume? header record
    -- The time is set once its text has been read.
    return (time, ⟨0, opening, high, low, close, volume⟩)

/-- The candle of the record with a given number. -/
def readRecord (header record : List (List Char)) (number : Nat) : Except TableProblem (Candle Float) :=
  match recordCandle? header record with
  | none => .error (.malformed number)
  | some (timeField, candle) =>
      match readTime timeField with
      | none => .error (.badTime (String.ofList timeField) number)
      | some time => .ok { candle with time := time }

/-- The candles of records numbered from `number` on. -/
def readRecords (header : List (List Char)) :
    (number : Nat) → List (List (List Char)) → Except TableProblem (List (Candle Float))
  | _, [] => .ok []
  | number, record :: rest => do
      let candle ← readRecord header (record.map trim) number
      let candles ← readRecords header (number + 1) rest
      return candle :: candles

/-- Of neighbours with one time, only the last. -/
def keepLast {α : Type} : List (Candle α) → List (Candle α)
  | [] => []
  | [candle] => [candle]
  | first :: second :: rest =>
      if first.time = second.time then keepLast (second :: rest)
      else first :: keepLast (second :: rest)

/-- Ascending in time; of several candles with one time, the last. -/
def orderCandles {α : Type} (candles : List (Candle α)) : List (Candle α) :=
  keepLast (candles.mergeSort fun a b => decide (a.time ≤ b.time))

/-- The candles of a table. -/
def readCandles (text : String) : Except TableProblem (List (Candle Float)) :=
  match csvRecords text.toList with
  | [] => .ok []
  | header :: records => (readRecords (header.map trim) 1 records).map orderCandles

/-- A path below a folder. -/
def joinPath (folder name : String) : String :=
  if folder.isEmpty || folder.toList.getLast? == some '/' then folder ++ name
  else folder ++ "/" ++ name

/-- The path of the table of a symbol and a timeframe.  Slashes in the symbol are left out. -/
def candlePath (folder symbol timeframe : String) : String :=
  joinPath folder (String.ofList (symbol.toList.filter (· != '/')) ++ "_" ++ timeframe ++ ".csv")

end Backtester
