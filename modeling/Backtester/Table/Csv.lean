/-!
# Comma-separated tables

A table is a sequence of records, one per line, with commas between their fields.  A field between
quotes may hold commas and line ends, and a quote in it is written twice.

* `csvRecords` — the records of a text.  Lines end with a line feed, a carriage return or both;
  empty lines are no records, and a byte order mark at the start is no part of the text.
* `csvField`, `csvLine` — a field and a record as written, with quotes only where they are needed.
-/

namespace Backtester

/-- Where reading stands within a record. -/
inductive CsvMode where
  /-- Before a record. -/
  | startRecord
  /-- Before a field. -/
  | startField
  /-- In a field without quotes. -/
  | plain
  /-- In a field between quotes. -/
  | quoted
  /-- After a quote in a field between quotes. -/
  | afterQuote
deriving DecidableEq

/-- What has been read so far; the lists are in reverse order. -/
structure CsvState where
  /-- Where reading stands. -/
  mode : CsvMode
  /-- The characters of the field. -/
  field : List Char
  /-- The fields of the record. -/
  record : List (List Char)
  /-- The records. -/
  records : List (List (List Char))

namespace CsvState

/-- Before the first record. -/
def start : CsvState := ⟨.startRecord, [], [], []⟩

/-- Adds a character to the field. -/
def push (s : CsvState) (mode : CsvMode) (c : Char) : CsvState :=
  { s with mode := mode, field := c :: s.field }

/-- Ends the field. -/
def endField (s : CsvState) : CsvState :=
  { s with mode := .startField, field := [], record := s.field.reverse :: s.record }

/-- Ends the field and the record. -/
def endRecord (s : CsvState) : CsvState :=
  { mode := .startRecord
    field := []
    record := []
    records := (s.field.reverse :: s.record).reverse :: s.records }

/-- A character of a field without quotes, or after it. -/
def stepPlain (s : CsvState) (c : Char) : CsvState :=
  if c = ',' then s.endField
  else if c = '\n' ∨ c = '\r' then s.endRecord
  else s.push .plain c

/-- What one character does. -/
def step (s : CsvState) (c : Char) : CsvState :=
  match s.mode with
  | .startRecord =>
      if c = '\n' ∨ c = '\r' then s
      else if c = '"' then { s with mode := .quoted }
      else s.stepPlain c
  | .startField => if c = '"' then { s with mode := .quoted } else s.stepPlain c
  | .plain => s.stepPlain c
  | .quoted => if c = '"' then { s with mode := .afterQuote } else s.push .quoted c
  | .afterQuote => if c = '"' then s.push .quoted c else s.stepPlain c

/-- The records at the end of the text; a record that has begun ends there. -/
def finish (s : CsvState) : List (List (List Char)) :=
  match s.mode with
  | .startRecord => s.records.reverse
  | _ => s.endRecord.records.reverse

end CsvState

/-- The text without a byte order mark at its start. -/
def dropByteOrderMark : List Char → List Char
  | '\ufeff' :: rest => rest
  | text => text

/-- The records of a text. -/
def csvRecords (text : List Char) : List (List (List Char)) :=
  ((dropByteOrderMark text).foldl CsvState.step CsvState.start).finish

/-- A character that a field without quotes may not hold. -/
def needsQuotes (c : Char) : Bool := c == ',' || c == '"' || c == '\r' || c == '\n'

/-- A field as written. -/
def csvField (field : List Char) : List Char :=
  if field.any needsQuotes then
    '"' :: field.flatMap (fun c => if c = '"' then ['"', '"'] else [c]) ++ ['"']
  else field

/-- A record as written, with its line end. -/
def csvLine : List (List Char) → List Char
  | [] => ['\n']
  | [field] => csvField field ++ ['\n']
  | field :: rest => csvField field ++ ',' :: csvLine rest

end Backtester
