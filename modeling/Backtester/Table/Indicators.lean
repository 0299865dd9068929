import Backtester.Candle
import Backtester.Indicator
import Backtester.Table.Csv

/-!
# Indicator tables

An indicator table has the column `time` and one column per indicator output; a value that is not a
number leaves its field empty.
-/

namespace Backtester

/-- A value as a field; not-a-number is the empty field. -/
def valueField (x : Float) : List Char :=
  if x.isNaN then [] else (NumberStyle.display.write x).toList

/-- The first record: the names of the columns. -/
def indicatorHeader (kind : Indicator) : List (List Char) :=
  "time".toList :: kind.columnNames.map String.toList

/-- The record of one row. -/
def indicatorRecord (columns : List (String × List Float)) (row : Nat) (candle : Candle Float) :
    List (List Char) :=
  (intText candle.time).toList :: columns.map fun column => (column.2[row]?.map valueField).getD []

/-- The records of an indicator over candles. -/
def indicatorRecords (candles : List (Candle Float)) (kind : Indicator) : List (List (List Char)) :=
  let columns := kind.columns (candles.map Candle.close)
  indicatorHeader kind :: candles.mapIdx (indicatorRecord columns)

/-- The text of an indicator table. -/
def indicatorTable (candles : List (Candle Float)) (kind : Indicator) : String :=
  String.ofList ((indicatorRecords candles kind).flatMap csvLine)

end Backtester
