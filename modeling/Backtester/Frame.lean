import Backtester.Candle
import Backtester.Indicator

/-!
# Frames

A frame holds the columns a run's conditions read, one value per candle in each: the price columns
and one column per indicator output.

* `Frame.ofCandles` — the price columns of a candle series.
* `Frame.insert`, `Frame.get?` — a column put under a name, and the column under a name.
* `Frame.addIndicator` — adds an indicator's columns.  One named like a price column is left out, so
  candle data is never overwritten; one named like an earlier indicator column takes its place.
* `Frame.readyRows` — the rows at which none of the named columns is not-a-number.
-/

namespace Backtester

/-- Named columns over the rows of a candle series. -/
structure Frame (α : Type) where
  /-- The number of rows. -/
  length : Nat
  /-- The columns under their names, each name once. -/
  columns : List (String × List α)

namespace Frame

variable {α : Type} [Scalar α]

/-- The column under a name. -/
def get? (f : Frame α) (name : String) : Option (List α) := f.columns.lookup name

/-- Puts a column under a name, in place of the one that was there. -/
def insert (f : Frame α) (name : String) (values : List α) : Frame α :=
  { f with columns := (name, values) :: f.columns.filter (fun column => column.1 != name) }

/-- The price columns of a candle series. -/
def ofCandles (candles : List (Candle α)) : Frame α :=
  { length := candles.length
    columns :=
      [("open", candles.map Candle.opening), ("high", candles.map Candle.high),
        ("low", candles.map Candle.low), ("close", candles.map Candle.close),
        ("volume", candles.map Candle.volume)] }

/-- Puts an indicator column into a frame, unless a price column has its name. -/
def insertOutput (f : Frame α) (column : String × List α) : Frame α :=
  if priceColumns.contains column.1 then f else f.insert column.1 column.2

/-- Adds the columns of an indicator over the close column. -/
def addIndicator (f : Frame α) (kind : Indicator) : Frame α :=
  (kind.columns ((f.get? "close").getD [])).foldl insertOutput f

/-- The names of the columns that adding an indicator puts into a frame. -/
def addedNames (kind : Indicator) : List String :=
  kind.columnNames.filter (fun name => !priceColumns.contains name)

/-- The frame of a candle series with the columns of some indicators. -/
def build (candles : List (Candle α)) (kinds : List Indicator) : Frame α :=
  kinds.foldl addIndicator (ofCandles candles)

/-- The rows at which none of the named columns is not-a-number.  Names without a column do not
count. -/
def readyRows (f : Frame α) (names : List String) : List Bool :=
  (names.filterMap f.get?).foldl
    (fun ready column => List.zipWith (fun r x => r && !Scalar.isNaN x) ready column)
    (List.replicate f.length true)

end Frame

end Backtester
