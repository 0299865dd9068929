/-!
# Candles

A candle holds the prices and the volume traded in one period of a market.
-/

namespace Backtester

/-- One period of a market. -/
structure Candle (α : Type) where
  /-- Seconds since the start of 1970 in universal time. -/
  time : Int
  /-- The first price. -/
  opening : α
  /-- The highest price. -/
  high : α
  /-- The lowest price. -/
  low : α
  /-- The last price. -/
  close : α
  /-- The amount traded. -/
  volume : α
deriving DecidableEq

/-- The price columns of a candle with their names, in the order of a candle table. -/
def Candle.fields {α : Type} (c : Candle α) : List (String × α) :=
  [("open", c.opening), ("high", c.high), ("low", c.low), ("close", c.close), ("volume", c.volume)]

/-- The names of the price columns. -/
def priceColumns : List String := ["open", "high", "low", "close", "volume"]

end Backtester
