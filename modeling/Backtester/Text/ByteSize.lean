/-!
# Sizes in bytes

Positions in condition texts and the limits of path names count bytes of UTF-8.
-/

namespace Backtester

/-- The number of bytes of a text in UTF-8. -/
def byteSize : List Char → Nat
  | [] => 0
  | c :: rest => c.utf8Size + byteSize rest

end Backtester
