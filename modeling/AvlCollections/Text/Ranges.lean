/-! # Tables of character ranges

A property of characters is given as a table of closed ranges of code points, in increasing
order and without overlaps; a character has the property when one of the ranges holds it.
The search halves the part of the table still in question at every step, so one step more
than the binary logarithm of the table's size always reaches an answer.
-/

namespace AvlCollections

namespace Text

/-- Whether one of the ranges of `table` with an index from `lo` to below `hi` holds `n`,
searched in at most `fuel` halving steps. -/
def inRangesBetween (table : Array (Nat × Nat)) (n : Nat) : Nat → Nat → Nat → Bool
  | 0, _, _ => false
  | fuel + 1, lo, hi =>
    if lo < hi then
      let mid := (lo + hi) / 2
      let (a, b) := table.getD mid (0, 0)
      if n < a then inRangesBetween table n fuel lo mid
      else if b < n then inRangesBetween table n fuel (mid + 1) hi
      else true
    else false

/-- Whether one of the closed ranges of `table`, in increasing order, holds `n`. -/
def inRanges (table : Array (Nat × Nat)) (n : Nat) : Bool :=
  inRangesBetween table n (table.size.log2 + 1) 0 table.size

end Text

end AvlCollections
