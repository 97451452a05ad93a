/-!
Sets of characters as sorted ranges of code points.
-/

namespace Remedy.Text

/-- Looks a code point up in sorted ranges, between indices `lo` and `hi`. -/
def searchRanges (ranges : Array (Nat × Nat)) (n : Nat) : Nat → Nat → Nat → Bool
  | 0, _, _ => false
  | fuel + 1, lo, hi =>
    if lo < hi then
      let mid := (lo + hi) / 2
      let (first, last) := ranges.getD mid (0, 0)
      if n < first then searchRanges ranges n fuel lo mid
      else if last < n then searchRanges ranges n fuel (mid + 1) hi
      else true
    else false

def inRanges (ranges : Array (Nat × Nat)) (c : Char) : Bool :=
  searchRanges ranges c.toNat (ranges.size + 1) 0 ranges.size

end Remedy.Text
