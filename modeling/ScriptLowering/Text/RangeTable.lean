/-! # Tables of code point ranges

A table is an array of closed ranges of code points, sorted and pairwise disjoint. Membership is
decided by binary search, so a table of a Unicode property answers in logarithmic time.
-/

namespace ScriptLowering.Text

/-- Sorted, pairwise disjoint closed ranges `(first, last)` of code points. -/
abbrev RangeTable := Array (Nat × Nat)

namespace RangeTable

/-- Searches the ranges with indices in `[low, high)` for one that holds `code`, halving the
interval at each of at most `steps` steps. -/
def searchBetween (table : RangeTable) (code : Nat) : (steps low high : Nat) → Bool
  | 0, _, _ => false
  | steps + 1, low, high =>
    if low < high then
      let middle := (low + high) / 2
      match table[middle]? with
      | none => false
      | some (first, last) =>
        if code < first then searchBetween table code steps low middle
        else if last < code then searchBetween table code steps (middle + 1) high
        else true
    else false

/-- Whether some range of the table holds the code point; as many steps as ranges are more
than binary search needs. -/
def contains (table : RangeTable) (code : Nat) : Bool :=
  searchBetween table code table.size 0 table.size

end RangeTable

end ScriptLowering.Text
