/-
# DbInventory.Unicode.Ranges -- character properties as sorted ranges

A property of characters is stored as the list of the code point ranges that have it, both
ends included, in increasing order. The tables of this folder hold one property each.
-/

namespace DbInventory.Unicode

/-- Whether a code point lies in one of the ranges. -/
def inRanges (ranges : List (Nat × Nat)) (code : Nat) : Bool :=
  ranges.any fun r => r.1 ≤ code && code ≤ r.2

end DbInventory.Unicode
