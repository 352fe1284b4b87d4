/-!
# Sets of characters as ranges

A property of characters is stored as the ranges of code points that have it.
-/

namespace Crosswalk.Text

/-- Whether a character lies in one of the ranges, whose ends are included. -/
def inRanges (ranges : List (Nat × Nat)) (c : Char) : Bool :=
  ranges.any fun (first, last) => first ≤ c.toNat && c.toNat ≤ last

end Crosswalk.Text
