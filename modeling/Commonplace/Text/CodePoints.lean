namespace Commonplace
namespace Text

/-!
# Sets of code points

A property of Unicode characters is held as the ascending list of the code points at which it
changes: the first edge enters the set, the second leaves it, and so on.  A character belongs to
the set when an odd number of edges lies at or below it.
-/

/-- A set of code points, given by the points at which membership changes. -/
structure CodePoints where
  edges : Array Nat

namespace CodePoints

/-- The number of edges at or below a code point, searched between two positions of the table. -/
def edgesBelow (set : CodePoints) (codePoint : Nat) (low high : Nat) : Nat :=
  if low < high then
    let middle := (low + high) / 2
    if set.edges.getD middle 0 ≤ codePoint then set.edgesBelow codePoint (middle + 1) high
    else set.edgesBelow codePoint low middle
  else low
termination_by high - low

def contains (set : CodePoints) (character : Char) : Bool :=
  set.edgesBelow character.toNat 0 set.edges.size % 2 == 1

end CodePoints

end Text
end Commonplace
