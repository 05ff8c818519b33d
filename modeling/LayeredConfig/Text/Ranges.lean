/-!
# Sets of code points

A set is the ascending list of the points where membership changes, beginning with a member. A code
point belongs to it iff an odd number of these points are not above it.
-/

namespace LayeredConfig.Text

/-- Membership in a set given by its points of change. -/
def inRanges : List Nat → Nat → Bool
  | [], _ => false
  | bound :: rest, n => if n < bound then false else !inRanges rest n

end LayeredConfig.Text
