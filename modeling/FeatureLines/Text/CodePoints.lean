/-!
# Sets of code points

A set of code points is given by the increasing list of the points where membership changes, the first of them being the
first member. `Flips.contains` looks a code point up.
-/

namespace FeatureLines.Text

/-- The points where membership in a set of code points changes, in increasing order. -/
abbrev Flips := List Nat

/-- A code point is a member when an odd number of changes lie at or before it. -/
def Flips.contains (flips : Flips) (c : Char) : Bool := (flips.takeWhile (· ≤ c.toNat)).length % 2 == 1

end FeatureLines.Text
