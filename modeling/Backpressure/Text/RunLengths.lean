/-!
# Classes of characters by run lengths

`RunLengths` : a class of code points, as the lengths of the runs outside and inside it in turn; `RunLengths.contains`
says whether a code point is in the class.
-/

namespace Backpressure.Text

/-- The lengths of the runs of code points that are, in turn, outside and inside a class. -/
abbrev RunLengths := List Nat

/-- Whether a code point is inside the class. -/
def RunLengths.contains : RunLengths → Nat → Bool
  | skip :: take :: rest, c =>
    if c < skip then false
    else if c < skip + take then true
    else RunLengths.contains rest (c - (skip + take))
  | _, _ => false

end Backpressure.Text
