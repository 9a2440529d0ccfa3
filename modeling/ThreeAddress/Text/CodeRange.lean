/-!
# Ranges of code points

A property of characters is given by the ascending list of the code point ranges that have it.
`CodeRange.covers` looks a code point up in such a list and stops at the first range that
starts above it, so the list has to be ascending for the answer to mean membership.
-/

namespace ThreeAddress.Text

/-- The code points from `first` to `last`, both included. -/
structure CodeRange where
  first : Nat
  last : Nat
deriving Repr, DecidableEq

namespace CodeRange

/-- Whether a code point lies in one of the ranges of an ascending list. -/
def covers : List CodeRange → Nat → Bool
  | [], _ => false
  | r :: rest, n =>
    if n < r.first then false
    else if n ≤ r.last then true
    else covers rest n

end CodeRange

end ThreeAddress.Text
