/-!
# Sets of characters given by ranges

A property of characters from a standard is a list of ranges of code points, in ascending order.
-/

namespace Lox.Text

/-- Ranges of code points, both ends included. -/
abbrev Ranges := List (Nat × Nat)

/-- A character lies in a set when one of the ranges holds its code point. -/
def Ranges.contains (ranges : Ranges) (c : Char) : Bool :=
  ranges.any fun (first, last) => first ≤ c.toNat && c.toNat ≤ last

end Lox.Text
