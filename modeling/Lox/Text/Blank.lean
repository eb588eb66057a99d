import Lox.Text.Ranges

/-!
# White space

The twenty-five code points with the Unicode property `White_Space`, and texts without them at the
end.
-/

namespace Lox.Text

/-- The code points that are white space. -/
def blankRanges : Ranges :=
  [(0x9, 0xd), (0x20, 0x20), (0x85, 0x85), (0xa0, 0xa0), (0x1680, 0x1680), (0x2000, 0x200a),
    (0x2028, 0x2029), (0x202f, 0x202f), (0x205f, 0x205f), (0x3000, 0x3000)]

/-- White space in the sense of Unicode, a superset of the ASCII blanks. -/
def isBlank (c : Char) : Bool :=
  blankRanges.contains c

/-- Characters without the white space at their end. -/
def dropBlankEnd (cs : List Char) : List Char :=
  (cs.reverse.dropWhile isBlank).reverse

/-- A text without the white space at its end. -/
def trimEnd (s : String) : String :=
  String.ofList (dropBlankEnd s.toList)

end Lox.Text
