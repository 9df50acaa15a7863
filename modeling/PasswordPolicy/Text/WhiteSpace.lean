import PasswordPolicy.Text.CodeRange

/-!
# White space around words

**The set.** The property `White_Space`: wider than the spacing of the rule language, since words
come from anywhere.
-/

namespace PasswordPolicy.Text

/-- The code points with the property `White_Space`. -/
def whiteSpaceRanges : List CodeRange :=
  [(0x9, 0xd), (0x20, 0x20), (0x85, 0x85), (0xa0, 0xa0), (0x1680, 0x1680), (0x2000, 0x200a),
   (0x2028, 0x2029), (0x202f, 0x202f), (0x205f, 0x205f), (0x3000, 0x3000)]

def isWhiteSpace (c : Char) : Bool :=
  inRanges whiteSpaceRanges c

/-- The text without the white space at both ends. -/
def trim (text : List Char) : List Char :=
  ((text.dropWhile isWhiteSpace).reverse.dropWhile isWhiteSpace).reverse

end PasswordPolicy.Text
