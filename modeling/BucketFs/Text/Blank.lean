/-!
# Blank characters

The characters with the Unicode property White_Space.
-/

namespace BucketFs.Text

/-- Whether a character is white space. -/
def isBlank (c : Char) : Bool :=
  let n := c.toNat
  (9 ≤ n && n ≤ 13) || n == 0x20 || n == 0x85 || n == 0xa0 || n == 0x1680
    || (0x2000 ≤ n && n ≤ 0x200a) || n == 0x2028 || n == 0x2029 || n == 0x202f || n == 0x205f
    || n == 0x3000

/-- The text without its leading white space. -/
def skipBlank (cs : List Char) : List Char := cs.dropWhile isBlank

/-- Whether a text is nothing but white space. -/
def isBlankText (s : String) : Bool := s.toList.all isBlank

/-- The text without the white space at both ends. -/
def trimBlank (s : String) : String :=
  String.ofList (skipBlank (skipBlank s.toList).reverse).reverse

end BucketFs.Text
