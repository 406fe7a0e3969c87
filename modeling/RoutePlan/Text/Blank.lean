/-!
# White space

The characters with the property White_Space of Unicode, which are more than the blanks of ASCII.
-/

namespace RoutePlan

/-- White space of Unicode. -/
def isWhite (c : Char) : Bool :=
  let n := c.toNat
  (9 ≤ n && n ≤ 13) || n == 0x20 || n == 0x85 || n == 0xA0 || n == 0x1680 ||
    (0x2000 ≤ n && n ≤ 0x200A) || n == 0x2028 || n == 0x2029 || n == 0x202F || n == 0x205F ||
    n == 0x3000

/-- A text without the white space at its front. -/
def skipWhite (text : List Char) : List Char := text.dropWhile isWhite

end RoutePlan
