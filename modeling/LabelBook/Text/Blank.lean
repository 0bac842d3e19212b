import LabelBook.Text.Basic

/-!
Blank code points: the white space of Unicode together with the information separators
U+001C to U+001F. Trimming takes them off both ends of a text.
-/

namespace LabelBook

/-- White space, the information separators included. -/
def CodePoint.isBlank (c : CodePoint) : Bool :=
  let n := c.toNat
  (0x9 ≤ n && n ≤ 0xD) || (0x1C ≤ n && n ≤ 0x20) || n == 0x85 || n == 0xA0 || n == 0x1680 ||
    (0x2000 ≤ n && n ≤ 0x200A) || n == 0x2028 || n == 0x2029 || n == 0x202F || n == 0x205F ||
    n == 0x3000

namespace Text

/-- A text without a code point that is not blank. -/
def isBlank (t : Text) : Bool := t.all CodePoint.isBlank

/-- A text without the blank code points at its ends. -/
def trim (t : Text) : Text :=
  ((t.dropWhile CodePoint.isBlank).reverse.dropWhile CodePoint.isBlank).reverse

end Text

end LabelBook
