import LabelBook.Text.Basic

/-!
Lines. A line ends at a line feed, a carriage return (with a line feed after it, if there is one), a
vertical tab, a form feed, one of the separators U+001C to U+001E, U+0085, U+2028 or U+2029, or at
the end of the text. What ends a line is no part of it, and after the last ending there is no
further, empty line.

    "a\nb"   ↦  "a", "b"        "a\n\n"  ↦  "a", ""        "a\r\nb"  ↦  "a", "b"
-/

namespace LabelBook

/-- A code point that ends a line. -/
def CodePoint.endsLine (c : CodePoint) : Bool :=
  let n := c.toNat
  (0xA ≤ n && n ≤ 0xD) || (0x1C ≤ n && n ≤ 0x1E) || n == 0x85 || n == 0x2028 || n == 0x2029

namespace Text

/-- The lines of a text that starts inside a line; `line` holds what that line has so far, last code
point first, and `afterReturn` says that a carriage return has just ended a line. -/
def linesFrom (line : Text) (afterReturn : Bool) : Text → List Text
  | [] => if line.isEmpty then [] else [line.reverse]
  | c :: rest =>
    if afterReturn && c == .scalar '\n' then linesFrom [] false rest
    else if c.endsLine then line.reverse :: linesFrom [] (c == .scalar '\r') rest
    else linesFrom (c :: line) false rest

/-- The lines of a text. -/
def lines (t : Text) : List Text := linesFrom [] false t

end Text

end LabelBook
