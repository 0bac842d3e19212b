import LabelBook.Text.Printable

/-!
The quoted form of a text, used wherever a message shows one. The quote is an apostrophe, unless the
text holds apostrophes and no double quote. A backslash and the quote are escaped; tab, line feed and
carriage return have escapes of their own; every other code point that is not printable is spelt by
its number, in two, four or eight hexadecimal digits.

    it's  ↦  "it's"        a"b  ↦  'a"b'        U+00AD  ↦  '\xad'        lone U+D800  ↦  '\ud800'
-/

namespace LabelBook

/-- A code point inside quotes. -/
def CodePoint.escaped (quote : CodePoint) (c : CodePoint) : Text :=
  if c = quote ∨ c = .scalar '\\' then [.scalar '\\', c]
  else if c = .scalar '\t' then "\\t"
  else if c = .scalar '\n' then "\\n"
  else if c = .scalar '\r' then "\\r"
  else if c.isPrintable then [c]
  else
    let n := c.toNat
    if n < 0x100 then Text.concat ["\\x", Text.hex 2 n]
    else if n < 0x10000 then Text.concat ["\\u", Text.hex 4 n]
    else Text.concat ["\\U", Text.hex 8 n]

/-- The quote that encloses a text. -/
def Text.quoteMark (t : Text) : CodePoint :=
  if t.contains (.scalar '\'') && !t.contains (.scalar '"') then .scalar '"' else .scalar '\''

/-- The quoted form of a text. -/
def Text.quoted (t : Text) : Text :=
  let q := t.quoteMark
  Text.concat [[q], t.flatMap (CodePoint.escaped q), [q]]

end LabelBook
