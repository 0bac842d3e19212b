import LabelBook.Json.Basic
import LabelBook.Number.Shortest

/-!
Writing JSON on one line: a blank after every comma and colon, integers in full, floating-point
numbers by their shortest text. In a string the quote, the backslash and the controls below U+0020
are escaped; a plain text leaves everything else as it is, an ASCII text spells all that is not
printable ASCII by its UTF-16 units.
-/

namespace LabelBook

/-- The UTF-16 units of a code point. -/
def CodePoint.utf16Units (c : CodePoint) : List Nat :=
  let n := c.toNat
  if n < 0x10000 then [n] else [0xD800 + (n - 0x10000) / 0x400, 0xDC00 + (n - 0x10000) % 0x400]

namespace Json

/-- A code point inside a string. -/
def escaped (ascii : Bool) (c : CodePoint) : Text :=
  if c = .scalar '"' then "\\\""
  else if c = .scalar '\\' then "\\\\"
  else if c = .scalar '\n' then "\\n"
  else if c = .scalar '\r' then "\\r"
  else if c = .scalar '\t' then "\\t"
  else if c = .scalar '\x0c' then "\\f"
  else if c = .scalar '\x08' then "\\b"
  else if c.toNat < 0x20 ∨ (ascii ∧ 0x7F ≤ c.toNat) then
    c.utf16Units.flatMap fun u => Text.concat ["\\u", Text.hex 4 u]
  else [c]

/-- A string in its quotes. -/
def quoted (ascii : Bool) (s : Text) : Text :=
  Text.concat ["\"", s.flatMap (escaped ascii), "\""]

mutual

/-- The text of a value. -/
def print (ascii : Bool) : Json → Text
  | null => "null"
  | bool b => if b then "true" else "false"
  | int n => Text.ofInt n
  | float x => x.text "Infinity" "NaN"
  | string s => quoted ascii s
  | array vs => Text.concat ["[", Text.joinWith ", " (printItems ascii vs), "]"]
  | object es => Text.concat ["\x7b", Text.joinWith ", " (printEntries ascii es), "\x7d"]

/-- The texts of the items of an array. -/
def printItems (ascii : Bool) : List Json → List Text
  | [] => []
  | v :: vs => print ascii v :: printItems ascii vs

/-- The texts of the entries of an object. -/
def printEntries (ascii : Bool) : Entries → List Text
  | [] => []
  | (k, v) :: es => Text.concat [quoted ascii k, ": ", print ascii v] :: printEntries ascii es

end

end Json

end LabelBook
