import LabelBook.Json.Parser
import LabelBook.Text.Quoted

/-!
What can be wrong with a TOML document. The functions of the reader take the text from some place on
and say how much was left where a fault lies; with the whole text that becomes a line and a column.
-/

namespace LabelBook.Toml

/-- What the reader misses or meets. -/
inductive Complaint where
  | statement
  | statementEnd
  | keyStart
  | equals
  | value
  | moment
  | tableEnd
  | listEnd
  | array
  | inlineTable
  | duplicate (key : Text)
  | overwritten
  | declaredTwice (key : List Text)
  | immutable (key : List Text)
  | redefined (key : List Text)
  | expected (words : Text)
  | invalidCharacter (c : CodePoint)
  | illegalCharacter (c : CodePoint)
  | unterminated
  | backslash
  | hexadecimal
  | noScalar
  deriving DecidableEq

/-- The parts of a key in quotes, between parentheses. -/
def keyText (key : List Text) : Text :=
  match key with
  | [k] => Text.concat ["(", k.quoted, ",)"]
  | _ => Text.concat ["(", Text.joinWith ", " (key.map Text.quoted), ")"]

/-- The words for a complaint. -/
def Complaint.message : Complaint → Text
  | statement => "Invalid statement"
  | statementEnd => "Expected newline or end of document after a statement"
  | keyStart => "Invalid initial character for a key part"
  | equals => "Expected '=' after a key in a key/value pair"
  | value => "Invalid value"
  | moment => "Invalid date or datetime"
  | tableEnd => "Expected ']' at the end of a table declaration"
  | listEnd => "Expected ']]' at the end of an array declaration"
  | array => "Unclosed array"
  | inlineTable => "Unclosed inline table"
  | duplicate key => Text.concat ["Duplicate inline table key ", key.quoted]
  | overwritten => "Cannot overwrite a value"
  | declaredTwice key => Text.concat ["Cannot declare ", keyText key, " twice"]
  | immutable key => Text.concat ["Cannot mutate immutable namespace ", keyText key]
  | redefined key => Text.concat ["Cannot redefine namespace ", keyText key]
  | expected words => Text.concat ["Expected ", words.quoted]
  | invalidCharacter c => Text.concat ["Found invalid character ", Text.quoted [c]]
  | illegalCharacter c => Text.concat ["Illegal character ", Text.quoted [c]]
  | unterminated => "Unterminated string"
  | backslash => "Unescaped '\\' in a string"
  | hexadecimal => "Invalid hex value"
  | noScalar => "Escaped character is not a Unicode scalar value"

/-- A fault: a complaint with the number of code points left at its place, an integer with too many
digits, or too deep a nesting. -/
inductive Fault where
  | complaint (what : Complaint) (left : Nat)
  | tooManyDigits (count : Nat)
  | tooDeep
  deriving DecidableEq

/-- A place in a document: a line and a column, both counted from 1, or its end. -/
inductive Place where
  | at (line column : Nat)
  | documentEnd
  deriving DecidableEq

/-- Why a document cannot be read. -/
inductive ParseError where
  | malformed (what : Complaint) (place : Place)
  | tooManyDigits (count : Nat)
  | tooDeep
  deriving DecidableEq

/-- The place at which a given number of code points is left of a text. -/
def placeOf (s : Text) (left : Nat) : Place :=
  if left = 0 then .documentEnd
  else
    let before := s.take (s.length - left)
    .at (before.count (.scalar '\n') + 1)
      ((before.reverse.takeWhile (· != .scalar '\n')).length + 1)

/-- A fault with its place in the whole text. -/
def Fault.locate (s : Text) : Fault → ParseError
  | complaint what left => .malformed what (placeOf s left)
  | tooManyDigits count => .tooManyDigits count
  | tooDeep => .tooDeep

/-- The words for a place. -/
def Place.text : Place → Text
  | .at line column => Text.concat ["line ", Text.ofNat line, ", column ", Text.ofNat column]
  | documentEnd => "end of document"

/-- The text of an error. -/
def ParseError.message : ParseError → Text
  | malformed what place => Text.concat [what.message, " (at ", place.text, ")"]
  | tooManyDigits count => Json.tooManyDigitsMessage count
  | tooDeep => "maximum recursion depth exceeded"

end LabelBook.Toml
