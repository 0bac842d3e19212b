import LabelBook.Key

/-!
Rejections: what is wrong with a document that was to be read as a record or as settings. A
rejection names the model the document was held against and lists the issues, each with the keys
that lead to its place.

    1 validation error for Label
    tx.ref
      Field required [type=missing]
-/

namespace LabelBook

/-- What is wrong with a value. -/
inductive Violation where
  | missing
  | noText
  | illFormedText
  | noneOf (choices : List Text)
  | noBoolean
  | unclearBoolean
  | refused (reason : Text)
  | noTag (key : Text)
  | unknownTag (key tag : Text) (choices : List Text)
  | frozen
  | noInstance (model : Text)
  | noAttribute (name : Text)
  | strangeKey
  deriving DecidableEq

namespace Violation

/-- The short name of a violation. -/
def code : Violation → Text
  | missing => "missing"
  | noText => "string_type"
  | illFormedText => "string_unicode"
  | noneOf _ => "literal_error"
  | noBoolean => "bool_type"
  | unclearBoolean => "bool_parsing"
  | refused _ => "value_error"
  | noTag _ => "union_tag_not_found"
  | unknownTag .. => "union_tag_invalid"
  | frozen => "frozen_instance"
  | noInstance _ => "model_type"
  | noAttribute _ => "no_such_attribute"
  | strangeKey => "invalid_key"

/-- Choices in quotes, with commas between them and a word before the last. -/
def listed : List Text → Text
  | [] => []
  | [c] => c.quoted
  | [c, d] => Text.concat [c.quoted, " or ", d.quoted]
  | c :: cs => Text.concat [c.quoted, ", ", listed cs]

/-- The words for a violation. -/
def message : Violation → Text
  | missing => "Field required"
  | noText => "Input should be a valid string"
  | illFormedText =>
    "Input should be a valid string, unable to parse raw data as a unicode string"
  | noneOf choices => Text.concat ["Input should be ", listed choices]
  | noBoolean => "Input should be a valid boolean"
  | unclearBoolean => "Input should be a valid boolean, unable to interpret input"
  | refused reason => Text.concat ["Value error, ", reason]
  | noTag key => Text.concat ["Unable to extract tag using discriminator ", key.quoted]
  | unknownTag key tag choices =>
    Text.concat ["Input tag '", tag, "' found using ", key.quoted,
      " does not match any of the expected tags: ", Text.joinWith ", " (choices.map Text.quoted)]
  | frozen => "Instance is frozen"
  | noInstance model =>
    Text.concat ["Input should be a valid dictionary or instance of ", model]
  | noAttribute name => Text.concat ["Object has no attribute ", name.quoted]
  | strangeKey => "Keys should be strings"

end Violation

/-- A step on the way to a place in a document. -/
inductive Step where
  | name (t : Text)
  | number (n : Int)
  deriving DecidableEq

namespace Step

instance : Coe Text Step := ⟨name⟩

/-- The step of a key: integers and truth values lead on as numbers if they fit into 64 bits, all else
goes by its text. -/
def ofKey : Key → Step
  | .text t => name t
  | .null => name "None"
  | .bool b => number (if b then 1 else 0)
  | .int n => if isWord n then number n else name (Text.ofInt n)
  | .float x => name (x.text "inf" "nan")
  | .path p => name p.text

/-- The text of a step; a name with a point in it stands between backquotes. -/
def text : Step → Text
  | name t => if t.contains (.scalar '.') then Text.concat ["\x60", t, "\x60"] else t
  | number n => Text.ofInt n

end Step

/-- A violation at the end of a way. -/
structure Issue where
  location : List Step
  violation : Violation
  deriving DecidableEq

namespace Issue

/-- An issue seen from further out. -/
def under (outer : List Step) (i : Issue) : Issue := { i with location := outer ++ i.location }

/-- The lines of an issue: its place, unless it concerns the whole document, and what is wrong. -/
def lines (i : Issue) : List Text :=
  (if i.location.isEmpty then [] else [Text.joinWith "." (i.location.map Step.text)]) ++
    [Text.concat ["  ", i.violation.message, " [type=", i.violation.code, "]"]]

end Issue

/-- A document that does not fit a model. -/
structure Rejection where
  model : Text
  issues : List Issue
  deriving DecidableEq

/-- The text of a rejection: a line that counts the issues, then the lines of each. -/
def Rejection.message (r : Rejection) : Text :=
  let n := r.issues.length
  Text.joinWith "\n" <|
    Text.concat [Text.ofNat n, " validation error", if n = 1 then "" else "s", " for ", r.model] ::
      r.issues.flatMap Issue.lines

end LabelBook
