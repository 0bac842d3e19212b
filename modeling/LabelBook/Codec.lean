import LabelBook.Collection
import LabelBook.Failure
import LabelBook.Record.Reader
import LabelBook.Text.Blank
import LabelBook.Text.Lines

/-!
Reading label files. A text is read line by line, blank lines are skipped, and the first line that is
no record ends the reading with its number. Text from a file has each carriage return, alone or with
a line feed after it, taken for a line feed before that.
-/

namespace LabelBook

namespace Failure

/-- The failure to read a line: most are told with the line's number. -/
def ofLine (number : Int) : Failure → Failure
  | json e =>
    match e with
    | .malformed .. => .line number (.json e)
    | _ => .json e
  | noObject => .line number .noObject
  | rejected r => .line number (.rejected r)
  | f => f

end Failure

namespace Kind

/-- The kind that a value names. -/
def ofJson (v : Json) : Except Failure Kind :=
  let named := match v with
    | .string s => ofName? s
    | _ => none
  match named with
  | some k => .ok k
  | none => .error (.unknownKind v.shown)

end Kind

namespace Record

/-- The record of a line, given what stands in it. -/
def ofJson : Json → Except Failure Record
  | .object entries => (ofMapping entries).mapError .rejected
  | _ => .error .noObject

/-- The record that the named values of a value describe. -/
def ofValue (v : Json) : Except Failure Record :=
  ((Parted.pairs v).mapError Failure.noEntries).bind fun ps => (ofPairs ps).mapError .rejected

/-- The record of a line. -/
def ofLine (number : Int) (text : Text) : Except Failure Record :=
  (((Json.parse text).mapError Failure.json).bind ofJson).mapError (Failure.ofLine number)

end Record

namespace Collection

/-- The records of lines of which the first has a given number. -/
def recordsFrom (number : Nat) : List Text → Except Failure (List Record)
  | [] => .ok []
  | t :: ts =>
    if t.isBlank then recordsFrom (number + 1) ts
    else match Record.ofLine number t with
      | .error e => .error e
      | .ok r => (recordsFrom (number + 1) ts).map (r :: ·)

/-- The collection that a text holds. -/
def ofText (t : Text) : Except Failure Collection := (recordsFrom 1 t.lines).map Collection.mk

end Collection

/-- A text with a line feed for every carriage return, and for every carriage return with a line feed
after it. -/
def Text.unifyLineEnds : Text → Text
  | [] => []
  | .scalar '\r' :: .scalar '\n' :: t => .scalar '\n' :: unifyLineEnds t
  | .scalar '\r' :: t => .scalar '\n' :: unifyLineEnds t
  | c :: t => c :: unifyLineEnds t

namespace Collection

/-- The collection that the content of a file holds; `path` names the file in failures. -/
def ofOctets (path : Text) (octets : Octets) : Except Failure Collection :=
  match Utf8.decode octets with
  | .error e => .error (.file (.malformed none) path (some (.undecodable e)))
  | .ok t =>
    match ofText t.unifyLineEnds with
    | .error (.line n cause) => .error (.file (.malformed (some n)) path (some cause))
    | .error e => .error e
    | .ok c => .ok c

end Collection

end LabelBook
