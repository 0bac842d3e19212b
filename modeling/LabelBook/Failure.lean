import LabelBook.Files.Path
import LabelBook.Files.Refusal
import LabelBook.Json.Parser
import LabelBook.Log.Template
import LabelBook.Pairs
import LabelBook.Record.Line
import LabelBook.Toml.Error
import LabelBook.Validation

/-!
Failures: everything that can end an operation, each with its text. Failures of the files of a label
store say what was being done, name the path, and carry the failure behind them; so does a failure
to read a line.
-/

namespace LabelBook

/-- What was being done to a label file when it failed. -/
inductive Trouble where
  | general (message : Text)
  | decoding
  | missing
  | malformed (line : Option Int)
  | unreadable
  | writing
  | loading
  | saving (message : Text)
  deriving DecidableEq

/-- What can end an operation. -/
inductive Failure where
  | json (e : Json.ParseError)
  | toml (e : Toml.ParseError)
  | rejected (r : Rejection)
  | settings (r : Rejection)
  | noObject
  | noEntries (e : PairsError)
  | template (e : TemplateError)
  | unknownKind (shown : Text)
  | reference (d : RefDefect)
  | undecodable (e : Utf8.DecodeError)
  | unencodable (e : Utf8.EncodeError)
  | unwritable (e : WriteError)
  | refused (r : Refusal)
  | homeless
  | originElsewhere
  | unspendableElsewhere
  | unshowable (why : Datum.Unshown)
  | lacking (sort name : Text)
  | readOnly (sort name : Text)
  | noPath (sort : Text)
  | outside (sort message : Text)
  | line (number : Int) (cause : Failure)
  | file (what : Trouble) (path : Text) (cause : Option Failure)

namespace Failure

/-- The text behind a colon that tells the cause. -/
def afterColon : Option Text → Text
  | some t => Text.concat [": ", t]
  | none => []

/-- The text of a failure that concerns a label file, given the text of its cause. -/
def fileMessage (what : Trouble) (path : Text) (cause : Option Text) : Text :=
  match what with
  | .general message | .saving message => message
  | .decoding => Text.concat ["cannot decode label file ", path, afterColon cause]
  | .missing => Text.concat ["missing label file ", path, afterColon cause]
  | .malformed number =>
    Text.concat ["malformed label file ", path, afterColon cause,
      match number with | some n => Text.concat [" (line ", Text.ofInt n, ")"] | none => []]
  | .unreadable => Text.concat ["cannot read label file ", path, afterColon cause]
  | .writing => Text.concat ["cannot write label file ", path, afterColon cause]
  | .loading =>
    Text.concat ["Failed to load labels from ", path, ": ", cause.getD "None"]

/-- The text of a failure. -/
def message : Failure → Text
  | json e => e.message
  | toml e => e.message
  | rejected r => r.message
  | settings r => r.message
  | noObject => "label record must be a JSON object"
  | noEntries e => e.message
  | template e => e.message
  | unknownKind shown => Text.concat [shown, " is not a valid LabelType"]
  | reference d => d.message
  | undecodable e => e.message
  | unencodable e => e.message
  | unwritable e => e.message
  | refused r => r.message
  | homeless => "Could not determine home directory."
  | originElsewhere => "--origin only applies to tx labels"
  | unspendableElsewhere => "--unspendable only applies to output labels"
  | unshowable why => why.message
  | lacking sort name => Text.concat [sort.quoted, " object has no attribute ", name.quoted]
  | readOnly sort name =>
    Text.concat ["property ", name.quoted, " of ", sort.quoted, " object has no setter"]
  | noPath sort => Text.concat ["expected str, bytes or os.PathLike object, not ", sort]
  | outside _ message => message
  | line number cause => Text.concat ["line ", Text.ofInt number, ": ", cause.message]
  | file what path none => fileMessage what path none
  | file what path (some cause) => fileMessage what path (some cause.message)

/-- The path that a failure concerning a label file names. -/
def path? : Failure → Option Path
  | file _ path _ => some (.ofText path)
  | _ => none

/-- The failure behind a failure. -/
def cause? : Failure → Option Failure
  | line _ cause => some cause
  | file _ _ cause => cause
  | settings r => some (rejected r)
  | _ => none

/-- The line that a failure names. -/
def line? : Failure → Option Int
  | line n _ => some n
  | file (.malformed n) _ _ => n
  | _ => none

/-- Whether a failure is the system's refusal of an operation on files. -/
def isSystem : Failure → Bool
  | refused (.system ..) => true
  | _ => false

/-- Whether a failure says that a value is not acceptable, as opposed to a refusal by the system, a
failure of a label file, or a limit that was hit. -/
def isValue : Failure → Bool
  | json (.tooDeep _) => false
  | toml .tooDeep => false
  | unshowable .tooDeep => false
  | refused (.system ..) => false
  | noEntries (.badLength ..) => true
  | noEntries _ => false
  | template _ => false
  | homeless => false
  | lacking .. => false
  | readOnly .. => false
  | noPath _ => false
  | outside .. => false
  | file .. => false
  | _ => true

/-- Whether a failure concerns a label file. -/
def isFile : Failure → Bool
  | file .. => true
  | _ => false

end Failure

end LabelBook
