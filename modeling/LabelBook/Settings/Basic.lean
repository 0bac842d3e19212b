import LabelBook.Datum
import LabelBook.Failure
import LabelBook.Files.Path
import LabelBook.Log.Level
import LabelBook.Record.Reader
import LabelBook.Text.Blank

/-!
Settings: where the labels are kept, how much is told on the console, and where the log files are
written. A level can be given by its name in letters of any case or by its number.
-/

namespace LabelBook

/-- How much is told. -/
inductive Verbosity where
  | debug
  | info
  | warning
  | error
  deriving DecidableEq, Inhabited

namespace Verbosity

/-- All choices, in the order in which messages list them. -/
def all : List Verbosity := [debug, info, warning, error]

/-- The level of a choice. -/
def level : Verbosity → Level
  | debug => .debug
  | info => .info
  | warning => .warning
  | error => .error

/-- The name of a choice. -/
def name (v : Verbosity) : Text := v.level.name

end Verbosity

/-- The part of the settings that says where the labels are kept. -/
structure StoreSettings where
  dataDirectory : Path

/-- The part of the settings that concerns the log. -/
structure LogSettings where
  verbosity : Verbosity
  directory : Option Path

/-- Settings. -/
structure Settings where
  store : StoreSettings
  log : LogSettings

namespace Settings

/-- Code points other than ASCII letters whose upper-case form is ASCII. -/
def upperForms : List (Char × String) :=
  [('ß', "SS"), ('ı', "I"), ('ſ', "S"), ('ﬀ', "FF"), ('ﬁ', "FI"), ('ﬂ', "FL"), ('ﬃ', "FFI"),
    ('ﬄ', "FFL"), ('ﬅ', "ST"), ('ﬆ', "ST")]

/-- A text with every letter that has one replaced by its upper-case form in ASCII. -/
def upperToAscii (t : Text) : Text :=
  t.flatMap fun
    | .scalar c =>
      match upperForms.lookup c with
      | some s => Text.ofString s
      | none => [.scalar c.toUpper]
    | c => [c]

/-- What came of reading a value: a failure that concerns the value is a violation, and any other stays
one. -/
def judged : Except Failure α → Except Failure (Except Violation α)
  | .ok a => .ok (.ok a)
  | .error f => if f.isValue then .ok (.error (.refused f.message)) else .error f

/-- The text of a value that is to be read. -/
def shown (d : Datum) : Except Failure Text := d.text.mapError .unshowable

/-- The word for a level that a value gives. -/
def levelWord : Datum → Except Failure Text
  | .null => .ok Verbosity.info.name
  | .bool b => .ok (Level.name (if b then 1 else 0))
  | .int n => (shown (.int n)).map fun _ => Level.name n
  | d => (shown d).map fun t => upperToAscii t.trim

/-- The verbosity of a given name. -/
def verbosityNamed (t : Text) : Except Violation Verbosity :=
  if !t.isWellFormed then .error .illFormedText
  else match Verbosity.all.find? fun v => v.name = t with
    | some v => .ok v
    | none => .error (.noneOf (Verbosity.all.map Verbosity.name))

/-- The verbosity that a value gives. -/
def readVerbosity (d : Datum) : Except Failure (Except Violation Verbosity) :=
  (judged (levelWord d)).map (·.bind verbosityNamed)

/-- The directory of the log files that a text names; none if it is blank. -/
def logDirectoryNamed (t : Text) : Option Path :=
  let t := t.trim
  if t.isEmpty then none else some (.ofText t)

/-- The directory of the log files that a value gives; none for null. -/
def readLogDirectory : Datum → Except Failure (Except Violation (Option Path))
  | .null => .ok (.ok none)
  | d => judged ((shown d).map logDirectoryNamed)

/-- The names of the models that settings are held against. -/
def modelName : Text := "AppSettings"

/-- The name of the model for the place of the labels. -/
def storeModelName : Text := "StoreSettings"

/-- The name of the model for the log. -/
def logModelName : Text := "LoggingSettings"

/-- A field that may be left out. -/
def readField (name : Text) (absent : α) (read : Datum → Except Failure (Except Violation α))
    (fields : List (Text × Datum)) : Except Failure (Except Issue α) :=
  match Datum.get? name fields with
  | none => .ok (.ok absent)
  | some d => (read d).map (·.mapError fun e => ⟨[name], e⟩)

/-- The settings for the log, if both fields are right, or everything that is wrong with them. -/
def logOf (verbosity : Except Issue Verbosity) (directory : Except Issue (Option Path)) :
    Except (List Issue) LogSettings :=
  match verbosity, directory with
  | .ok v, .ok d => .ok ⟨v, d⟩
  | _, _ => .error (Record.issueOf verbosity ++ Record.issueOf directory)

/-- The settings for the log that a value gives. -/
def readLog : Datum → Except Failure (Except (List Issue) LogSettings)
  | .table fields => do
    let verbosity ← readField "level" .info readVerbosity fields
    let directory ← readField "log_dir" none readLogDirectory fields
    return logOf verbosity directory
  | _ => return .error [⟨[], .noInstance logModelName⟩]

/-- The settings for the log when nothing is said. -/
def defaultLog : LogSettings := ⟨.info, none⟩

end Settings

end LabelBook
