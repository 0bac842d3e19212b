import LabelBook.Files.Home
import LabelBook.Settings.Basic
import LabelBook.Text.WideUnits
import LabelBook.Toml.Document

/-!
Reading settings. The directory of the labels comes from the settings, else from the environment, else
it lies in the home directory. A file of settings is TOML if its name ends so, and JSON otherwise.
-/

namespace LabelBook.Settings

/-- The environment variable that names the directory of the labels. -/
def directoryVariable : Text := "WALLETLABELS_DATA_DIR"

/-- The directory of the labels when nothing is said. -/
def defaultDirectory : Program Path := do
  match ← Program.environment? directoryVariable with
  | some (c :: t) => Program.expandHome (.ofText (c :: t))
  | _ => Program.belowHome [".walletlabels"]

/-- The directory that a text names; a blank one leaves it to the default. -/
def directoryNamed (t : Text) : Program Path :=
  let t := t.trim
  if t.isEmpty then defaultDirectory else Program.expandHome (.ofText t)

/-- A program's failure that concerns a value, as a violation. -/
def violationOf (q : Program α) : Program (Except Violation α) := do
  Program.ofExcept (judged (← q.outcome))

/-- The directory of the labels that a value asks for. -/
def directoryOf : Datum → Program Path
  | .null => defaultDirectory
  | d => do directoryNamed (← Program.ofExcept (shown d))

/-- The directory of the labels that a value gives. -/
def readDirectory (d : Datum) : Program (Except Violation Path) := violationOf (directoryOf d)

/-- The settings for the place of the labels when nothing is said. -/
def defaultStore : Program StoreSettings := do return ⟨← defaultDirectory⟩

/-- The settings for the place of the labels that a value gives. -/
def readStore : Datum → Program (Except (List Issue) StoreSettings)
  | .table fields => do
    match Datum.get? "data_dir" fields with
    | none => return .ok (← defaultStore)
    | some d =>
      match ← readDirectory d with
      | .ok p => return .ok ⟨p⟩
      | .error e => return .error [⟨["data_dir"], e⟩]
  | _ => return .error [⟨[], .noInstance storeModelName⟩]

/-- Issues seen from outside of the part they are in. -/
def issuesUnder (name : Text) : Except (List Issue) α → List Issue
  | .ok _ => []
  | .error issues => issues.map (·.under [name])

/-- The settings for the place of the labels that the entries of a document give. -/
def storeIn (fields : List (Text × Datum)) : Program (Except (List Issue) StoreSettings) :=
  match Datum.get? "store" fields with
  | none => do return .ok (← defaultStore)
  | some d => readStore d

/-- The settings for the log that the entries of a document give. -/
def logIn (fields : List (Text × Datum)) : Except Failure (Except (List Issue) LogSettings) :=
  match Datum.get? "logging" fields with
  | none => .ok (.ok defaultLog)
  | some d => readLog d

/-- The settings of two parts, or everything that is wrong with them. -/
def ofParts (store : Except (List Issue) StoreSettings) (log : Except (List Issue) LogSettings) :
    Except Rejection Settings :=
  match store, log with
  | .ok s, .ok l => .ok ⟨s, l⟩
  | s, l => .error ⟨modelName, issuesUnder "store" s ++ issuesUnder "logging" l⟩

/-- The settings that a value gives. -/
def ofDatum : Datum → Program (Except Rejection Settings)
  | .table fields => do
    let store ← storeIn fields
    let log ← Program.ofExcept (logIn fields)
    return ofParts store log
  | _ => return .error ⟨modelName, [⟨[], .noInstance modelName⟩]⟩

/-- The settings when nothing is said. -/
def default : Program Settings := do return ⟨← defaultStore, defaultLog⟩

/-! ### Files -/

/-- The end of the name of a TOML file, in lower case. -/
def tomlSuffix : Text := ".toml"

/-- Whether a path names a TOML file. -/
def isToml (p : Path) : Bool := p.suffix.lower == tomlSuffix

/-- The value in a TOML file. -/
def readToml (content : Octets) : Except Failure Datum :=
  match Utf8.decode content with
  | .error e => .error (.undecodable e)
  | .ok t => (Toml.parse t).mapError .toml

/-- The value in a JSON file. -/
def readJson (content : Octets) : Except Failure Datum :=
  match Encoding.decodeDocument content with
  | .error e => .error (.undecodable e)
  | .ok t => ((Json.parseDecoded t).mapError Failure.json).map .ofJson

/-- The settings in a file. -/
def load (p : Path) : Program Settings := do
  let content ← Program.read p
  let d ← Program.ofExcept (if isToml p then readToml content else readJson content)
  match ← ofDatum d with
  | .ok s => return s
  | .error r => .fail (.settings r)

/-! ### Changing a setting -/

/-- The failure of giving a value to a field of a model. -/
def refuse (model : Text) (issues : List Issue) : Program α := .fail (.rejected ⟨model, issues⟩)

/-- A value that was read for a field of a model, or the failure to read it. -/
def accept (model name : Text) (r : Except Violation α) : Program α :=
  match r with
  | .ok a => .done a
  | .error e => refuse model [⟨[name], e⟩]

/-- The names in a model that are worked out and cannot be given a value. -/
def workedOut (model : Text) : List Text :=
  if model = logModelName then ["model_extra", "model_fields_set", "numeric_level"]
  else ["model_extra", "model_fields_set"]

/-- What comes of giving a value to a name that is no field of a model: it is an error, unless the name
is a private one, which starts with an underscore and does not show. -/
def assignOther (model name : Text) (unchanged : α) : Program α :=
  if (workedOut model).contains name then .fail (.readOnly model name)
  else if name.startsWith "_" then .done unchanged
  else refuse model [⟨[name], .noAttribute name⟩]

/-- The settings for the place of the labels with another value in a field. -/
def assignStore (s : StoreSettings) (field : Text) (d : Datum) : Program StoreSettings :=
  if field = "data_dir" then do
    return ⟨← accept storeModelName field (← readDirectory d)⟩
  else assignOther storeModelName field s

/-- The settings for the log with another value in a field. -/
def assignLog (s : LogSettings) (field : Text) (d : Datum) : Program LogSettings :=
  if field = "level" then do
    return { s with verbosity := ← accept logModelName field (← Program.ofExcept (readVerbosity d)) }
  else if field = "log_dir" then do
    return { s with directory := ← accept logModelName field (← Program.ofExcept (readLogDirectory d)) }
  else assignOther logModelName field s

/-- A part of the settings that was read, or the failure to read it. -/
def acceptPart (part : Text) (r : Except (List Issue) α) : Program α :=
  match r with
  | .ok a => .done a
  | .error issues => refuse modelName (issues.map (·.under [part]))

/-- The sort of the value that a name in a model leads to, unless that is a model too. -/
def sortOf? (s : Settings) (model name : Text) : Option Text :=
  let directory : Text := if s.log.directory.isSome then Detail.pathSort else "NoneType"
  let common : List (Text × Text) := [("model_extra", "NoneType"), ("model_fields_set", "set")]
  let own : List (Text × Text) :=
    if model = storeModelName then [("data_dir", Detail.pathSort)]
    else if model = logModelName then
      [("level", "str"), ("log_dir", directory), ("numeric_level", "int")]
    else []
  (own ++ common).lookup name

/-- The names in a path that are worked out and cannot be given a value. -/
def workedOutOfPath : List Text :=
  ["anchor", "drive", "name", "parent", "parents", "parts", "root", "stem", "suffix", "suffixes"]

/-- The failure of a way that goes on behind a name in a model, with `next` after it. -/
def beyond (s : Settings) (model name next : Text) : Failure :=
  match s.sortOf? model name with
  | none => .lacking model name
  | some sort =>
    if sort = Detail.pathSort && workedOutOfPath.contains next then .readOnly sort next
    else .lacking sort next

/-- The settings with another value in the field at the end of a way of names. -/
def assign (s : Settings) (way : List Text) (d : Datum) : Program Settings :=
  match way with
  | [] => .done s
  | [part] =>
    if part = "store" then do
      return { s with store := ← acceptPart part (← readStore d) }
    else if part = "logging" then do
      return { s with log := ← acceptPart part (← Program.ofExcept (readLog d)) }
    else assignOther modelName part s
  | [part, field] =>
    if part = "store" then do return { s with store := ← assignStore s.store field d }
    else if part = "logging" then do return { s with log := ← assignLog s.log field d }
    else .fail (s.beyond modelName part field)
  | part :: field :: next :: _ =>
    if part = "store" then .fail (s.beyond storeModelName field next)
    else if part = "logging" then .fail (s.beyond logModelName field next)
    else .fail (s.beyond modelName part field)

end LabelBook.Settings
