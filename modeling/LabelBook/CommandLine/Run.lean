import LabelBook.CommandLine.Invocation
import LabelBook.Log.Setup
import LabelBook.Settings.Reader
import LabelBook.Store.Basic

/-!
Carrying out command lines. A command opens the store of its directory, does its work, and writes what
it has to say to standard output; it ends with a status if that is not the usual one. The program
reads the settings and sets up the log before it runs a command, and turns failures of label files
and of values into log records and a status.
-/

namespace LabelBook.CommandLine

/-- The directory of the labels: the one given, unless it is empty, else that of the settings, else
the default one. -/
def directoryFor (given : Option Text) (settings : Option Settings) : Program Path :=
  match given with
  | some (c :: t) => Program.expandHome (.ofText (c :: t))
  | _ =>
    match settings with
    | some s => .done s.store.dataDirectory
    | none => Settings.defaultDirectory

/-- The store of a directory that is still to be found. -/
def openStore (directory : Program Path) : Program Store := do Store.openIn (← directory)

/-- The value of an argument that a command cannot do without. -/
def Argument.required (a : Argument) (name : Text) : Except Failure Json :=
  match a with
  | some v => .ok v
  | none => .error (.lacking "Namespace" name)

/-- The path that a value is the text of. -/
def pathOf : Json → Except Failure Path
  | .string t => .ok (.ofText t)
  | v => .error (.noPath v.sort)

/-- Complains unless the kind that is asked for is the one that a switch belongs to. -/
def checkOwner (kind : Argument) (owner : Kind) (otherwise : Failure) : Except Failure Unit :=
  match kind.required "type" with
  | .error f => .error f
  | .ok v => if v.same (.string owner.name) then .ok () else .error otherwise

/-- The further fields that the switches of the command to set a label give. -/
def switchFields (kind origin : Argument) (unspendable : Bool) : Except Failure Entries := do
  let es : Entries ← match origin with
    | some v =>
      if v.isTruthy then do
        checkOwner kind .transaction .originElsewhere
        pure [("origin", v)]
      else pure []
    | none => pure []
  if unspendable then
    checkOwner kind .output .unspendableElsewhere
    return Entries.put "spendable" (.bool false) es
  else return es

/-- The record that the arguments of the command to set a label describe. -/
def describedRecord (kind ref label origin : Argument) (unspendable : Bool) :
    Except Failure Record := do
  let fields ← switchFields kind origin unspendable
  let kind ← kind.required "type"
  let ref ← ref.required "ref"
  let label ← label.required "text"
  let k ← Kind.ofJson kind
  (Record.make k ref label fields).mapError .rejected

/-- Sets a label and saves the store. -/
def set (directory : Program Path) (kind ref label origin : Argument) (unspendable : Bool) :
    Program Unit := do
  let r ← Program.ofExcept (describedRecord kind ref label origin unspendable)
  let s ← openStore directory
  (s.set r).save
  Program.print (Text.concat [r.reference.text, "\t", r.label.getD "None", "\n"])

/-- The reference that is looked for; an identifier that is no text is looked for in vain, and is told
as it is shown. -/
def wantedReference (kind ref : Argument) : Except Failure (Reference ⊕ Text) := do
  let kind ← kind.required "type"
  let ref ← ref.required "ref"
  let k ← Kind.ofJson kind
  match ref with
  | .string t => return .inl (.of k t)
  | v =>
    if k.hasTransactionId then .error (.lacking v.sort "lower")
    else return .inr (Text.concat [k.name, ":", v.plain])

/-- Says that a reference has no record, which gives a status of 1. -/
def reportAbsent (reference : Text) : Program (Option Nat) := do
  Program.warn (Text.concat ["label not found: ", reference, "\n"])
  return some 1

/-- Shows the label of a reference. -/
def get (directory : Program Path) (kind ref : Argument) : Program (Option Nat) := do
  let s ← openStore directory
  match ← Program.ofExcept (wantedReference kind ref) with
  | .inr shown => reportAbsent shown
  | .inl r =>
    match s.get? r with
    | none => reportAbsent r.text
    | some _ =>
      Program.print (Text.concat [(s.text? r).getD [], "\n"])
      return none

/-- The line of a record in a list. -/
def listLine (r : Record) : Text :=
  Text.concat [r.kind.name, "\t", r.ref, "\t", r.label.getD [], "\n"]

/-- Whether a record is wanted: any is, unless a kind is given. -/
def isWanted (kind : Argument) (r : Record) : Bool :=
  match kind with
  | some v => !v.isTruthy || v.same (.string r.kind.name)
  | none => true

/-- Lists the records, or those of a kind. -/
def list (directory : Program Path) (kind : Argument) : Program Unit := do
  let s ← openStore directory
  for r in s.collection.records.filter (isWanted kind) do
    Program.print (listLine r)

/-- Merges a file into the store and saves it. -/
def importFile (directory : Program Path) (file : Argument) : Program Unit := do
  let file ← Program.ofExcept ((file.required "file").bind pathOf)
  let incoming ← LabelFile.read file
  let s ← openStore directory
  let (s, _, n) := s.merge incoming
  s.save
  Program.print (Text.concat ["imported ", Text.ofNat n, " labels\n"])

/-- Writes the records of the store to a file. -/
def exportFile (directory : Program Path) (file : Argument) : Program Unit := do
  let s ← openStore directory
  let name ← Program.ofExcept (file.required "file")
  LabelFile.write s.collection (← Program.ofExcept (pathOf name))
  Program.print
    (Text.concat ["exported ", Text.ofNat s.collection.size, " labels to ", name.plain, "\n"])

/-- Carries out a command; most end without a status. -/
def Command.run (c : Command) (directory : Program Path) : Program (Option Nat) :=
  let quietly (p : Program Unit) : Program (Option Nat) := do
    p
    return none
  match c with
  | .set kind ref label origin unspendable =>
    quietly (CommandLine.set directory kind ref label origin unspendable)
  | .get kind ref => CommandLine.get directory kind ref
  | .list kind => quietly (CommandLine.list directory kind)
  | .importFile file => quietly (CommandLine.importFile directory file)
  | .exportFile file => quietly (CommandLine.exportFile directory file)

/-- A command's status; a failure of a label file or of a value is logged and gives a status of 1. -/
def report (p : Program (Option Nat)) : Program Nat := do
  match ← p.outcome with
  | .ok status => return status.getD 0
  | .error f =>
    if f.isFile then
      Program.log .error f.message
      return 1
    else if f.isValue then
      Program.log .error (Text.concat ["invalid label: ", f.message])
      return 1
    else .fail f

/-- The settings in a file, or the complaint about it. -/
def settingsIn (file : Text) : Program (Except Text Settings) := do
  match ← (Settings.load (.ofText file)).outcome with
  | .ok s => return .ok s
  | .error f =>
    if f.isSystem || f.isValue then
      return .error (complaint mainUsage programName
        (Text.concat ["cannot load settings ", file, ": ", f.message]))
    else .fail f

/-- Carries out an invocation with its settings. -/
def Invocation.runWith (i : Invocation) (settings : Settings) : Program Nat := do
  Log.setUp settings.log.verbosity.level settings.log.directory
  report (i.command.run (directoryFor i.directory (some settings)))

/-- Carries out an invocation. -/
def Invocation.run (i : Invocation) : Program Nat := do
  let settings ← Settings.default
  match i.settings with
  | some (c :: t) =>
    match ← settingsIn (c :: t) with
    | .ok settings => i.runWith settings
    | .error complaint =>
      Program.warn complaint
      return 2
  | _ => i.runWith settings

/-- Carries out a command line; gives the status to end with. -/
def run (args : List Text) : Program Nat :=
  match demand args with
  | .run i => i.run
  | .tell t => do
    Program.print t
    return 0
  | .complain t => do
    Program.warn t
    return 2

end LabelBook.CommandLine
