import LabelBook.CommandLine.Help
import LabelBook.Json.Basic

/-!
Invocations: what a command line asks for. Either it names a command with all that the command needs,
or it ends at once, with a text on standard output or with a complaint on standard error.
-/

namespace LabelBook.CommandLine

/-- What is given for an argument: as a rule a text, but it can be a value of any sort, or nothing. -/
abbrev Argument := Option Json

/-- A command with its arguments. -/
inductive Command where
  | set (kind ref label origin : Argument) (unspendable : Bool)
  | get (kind ref : Argument)
  | list (kind : Argument)
  | importFile (file : Argument)
  | exportFile (file : Argument)

/-- A command, the file of settings and the directory of labels that it is given. -/
structure Invocation where
  settings : Option Text
  directory : Option Text
  command : Command

/-- What a command line comes to. -/
inductive Demand where
  | run (i : Invocation)
  | tell (t : Text)
  | complain (t : Text)

/-- The complaint about a command line: how the program is called, and what is wrong. -/
def complaint (usage program message : Text) : Text :=
  Text.concat [usage, program, ": error: ", message, "\n"]

/-- What stopping early comes to. -/
def stopped (usage help program : Text) : Stop → Demand
  | .help => .tell help
  | .version => .tell (Text.concat [programName, " ", version, "\n"])
  | .fault message => .complain (complaint usage program message)

/-- The argument that a reading gives for a name: a text, or an empty array where a separator stands in
place of the text. -/
def argumentOf (r : Reading) (name : Text) : Argument :=
  (r.values.lookup name).map fun
    | t :: _ => .string t
    | [] => .array []

/-- The command that a reading gives. -/
def commandOf (v : Verb) (r : Reading) : Command :=
  let argument := argumentOf r
  match v with
  | .set => .set (argument "type") (argument "ref") (argument "text") (argument "--origin")
      (r.flags.contains "--unspendable")
  | .get => .get (argument "type") (argument "ref")
  | .list => .list (argument "--type")
  | .importFile => .importFile (argument "file")
  | .exportFile => .exportFile (argument "file")

/-- The complaint about arguments that are left over. -/
def leftOver (extras : List Text) : Text :=
  complaint mainUsage programName
    (Text.concat ["unrecognized arguments: ", Text.joinWith " " extras])

/-- What a command line comes to once its command is known. -/
def demandOf (outer : Reading) (v : Verb) (args : List Text) : Demand :=
  match v.grammar.read args with
  | .error stop => stopped v.usage v.help v.grammar.program stop
  | .ok inner =>
    let extras := outer.extras ++ inner.extras
    if extras.isEmpty then
      .run ⟨outer.value? "--settings", outer.value? "--data-dir", commandOf v inner⟩
    else .complain (leftOver extras)

/-- What a command line comes to. -/
def demand (args : List Text) : Demand :=
  match mainGrammar.read args with
  | .error stop => stopped mainUsage mainHelp programName stop
  | .ok r =>
    match r.valuesOf "command" with
    | [] => .complain mainUsage
    | name :: rest =>
      match Verb.ofName? name with
      | some v => demandOf r v rest
      | none => .complain mainUsage

end LabelBook.CommandLine
