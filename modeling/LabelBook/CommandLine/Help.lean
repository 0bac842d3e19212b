import LabelBook.CommandLine.Grammar
import LabelBook.Kind

/-!
The commands with their grammars, and the help texts: how each is called, and what its places and
switches mean. In help, meanings stand in a column behind the names, at most 24 wide; a name that
does not leave two blanks before it stands on a line of its own.
-/

namespace LabelBook.CommandLine

/-- The commands. -/
inductive Verb where
  | set
  | get
  | list
  | importFile
  | exportFile
  deriving DecidableEq, Inhabited

/-- The name of the program. -/
def programName : Text := "walletlabels"

/-- The version of the program. -/
def version : Text := "0.1.0"

/-- The names of the kinds, as choices for an argument. -/
def kindNames : List Text := Kind.all.map Kind.name

/-- A choice of names as it is shown in help. -/
def choiceText (names : List Text) : Text := Text.concat ["\x7b", Text.joinWith "," names, "\x7d"]

namespace Verb

/-- All commands, in the order in which help lists them. -/
def all : List Verb := [set, get, list, importFile, exportFile]

/-- The name of a command. -/
def name : Verb → Text
  | set => "set"
  | get => "get"
  | list => "list"
  | importFile => "import"
  | exportFile => "export"

/-- The meaning of a command. -/
def meaning : Verb → Text
  | set => "set a label"
  | get => "show a label"
  | list => "list labels"
  | importFile => "merge labels from a file"
  | exportFile => "export labels to a file"

/-- The command of a given name. -/
def ofName? (t : Text) : Option Verb := all.find? fun v => v.name = t

/-- The switch that asks for help. -/
def helpSwitch : Switch := ⟨["-h", "--help"], .help⟩

/-- The switches of a command. -/
def switches : Verb → List Switch
  | set => [helpSwitch, ⟨["--origin"], .value []⟩, ⟨["--unspendable"], .flag⟩]
  | list => [helpSwitch, ⟨["--type"], .value kindNames⟩]
  | _ => [helpSwitch]

/-- The places of a command. -/
def places : Verb → List Place
  | set => [⟨"type", kindNames, false⟩, ⟨"ref", [], false⟩, ⟨"text", [], false⟩]
  | get => [⟨"type", kindNames, false⟩, ⟨"ref", [], false⟩]
  | list => []
  | importFile => [⟨"file", [], false⟩]
  | exportFile => [⟨"file", [], false⟩]

/-- The grammar of a command. -/
def grammar (v : Verb) : Grammar :=
  ⟨Text.concat [programName, " ", v.name], v.switches, v.places⟩

end Verb

/-- The grammar of the program: its switches, and a command with what belongs to it. -/
def mainGrammar : Grammar :=
  ⟨programName,
    [Verb.helpSwitch, ⟨["--settings"], .value []⟩, ⟨["--data-dir"], .value []⟩,
      ⟨["--version"], .version⟩],
    [⟨"command", Verb.all.map Verb.name, true⟩]⟩

/-! ### Usage -/

/-- How the program is called. -/
def mainUsage : Text :=
  Text.concat ["usage: walletlabels [-h] [--settings SETTINGS] [--data-dir DATA_DIR]\n",
    "                    [--version]\n",
    "                    ", choiceText (Verb.all.map Verb.name), " ...\n"]

/-- How a command is called. -/
def Verb.usage : Verb → Text
  | set =>
    Text.concat ["usage: walletlabels set [-h] [--origin ORIGIN] [--unspendable]\n",
      "                        ", choiceText kindNames, " ref text\n"]
  | get => Text.concat ["usage: walletlabels get [-h] ", choiceText kindNames, " ref\n"]
  | list => Text.concat ["usage: walletlabels list [-h] [--type ", choiceText kindNames, "]\n"]
  | importFile => "usage: walletlabels import [-h] file\n"
  | exportFile => "usage: walletlabels export [-h] file\n"

/-! ### Help -/

/-- A part of help: a title, and names with their meanings. A name without a meaning stands alone,
and what it is made up of may stand below it. -/
structure Section where
  title : Text
  lines : List (Text × Text)

/-- The widest that the column of names gets. -/
def maxColumn : Nat := 24

/-- The column in which the meanings of some names stand. -/
def columnFor (names : List Text) : Nat :=
  min maxColumn (names.foldl (fun n t => max n (t.length + 4)) 0)

/-- A line of help. -/
def helpLine (column : Nat) (name meaning : Text) : Text :=
  let blanks (n : Nat) : Text := List.replicate n (.scalar ' ')
  if meaning.isEmpty then Text.concat ["  ", name, "\n"]
  else if name.length + 4 ≤ column then
    Text.concat ["  ", name, blanks (column - 2 - name.length), meaning, "\n"]
  else Text.concat ["  ", name, "\n", blanks column, meaning, "\n"]

/-- A section of help. -/
def Section.text (s : Section) (column : Nat) : Text :=
  Text.concat ["\n", s.title, ":\n", (s.lines.map fun l => helpLine column l.1 l.2).flatten]

/-- The sections of help, all with the same column. -/
def helpText (sections : List Section) : Text :=
  let column := columnFor (sections.flatMap fun s => s.lines.map Prod.fst)
  (sections.map fun s => s.text column).flatten

/-- The line for the switch that asks for help. -/
def helpMeaning : Text × Text := ("-h, --help", "show this help message and exit")

/-- The line for a place that takes a kind. -/
def kindMeaning : Text × Text := (choiceText kindNames, "kind of labelled entity")

/-- The help for a command. -/
def Verb.help (v : Verb) : Text :=
  v.usage ++ helpText (match v with
    | set =>
      [⟨"positional arguments", [kindMeaning,
          ("ref", "address, txid, txid:vout, public key or xpub"), ("text", "label text")]⟩,
        ⟨"options", [helpMeaning,
          ("--origin ORIGIN", "key origin / descriptor of the wallet"),
          ("--unspendable", "mark an output as not spendable")]⟩]
    | get =>
      [⟨"positional arguments", [kindMeaning, ("ref", "reference to look up")]⟩,
        ⟨"options", [helpMeaning]⟩]
    | list =>
      [⟨"options", [helpMeaning,
        (Text.concat ["--type ", choiceText kindNames], "only show this kind")]⟩]
    | importFile =>
      [⟨"positional arguments", [("file", "BIP-329 JSON Lines file to merge")]⟩,
        ⟨"options", [helpMeaning]⟩]
    | exportFile =>
      [⟨"positional arguments", [("file", "destination JSON Lines file")]⟩,
        ⟨"options", [helpMeaning]⟩])

/-- The help for the program. -/
def mainHelp : Text :=
  Text.concat [mainUsage, "\nBIP-329 wallet label store\n",
    helpText [
      ⟨"positional arguments", (choiceText (Verb.all.map Verb.name), []) ::
        Verb.all.map fun v => (Text.concat ["  ", v.name], v.meaning)⟩,
      ⟨"options", [helpMeaning, ("--settings SETTINGS", "path to JSON/TOML settings"),
        ("--data-dir DATA_DIR", "wallet data directory containing labels.jsonl"),
        ("--version", "show program's version number and exit")]⟩]]

end LabelBook.CommandLine
