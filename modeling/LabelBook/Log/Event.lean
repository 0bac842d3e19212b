import LabelBook.Clock
import LabelBook.Failure
import LabelBook.Json.Printer
import LabelBook.Log.Level

/-!
Log events: a message with a level and, if there are any, details for programs to read. An event is
written in three ways: a line for the console, a line with the time for people, and a JSON object in
which the details come first and the message, the level and the time fill the keys that they leave.
An event whose message or details are out of order cannot be written in the ways that need them.

    INFO: saved
    2023-11-14 22:13:20,123 INFO walletlabels: saved
    {"event": "labels.saved", "message": "saved", "level": "INFO", "timestamp": "2023-11-14T…"}
-/

namespace LabelBook

/-- A detail of an event: a JSON value in which paths can stand. -/
inductive Detail where
  | null
  | bool (b : Bool)
  | int (n : Int)
  | float (x : Binary64)
  | string (s : Text)
  | path (p : Path)
  | array (items : List Detail)
  | object (entries : List (Text × Detail))
  deriving Inhabited

namespace Detail

/-- The word for a path in messages. -/
def pathSort : Text := "PosixPath"

/-- The word for the sort of a detail in messages. -/
def sort : Detail → Text
  | null => "NoneType"
  | bool _ => "bool"
  | int _ => "int"
  | float _ => "float"
  | string _ => "str"
  | path _ => pathSort
  | array _ => "list"
  | object _ => "dict"

instance : Parted Detail where
  sort := sort
  parts?
    | array ds => some ds
    | string s => some (s.map fun c => string [c])
    | object es => some (es.map fun e => string e.1)
    | _ => none
  key?
    | null => some .null
    | bool b => some (.bool b)
    | int n => some (.int n)
    | float x => some (.float x)
    | string s => some (.text s)
    | path p => some (.path p)
    | _ => none
  entries?
    | object es => some es
    | _ => none

/-- Whether a detail counts as given: null, false, zeros and empty texts, arrays and objects do
not. -/
def isTruthy : Detail → Bool
  | null => false
  | bool b => b
  | int n => n != 0
  | float x => !x.same (.zero false)
  | string s => !s.isEmpty
  | path _ => true
  | array ds => !ds.isEmpty
  | object es => !es.isEmpty

mutual

/-- A detail with each path as its text. -/
def toJson : Detail → Json
  | null => .null
  | bool b => .bool b
  | int n => .int n
  | float x => .float x
  | string s => .string s
  | path p => .string p.text
  | array ds => .array (itemsToJson ds)
  | object es => .object (entriesToJson es)

/-- Items with each path as its text. -/
def itemsToJson : List Detail → List Json
  | [] => []
  | d :: ds => toJson d :: itemsToJson ds

/-- Entries with each path as its text. -/
def entriesToJson : List (Text × Detail) → Entries
  | [] => []
  | (k, d) :: es => (k, toJson d) :: entriesToJson es

end

end Detail

/-- What is logged: a message with its level, or why there is none, details for programs, and the
text of an error that was met, if there was one. -/
structure Event where
  level : Level
  message : Except TemplateError Text
  details : Detail
  trace : Option Text

namespace Event

/-- An event with nothing but a message. -/
def plain (level : Level) (message : Text) : Event := ⟨level, .ok message, .null, none⟩

/-- The name that the log goes by. -/
def channel : Text := "walletlabels"

/-- The message of an event. -/
def text (e : Event) : Except Failure Text := e.message.mapError .template

/-- The line for the console. -/
def consoleLine (e : Event) : Except Failure Text :=
  e.text.map fun t => Text.concat [e.level.name, ": ", t, "\n"]

/-- The line for people, given the time. -/
def textLine (now : Int) (e : Event) : Except Failure Text :=
  e.text.map fun t => Text.concat [Clock.stamp now, " ", e.level.name, " ", channel, ": ", t, "\n"]

/-- The pairs of the details. -/
def detailPairs (e : Event) : Except Failure (List (Key × Json)) :=
  if e.details.isTruthy then
    ((Parted.pairs e.details).mapError Failure.noEntries).map fun ps =>
      ps.map fun p => (p.1, p.2.toJson)
  else .ok []

/-- What is told beside the details. -/
def standing (now : Int) (e : Event) (message : Text) : List (Text × Text) :=
  let always : List (Text × Text) :=
    [("message", message), ("level", e.level.name), ("timestamp", Clock.isoSeconds now)]
  match e.trace with
  | some t => always ++ [(("exc_info" : Text), t)]
  | none => always

/-- Puts texts under keys that are not there yet. -/
def fill (pairs : List (Key × Json)) (told : List (Text × Text)) : List (Key × Json) :=
  told.foldl (fun ps t => (Key.text t.1).putNew (.string t.2) ps) pairs

/-- Pairs under the names of their keys. -/
def named : List (Key × Json) → Except PairsError Entries
  | [] => .ok []
  | (k, v) :: rest =>
    match k.name? with
    | some name => (named rest).map ((name, v) :: ·)
    | none => .error (.unnamed Detail.pathSort)

/-- The entries of the JSON object of an event, given the time; names can repeat where different keys
have one name. -/
def toEntries (now : Int) (e : Event) : Except Failure Entries := do
  let message ← e.text
  let pairs ← e.detailPairs
  (named (fill pairs (e.standing now message))).mapError .noEntries

/-- The JSON text of an event, given the time. -/
def json (now : Int) (e : Event) : Except Failure Text :=
  (e.toEntries now).map fun es => (Json.object es).print false

end Event

end LabelBook
