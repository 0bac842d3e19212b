import LabelBook.Datum
import LabelBook.Json.Printer
import LabelBook.Record.Basic
import LabelBook.Text.Utf8

/-!
The line of a record in a label file: one JSON object, kind and identifier first, then the label and
what the kind adds, then the further entries in their order. Entries that are null are left out, and a
number that JSON has no spelling for is written as null. A record can be too deep to write, hold a
key that is no well-formed text, or an integer of too many digits.

    {"type": "addr", "ref": "bc1q…", "label": "rent"}
-/

namespace LabelBook

/-- Why a record cannot be written. -/
inductive WriteError where
  | key (e : Utf8.EncodeError)
  | tooDeep
  | tooManyDigits
  deriving DecidableEq

/-- The text of a write error. -/
def WriteError.message : WriteError → Text
  | key e => e.message
  | tooDeep => "Maximum serialization depth exceeded"
  | tooManyDigits => Datum.Unshown.tooLong.message

namespace Json

/-- The levels that a further entry may have; an item of an array or an object is one level further
in than what holds it. -/
def maxWrittenLevels : Nat := 255

/-- The complaint about a key, if it cannot be written. -/
def checkKey (key : Text) : Except WriteError Unit :=
  match Utf8.encode key with
  | .error e => .error (.key e)
  | .ok _ => .ok ()

mutual

/-- A value as it is written with `room` levels left for it and what it holds. -/
def writable (room : Nat) (v : Json) : Except WriteError Json :=
  match room with
  | 0 => .error .tooDeep
  | room + 1 =>
    match v with
    | array vs => (writableItems room vs).map array
    | object es => (writableEntries room es).map object
    | float x => .ok (if x.isFinite then float x else null)
    | v => .ok v

/-- Items as they are written. -/
def writableItems (room : Nat) : List Json → Except WriteError (List Json)
  | [] => .ok []
  | v :: vs =>
    match writable room v with
    | .error e => .error e
    | .ok v => (writableItems room vs).map (v :: ·)

/-- The entries of an object inside a record as they are written. -/
def writableEntries (room : Nat) : Entries → Except WriteError Entries
  | [] => .ok []
  | (k, v) :: es =>
    match checkKey k, writable room v with
    | .error e, _ => .error e
    | .ok _, .error e => .error e
    | .ok _, .ok v => (writableEntries room es).map ((k, v) :: ·)

end

mutual

/-- Whether an integer in a value has more digits than are written. -/
def holdsLongInt : Json → Bool
  | int n => Datum.tooLong n
  | array vs => itemsHoldLongInt vs
  | object es => entriesHoldLongInt es
  | _ => false

/-- Whether an integer among some items has more digits than are written. -/
def itemsHoldLongInt : List Json → Bool
  | [] => false
  | v :: vs => holdsLongInt v || itemsHoldLongInt vs

/-- Whether an integer among some entries has more digits than are written. -/
def entriesHoldLongInt : Entries → Bool
  | [] => false
  | (_, v) :: es => holdsLongInt v || entriesHoldLongInt es

end

end Json

namespace Record

/-- Further entries as they are written: without those that are null. -/
def writtenExtras : Entries → Except WriteError Entries
  | [] => .ok []
  | (_, .null) :: es => writtenExtras es
  | (k, v) :: es =>
    match v.writable Json.maxWrittenLevels with
    | .error e => .error e
    | .ok v => (writtenExtras es).map ((k, v) :: ·)

/-- What a body adds to the entries. -/
def bodyEntries : Body → Entries
  | .transaction (some origin) => [("origin", .string origin)]
  | .output spendable => [("spendable", .bool spendable)]
  | _ => []

/-- The entry of a label, if there is one. -/
def labelEntries : Option Text → Entries
  | some t => [("label", .string t)]
  | none => []

/-- The entries of the fields of a record. -/
def fieldEntries (r : Record) : Entries :=
  ("type", .string r.kind.name) :: ("ref", .string r.ref) ::
    (labelEntries r.label ++ bodyEntries r.body)

/-- The entries of a record as they are written. -/
def written (r : Record) : Except WriteError Entries :=
  (writtenExtras r.extras).map (r.fieldEntries ++ ·)

/-- The line of a record, ended by a line feed. -/
def line (r : Record) : Except WriteError Text :=
  match r.written with
  | .error e => .error e
  | .ok es =>
    if Json.entriesHoldLongInt es then .error .tooManyDigits
    else .ok ((Json.object es).print false ++ [.scalar '\n'])

/-- A text or its absence, as they are shown. -/
def shownText : Option Text → Text
  | some t => t.quoted
  | none => "None"

/-- A record on display: its name with all it holds. -/
def display (r : Record) : Text :=
  let entry (name value : Text) : Text := Text.concat [name, "=", value]
  let body : List Text := match r.body with
    | .transaction origin => [entry "origin" (shownText origin)]
    | .output spendable => [entry "spendable" (Json.bool spendable).shown]
    | _ => []
  Text.concat [r.kind.recordName, "(",
    Text.joinWith ", " ([entry "ref" r.ref.quoted, entry "label" (shownText r.label),
      entry "type" r.kind.name.quoted] ++ body ++ r.extras.map fun e => entry e.1 e.2.shown), ")"]

end Record

end LabelBook
