import LabelBook.Json.Basic
import LabelBook.Number.Shortest
import LabelBook.Text.Quoted

/-!
Values of any kind, as configuration files hold them: the JSON values, dates and times. Each has a
text to be shown in a message or taken for a path: a string stands as it is on its own and in quotes
inside an array or a table. Values that are too long or nested too deep have none.

    ["a", 1, null]  ↦  ['a', 1, None]        2020-01-01  ↦  2020-01-01
-/

namespace LabelBook

/-- A calendar date. -/
structure Date where
  year : Nat
  month : Nat
  day : Nat
  deriving DecidableEq

/-- A time of day. -/
structure TimeOfDay where
  hour : Nat
  minute : Nat
  second : Nat
  microsecond : Nat
  deriving DecidableEq

/-- A value as a configuration file holds it. A date with a time may say how many minutes it is
ahead of universal time. -/
inductive Datum where
  | null
  | bool (b : Bool)
  | int (n : Int)
  | float (x : Binary64)
  | string (s : Text)
  | date (d : Date)
  | time (t : TimeOfDay)
  | moment (d : Date) (t : TimeOfDay) (offset : Option Int)
  | array (items : List Datum)
  | table (entries : List (Text × Datum))
  deriving Inhabited

namespace Date

/-- Year, month and day with hyphens. -/
def text (d : Date) : Text :=
  Text.concat [Text.padded 4 d.year, "-", Text.padded 2 d.month, "-", Text.padded 2 d.day]

/-- The numbers of a date, as they are shown inside an array. -/
def fields (d : Date) : List Nat := [d.year, d.month, d.day]

end Date

namespace TimeOfDay

/-- Hour, minute and second with colons, and the fraction in six digits if there is one. -/
def text (t : TimeOfDay) : Text :=
  Text.concat [Text.padded 2 t.hour, ":", Text.padded 2 t.minute, ":", Text.padded 2 t.second,
    if t.microsecond = 0 then [] else Text.concat [".", Text.padded 6 t.microsecond]]

/-- The numbers of a time, as they are shown inside an array: zeros at the end are left out from the
second on. -/
def fields (t : TimeOfDay) : List Nat :=
  [t.hour, t.minute] ++
    if t.microsecond ≠ 0 then [t.second, t.microsecond] else if t.second ≠ 0 then [t.second] else []

end TimeOfDay

/-- An offset in minutes with sign, hours and minutes. -/
def offsetText (minutes : Int) : Text :=
  let m := minutes.natAbs
  Text.concat [if minutes < 0 then "-" else "+", Text.padded 2 (m / 60), ":", Text.padded 2 (m % 60)]

/-- The word for an offset inside an array; days are whole and seconds are not negative. -/
def offsetWord (minutes : Int) : Text :=
  if minutes = 0 then "datetime.timezone.utc"
  else
    let seconds := minutes * 60
    let span : Text :=
      if seconds < 0 then Text.concat ["days=-1, seconds=", Text.ofInt (seconds + 86400)]
      else Text.concat ["seconds=", Text.ofInt seconds]
    Text.concat ["datetime.timezone(datetime.timedelta(", span, "))"]

namespace Datum

/-- Numbers between parentheses after a word, with something more behind them. -/
def call (word : Text) (numbers : List Nat) (more : Text) : Text :=
  Text.concat [word, "(", Text.joinWith ", " (numbers.map Text.ofNat), more, ")"]

/-- Why a value has no text: an integer in it has too many digits, or it is nested too deep. -/
inductive Unshown where
  | tooLong
  | tooDeep
  deriving DecidableEq

/-- What is said of a value without a text. -/
def Unshown.message : Unshown → Text
  | tooLong =>
    "Exceeds the limit (4300 digits) for integer string conversion; use sys.set_int_max_str_digits() to increase the limit"
  | tooDeep => "maximum recursion depth exceeded while getting the repr of an object"

/-- Whether an integer has more digits than are shown. -/
def tooLong (n : Int) : Bool := 4300 < digitCount n.natAbs

/-- How many values can stand inside one another to be shown. -/
def maxDepth : Nat := 980

/-- The text of a value inside an array or a table, unless more than `depth` values stand inside one
another in it. Of several defects the first counts. -/
def inner : (depth : Nat) → Datum → Except Unshown Text
  | 0, _ => .error .tooDeep
  | depth + 1, d =>
    match d with
    | null => .ok "None"
    | bool b => .ok (if b then "True" else "False")
    | int n => if tooLong n then .error .tooLong else .ok (Text.ofInt n)
    | float x => .ok (x.text "inf" "nan")
    | string s => .ok s.quoted
    | date d => .ok (call "datetime.date" d.fields [])
    | time t => .ok (call "datetime.time" t.fields [])
    | moment d t offset =>
      .ok (call "datetime.datetime" (d.fields ++ t.fields)
        (match offset with
          | none => []
          | some m => Text.concat [", tzinfo=", offsetWord m]))
    | array vs => do
      let ts ← vs.mapM (inner depth)
      return Text.concat ["[", Text.joinWith ", " ts, "]"]
    | table es => do
      let ts ← es.mapM fun e => return Text.concat [e.1.quoted, ": ", ← inner depth e.2]
      return Text.concat ["\x7b", Text.joinWith ", " ts, "\x7d"]

/-- The text of a value on its own, unless it cannot be shown. -/
def text : Datum → Except Unshown Text
  | string s => .ok s
  | date d => .ok d.text
  | time t => .ok t.text
  | moment d t offset =>
    .ok (Text.concat [d.text, " ", t.text,
      match offset with | none => [] | some m => offsetText m])
  | v => v.inner maxDepth

mutual

/-- A JSON value as a configuration value. -/
def ofJson : Json → Datum
  | .null => null
  | .bool b => bool b
  | .int n => int n
  | .float x => float x
  | .string s => string s
  | .array vs => array (ofItems vs)
  | .object es => table (ofEntries es)

/-- The items of a JSON array as configuration values. -/
def ofItems : List Json → List Datum
  | [] => []
  | v :: vs => ofJson v :: ofItems vs

/-- The entries of a JSON object as entries of a table. -/
def ofEntries : Entries → List (Text × Datum)
  | [] => []
  | (k, v) :: es => (k, ofJson v) :: ofEntries es

end

/-- The value of a key in the entries of a table. -/
def get? (key : Text) (entries : List (Text × Datum)) : Option Datum :=
  (entries.find? fun e => e.1 = key).map (·.2)

end Datum

/-- The text of a JSON value inside a message, a string in quotes. -/
def Json.shown (v : Json) : Text := ((Datum.ofJson v).inner Datum.maxDepth).toOption.getD []

/-- The text of a JSON value on its own, a string as it is. -/
def Json.plain (v : Json) : Text := (Datum.ofJson v).text.toOption.getD []

end LabelBook
