import LabelBook.Files.Path
import LabelBook.Json.Basic
import LabelBook.Number.Shortest

/-!
Keys of named values. A key is a text as a rule, but a list of pairs can bring any value without
parts. Two keys are the same when they are equal as values, numbers by what they denote and truth
values as 0 and 1; the key that came first stands for all that are the same.

    1, true and 1.0 are one key, "1" is another
-/

namespace LabelBook

/-- A key. -/
inductive Key where
  | text (t : Text)
  | null
  | bool (b : Bool)
  | int (n : Int)
  | float (x : Binary64)
  | path (p : Path)
  deriving Inhabited

namespace Key

/-- The JSON value that a key is; a path is none. -/
def toJson? : Key → Option Json
  | text t => some (.string t)
  | null => some .null
  | bool b => some (.bool b)
  | int n => some (.int n)
  | float x => some (.float x)
  | path _ => none

/-- Equality of keys. -/
def same : Key → Key → Bool
  | path p, path q => p == q
  | k, l =>
    match k.toJson?, l.toJson? with
    | some v, some w => v.same w
    | _, _ => false

/-- The name of a key in a written object; a path has none. -/
def name? : Key → Option Text
  | text t => some t
  | null => some "null"
  | bool b => some (if b then "true" else "false")
  | int n => some (Text.ofInt n)
  | float x => some (x.text "Infinity" "NaN")
  | path _ => none

/-- The value of a key among pairs. -/
def find? (key : Key) : List (Key × α) → Option α
  | [] => none
  | (k, v) :: rest => if k.same key then some v else key.find? rest

/-- Puts a value under a key: in the place of the key if it is there, else at the end. -/
def put (key : Key) (value : α) : List (Key × α) → List (Key × α)
  | [] => [(key, value)]
  | (k, v) :: rest => if k.same key then (k, value) :: rest else (k, v) :: key.put value rest

/-- Puts a value under a key that is not there yet. -/
def putNew (key : Key) (value : α) (pairs : List (Key × α)) : List (Key × α) :=
  if (key.find? pairs).isSome then pairs else key.put value pairs

end Key

/-- The pairs whose keys are texts. -/
def textPairs : List (Key × α) → List (Text × α)
  | [] => []
  | (.text t, v) :: rest => (t, v) :: textPairs rest
  | _ :: rest => textPairs rest

/-- The keys that are no texts. -/
def otherKeys : List (Key × α) → List Key
  | [] => []
  | (.text _, _) :: rest => otherKeys rest
  | (k, _) :: rest => k :: otherKeys rest

/-- The first number that does not fit into 64 bits with a sign. -/
def wordBound : Int := 9223372036854775808

/-- Whether an integer fits into 64 bits with a sign. -/
def isWord (n : Int) : Bool := -wordBound ≤ n && n < wordBound

end LabelBook
