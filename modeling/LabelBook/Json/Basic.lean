import LabelBook.Number.Binary64

/-!
JSON values. Integers and floating-point numbers are kept apart, and an object keeps its entries in
order. Putting a key again replaces its value and leaves its place, so that reading an object with a
repeated key gives the last value at the first place.
-/

namespace LabelBook

/-- A JSON value, with NaN and the infinities among the numbers. -/
inductive Json where
  | null
  | bool (b : Bool)
  | int (n : Int)
  | float (x : Binary64)
  | string (s : Text)
  | array (items : List Json)
  | object (entries : List (Text × Json))
  deriving Inhabited

/-- Named values in order. -/
abbrev Entries := List (Text × Json)

namespace Entries

/-- The value of a key. -/
def get? (key : Text) : Entries → Option Json
  | [] => none
  | (k, v) :: rest => if k = key then some v else get? key rest

/-- Puts a value under a key: in the place of the key if it is there, else at the end. -/
def put (key : Text) (value : Json) : Entries → Entries
  | [] => [(key, value)]
  | (k, v) :: rest => if k = key then (k, value) :: rest else (k, v) :: put key value rest

/-- Puts the entries of another list, in their order. -/
def putAll (entries more : Entries) : Entries := more.foldl (fun es e => put e.1 e.2 es) entries

/-- Puts a value under a key that is not there yet. -/
def putNew (key : Text) (value : Json) (entries : Entries) : Entries :=
  if (get? key entries).isSome then entries else put key value entries

/-- The entries with the given keys left out. -/
def without (keys : List Text) (entries : Entries) : Entries :=
  entries.filter fun e => !keys.contains e.1

end Entries

namespace Json

/-- The word for the sort of a value in messages. -/
def sort : Json → Text
  | null => "NoneType"
  | bool _ => "bool"
  | int _ => "int"
  | float _ => "float"
  | string _ => "str"
  | array _ => "list"
  | object _ => "dict"

/-- A number as an exact value: an integer, or a floating-point number that is none. A truth value
counts as 0 or 1. -/
def asNumber? : Json → Option (Int ⊕ Binary64)
  | bool b => some (.inl (if b then 1 else 0))
  | int n => some (.inl n)
  | float x => match x.asInt? with
    | some n => some (.inl n)
    | none => some (.inr x)
  | _ => none

/-- Equality of numbers. -/
def sameNumber (x y : Json) : Bool :=
  match x.asNumber?, y.asNumber? with
  | some (.inl m), some (.inl n) => m == n
  | some (.inr a), some (.inr b) => a.same b
  | _, _ => false

mutual

/-- Equality of values: numbers are compared by what they denote, across their kinds, and objects
without regard to the order of their entries. -/
def same : Json → Json → Bool
  | null, null => true
  | string s, string t => s == t
  | array xs, array ys => sameItems xs ys
  | object es, object fs => es.length == fs.length && sameEntries es fs
  | bool b, y => sameNumber (bool b) y
  | int n, y => sameNumber (int n) y
  | float x, y => sameNumber (float x) y
  | _, _ => false

/-- Equality of the items of two arrays. -/
def sameItems : List Json → List Json → Bool
  | [], [] => true
  | x :: xs, y :: ys => same x y && sameItems xs ys
  | _, _ => false

/-- Whether every entry has an equal one under the same key in another list. -/
def sameEntries : Entries → Entries → Bool
  | [], _ => true
  | (k, v) :: es, fs => (match fs.get? k with | some w => same v w | none => false) && sameEntries es fs

end

/-- Whether a value counts as given: null, false, zeros and empty texts, arrays and objects do not. -/
def isTruthy : Json → Bool
  | null => false
  | bool b => b
  | int n => n != 0
  | float x => !x.same (.zero false)
  | string s => !s.isEmpty
  | array xs => !xs.isEmpty
  | object es => !es.isEmpty

end Json

end LabelBook
