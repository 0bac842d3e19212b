import LabelBook.Key

/-!
Values as collections of named values. An object is one; so is an array whose items are pairs of a
key and a value, a pair being whatever has exactly two parts: an array of two items, a text of two
code points, an object of two keys. The last value of a key wins.

    [["a", 1], "bc"]  ↦  a: 1, b: "c"
-/

namespace LabelBook

/-- Why a value is no collection of named values, or none that can be written. -/
inductive PairsError where
  | noParts (sort : Text)
  | noPair (index : Nat)
  | badLength (index length : Nat)
  | badKey (sort : Text)
  | unnamed (sort : Text)
  deriving DecidableEq

/-- The text of an error. -/
def PairsError.message : PairsError → Text
  | noParts sort => Text.concat [sort.quoted, " object is not iterable"]
  | noPair index =>
    Text.concat ["cannot convert dictionary update sequence element #", Text.ofNat index,
      " to a sequence"]
  | badLength index length =>
    Text.concat ["dictionary update sequence element #", Text.ofNat index, " has length ",
      Text.ofNat length, "; 2 is required"]
  | badKey sort => Text.concat ["unhashable type: ", sort.quoted]
  | unnamed sort =>
    Text.concat ["keys must be str, int, float, bool or None, not ", sort]

/-- Values that may have parts and may be keys. -/
class Parted (α : Type) where
  /-- The word for the sort of a value in messages. -/
  sort : α → Text
  /-- The parts of a value: items, code points or keys. -/
  parts? : α → Option (List α)
  /-- The key that a value is. -/
  key? : α → Option Key
  /-- The entries of an object. -/
  entries? : α → Option (List (Text × α))

namespace Parted

/-- The pairs of a list of values, counted from `index` on, put behind those that are there. -/
def putPairs [Parted α] (index : Nat) (pairs : List (Key × α)) :
    List α → Except PairsError (List (Key × α))
  | [] => .ok pairs
  | v :: vs =>
    match parts? v with
    | none => .error (.noPair index)
    | some [k, w] =>
      match key? k with
      | none => .error (.badKey (sort k))
      | some key => putPairs (index + 1) (key.put w pairs) vs
    | some ps => .error (.badLength index ps.length)

/-- The named values of a value. -/
def pairs [Parted α] (v : α) : Except PairsError (List (Key × α)) :=
  match entries? v with
  | some es => .ok (es.map fun e => (.text e.1, e.2))
  | none =>
    match parts? v with
    | some vs => putPairs 0 [] vs
    | none => .error (.noParts (sort v))

end Parted

namespace Json

instance : Parted Json where
  sort := sort
  parts?
    | array vs => some vs
    | string s => some (s.map fun c => string [c])
    | object es => some (es.map fun e => string e.1)
    | _ => none
  key?
    | null => some .null
    | bool b => some (.bool b)
    | int n => some (.int n)
    | float x => some (.float x)
    | string s => some (.text s)
    | _ => none
  entries?
    | object es => some es
    | _ => none

end Json

end LabelBook
