import LabelBook.Store.Basic

/-!
Shelves: collections that several holders share. A collection on a shelf is known by its place; a
store made around it changes it for everybody who knows the place. Importing takes the records out
of the source before the first of them is set, so a collection can even be imported into itself.
-/

namespace LabelBook

/-- Collections by their places, counted from 0. -/
structure Shelf where
  collections : List Collection

/-- A store around a collection on a shelf. -/
structure SharedStore where
  place : Nat
  path : Path

namespace Shelf

/-- The shelf without collections. -/
def empty : Shelf := ⟨[]⟩

/-- The collection at a place; empty if there is none. -/
def get (s : Shelf) (i : Nat) : Collection := s.collections[i]?.getD .empty

/-- The shelf with another collection at a place. -/
def put (s : Shelf) (i : Nat) (c : Collection) : Shelf := ⟨s.collections.set i c⟩

/-- The shelf with one more collection, and its place. -/
def add (s : Shelf) (c : Collection) : Nat × Shelf :=
  (s.collections.length, ⟨s.collections ++ [c]⟩)

/-- What a store around a shared collection is at the moment. -/
def store (s : Shelf) (t : SharedStore) : Store := ⟨s.get t.place, t.path⟩

/-- The shelf after a collection has been changed. -/
def change (s : Shelf) (i : Nat) (f : Collection → Collection) : Shelf := s.put i (f (s.get i))

/-- The shelf after the records of the collection at `source` have been taken out and set in the
store one after another, and how many they were. -/
def merge (s : Shelf) (t : SharedStore) (source : Nat) : Shelf × Nat :=
  let (records, left) := (s.get source).drain
  ((s.put source left).change t.place fun c => c.setAll records, records.length)

end Shelf

end LabelBook
