import LabelBook.Record.Line

/-!
Collections of label records, in order. A collection may hold several records of one reference:
`append` keeps them all, `set` replaces the first of them, and `get?` finds the first of them.
-/

namespace LabelBook

/-- Records in order. -/
structure Collection where
  records : List Record

namespace Collection

/-- The collection without records. -/
def empty : Collection := ⟨[]⟩

/-- The number of records. -/
def size (c : Collection) : Nat := c.records.length

/-- Whether there are no records. -/
def isEmpty (c : Collection) : Bool := c.records.isEmpty

/-- The collection with a record behind the others. -/
def append (c : Collection) (r : Record) : Collection := ⟨c.records ++ [r]⟩

/-- Records with one in the place of the first that shares its reference, or behind them all. -/
def replaceFirst (r : Record) : List Record → List Record
  | [] => [r]
  | s :: rest => if s.reference = r.reference then r :: rest else s :: replaceFirst r rest

/-- The collection with a record in the place of the first that shares its reference, or behind the
others. -/
def set (c : Collection) (r : Record) : Collection := ⟨replaceFirst r c.records⟩

/-- The collection with records set one after another. -/
def setAll (c : Collection) (rs : List Record) : Collection := rs.foldl set c

/-- The first record of a reference. -/
def get? (c : Collection) (ref : Reference) : Option Record :=
  c.records.find? fun r => r.reference = ref

/-- The records, and what is left of the collection without them. -/
def drain (c : Collection) : List Record × Collection := (c.records, empty)

/-- The references of the records. -/
def references (c : Collection) : List Reference := c.records.map Record.reference

/-- Whether the records of two lists are equal one by one. -/
def sameRecords : List Record → List Record → Bool
  | [], [] => true
  | r :: rs, s :: ss => r.same s && sameRecords rs ss
  | _, _ => false

/-- Equality of collections: equal records in the same order. -/
def same (c d : Collection) : Bool := sameRecords c.records d.records

/-- A collection on display. -/
def display (c : Collection) : Text :=
  Text.concat ["Labels([", Text.joinWith ", " (c.records.map Record.display), "])"]

/-- The lines of some records, one after another. -/
def linesOf : List Record → Except WriteError Text
  | [] => .ok []
  | r :: rs =>
    match r.line with
    | .error e => .error e
    | .ok t => (linesOf rs).map (t ++ ·)

/-- The text of a collection in a label file: the lines of its records. -/
def text (c : Collection) : Except WriteError Text := linesOf c.records

end Collection

end LabelBook
