import LabelBook.Toml.Value

/-!
TOML documents: lines with a key and its value, and headers that say which table the lines after
them belong to. A table is declared once; keys with points in them open tables that a header can no
longer declare afterwards.
-/

namespace LabelBook.Toml

/-- A document that is being read: its fields so far, the table that lines belong to, the keys whose
content is closed, the keys that headers cannot declare again, and those that will be among them
from the next header on. -/
structure Document where
  fields : Fields
  header : List Text
  closed : List (List Text)
  declared : List (List Text)
  pending : List (List Text)

namespace Document

/-- The document before its first line. -/
def empty : Document := ⟨[], [], [], [], []⟩

/-- The beginnings of a key behind the header, the whole key left out. -/
def openings (header key : List Text) : List (List Text) :=
  (List.range (key.length - 1)).map fun i => header ++ key.take (i + 1)

/-- The document with a value under a key; `rest` follows the value. -/
def addPair (d : Document) (key : List Text) (v : Datum) (rest : Text) : Except Fault Document :=
  let way := d.header ++ key.dropLast
  let opened := openings d.header key
  match opened.find? fun k => d.declared.contains k with
  | some k => fail (.redefined k) rest
  | none =>
    if isClosed d.closed way then fail (.immutable way) rest
    else match alter true (putFresh (key.getLast?.getD []) v) way d.fields with
      | .error _ => fail .overwritten rest
      | .ok fields =>
        .ok { d with
          fields := fields
          pending := opened ++ d.pending
          closed := if isContainer v then (d.header ++ key) :: d.closed else d.closed }

/-- The document at a header: what was pending is declared. -/
def settle (d : Document) : Document :=
  { d with declared := d.pending ++ d.declared, pending := [] }

/-- The document with a table declared; `rest` follows its key. -/
def addTable (d : Document) (key : List Text) (rest : Text) : Except Fault Document :=
  if d.declared.contains key || isClosed d.closed key then fail (.declaredTwice key) rest
  else match alter true .ok key d.fields with
    | .error _ => fail .overwritten rest
    | .ok fields =>
      .ok { d with fields := fields, header := key, declared := key :: d.declared }

/-- The document with one more table in a list of tables; `rest` follows its key. The keys below the
list are free again. -/
def addToList (d : Document) (key : List Text) (rest : Text) : Except Fault Document :=
  if isClosed d.closed key then fail (.immutable key) rest
  else match alter true (pushTable (key.getLast?.getD [])) key.dropLast d.fields with
    | .error _ => fail .overwritten rest
    | .ok fields =>
      .ok { d with
        fields := fields
        header := key
        closed := d.closed.filter fun k => !key.isPrefixOf k
        declared := key :: d.declared.filter fun k => !key.isPrefixOf k }

/-- The document after a header; the text starts after its first bracket. -/
def readHeader (d : Document) (s : Text) : Except Fault (Document × Text) :=
  let d := d.settle
  match s with
  | .scalar '[' :: s =>
    match key (skipGap s) with
    | .error e => .error e
    | .ok (k, rest) =>
      match d.addToList k rest, rest with
      | .error e, _ => .error e
      | .ok d, .scalar ']' :: .scalar ']' :: rest => .ok (d, rest)
      | .ok _, rest => fail .listEnd rest
  | s =>
    match key (skipGap s) with
    | .error e => .error e
    | .ok (k, rest) =>
      match d.addTable k rest, rest with
      | .error e, _ => .error e
      | .ok d, .scalar ']' :: rest => .ok (d, rest)
      | .ok _, rest => fail .tableEnd rest

/-- A code point that a key can start with. -/
def startsKey (c : CodePoint) : Bool := isBare c || c == .scalar '"' || c == .scalar '\''

/-- The document after a statement, up to a comment or the end of the line. -/
def readStatement (d : Document) (s : Text) : Except Fault (Document × Text) :=
  match s with
  | [] => .ok (d, [])
  | .scalar '[' :: rest => d.readHeader rest
  | c :: _ =>
    if startsKey c then
      match pair (value maxDepth) s with
      | .error e => .error e
      | .ok ((k, v), rest) => (d.addPair k v rest).map fun d => (d, rest)
    else if c == .scalar '#' then .ok (d, s)
    else fail .statement s

/-- The document after the lines of a text; `fuel` bounds their number. -/
def readLines : (fuel : Nat) → Document → Text → Except Fault Document
  | 0, d, _ => .ok d
  | fuel + 1, d, s =>
    match skipGap s with
    | [] => .ok d
    | .scalar '\n' :: rest => readLines fuel d rest
    | s =>
      match d.readStatement s with
      | .error e => .error e
      | .ok (d, rest) =>
        match skipComment (skipGap rest) with
        | .error e => .error e
        | .ok [] => .ok d
        | .ok (.scalar '\n' :: rest) => readLines fuel d rest
        | .ok rest => fail .statementEnd rest

end Document

/-- A text with a line feed for every carriage return that one follows. -/
def singleLineFeeds : Text → Text
  | .scalar '\r' :: .scalar '\n' :: s => .scalar '\n' :: singleLineFeeds s
  | c :: s => c :: singleLineFeeds s
  | [] => []

/-- Reads a document as a table. -/
def parse (s : Text) : Except ParseError Datum :=
  let s := singleLineFeeds s
  match Document.readLines (s.length + 1) .empty s with
  | .ok d => .ok (.table d.fields)
  | .error e => .error (e.locate s)

end LabelBook.Toml
