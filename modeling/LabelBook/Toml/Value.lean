import LabelBook.Toml.Number

/-!
Values of TOML and the tables that hold them. A table is changed at the end of a way of keys; tables
that are missing on the way are made, and a list of tables stands for its last one. What an inline
table or an array holds is closed once it has been read.
-/

namespace LabelBook.Toml

/-- The entries of a table. -/
abbrev Fields := List (Text × Datum)

/-- Puts a value under a key: in the place of the key if it is there, else at the end. -/
def putField (key : Text) (value : Datum) : Fields → Fields
  | [] => [(key, value)]
  | (k, v) :: rest => if k = key then (k, value) :: rest else (k, v) :: putField key value rest

/-- Why a table cannot be changed. -/
inductive Obstacle where
  | noTable
  | occupied
  deriving DecidableEq

/-- Changes the table at the end of a way of keys. Whether a list of tables stands for its last one
is for `lists` to say. -/
def alter (lists : Bool) (change : Fields → Except Obstacle Fields) :
    (way : List Text) → Fields → Except Obstacle Fields
  | [], fields => change fields
  | k :: way, fields =>
    match Datum.get? k fields with
    | none => (alter lists change way []).map fun t => putField k (.table t) fields
    | some (.table inner) =>
      (alter lists change way inner).map fun t => putField k (.table t) fields
    | some (.array items) =>
      if lists then
        match items.getLast? with
        | some (.table inner) =>
          (alter lists change way inner).map fun t =>
            putField k (.array (items.dropLast ++ [.table t])) fields
        | _ => .error .noTable
      else .error .noTable
    | some _ => .error .noTable

/-- Gives a value to a key that has none. -/
def putFresh (key : Text) (value : Datum) (fields : Fields) : Except Obstacle Fields :=
  match Datum.get? key fields with
  | some _ => .error .occupied
  | none => .ok (putField key value fields)

/-- Adds an empty table to the list of tables under a key. -/
def pushTable (key : Text) (fields : Fields) : Except Obstacle Fields :=
  match Datum.get? key fields with
  | none => .ok (putField key (.array [.table []]) fields)
  | some (.array items) => .ok (putField key (.array (items ++ [.table []])) fields)
  | some _ => .error .noTable

/-- Whether a value is a table or an array, whose content is closed when it is given in line. -/
def isContainer : Datum → Bool
  | .array _ | .table _ => true
  | _ => false

/-- Whether a key lies at or below one of some closed keys. -/
def isClosed (closed : List (List Text)) (key : List Text) : Bool :=
  closed.any fun c => c.isPrefixOf key

/-- A key with its value; `value` reads the latter. -/
def pair (value : Text → Reading Datum) (s : Text) : Reading (List Text × Datum) :=
  match key s with
  | .error e => .error e
  | .ok (k, .scalar '=' :: rest) =>
    (value (skipGap rest)).map fun (v, rest) => ((k, v), rest)
  | .ok (_, rest) => fail .equals rest

/-- The items of an array from a first one on; `done` stand before them in reverse order, and `fuel`
bounds their number. -/
def items (value : Text → Reading Datum) : (fuel : Nat) → (done : List Datum) → Text →
    Reading (List Datum)
  | 0, _, s => fail .array s
  | fuel + 1, done, s =>
    match value s with
    | .error e => .error e
    | .ok (v, rest) =>
      match skipLines rest.length rest with
      | .error e => .error e
      | .ok (.scalar ']' :: rest) => .ok ((v :: done).reverse, rest)
      | .ok (.scalar ',' :: rest) =>
        match skipLines rest.length rest with
        | .error e => .error e
        | .ok (.scalar ']' :: rest) => .ok ((v :: done).reverse, rest)
        | .ok rest => items value fuel (v :: done) rest
      | .ok rest => fail .array rest

/-- An array whose bracket has been read. -/
def arrayBody (value : Text → Reading Datum) (s : Text) : Reading Datum :=
  match skipLines s.length s with
  | .error e => .error e
  | .ok (.scalar ']' :: rest) => .ok (.array [], rest)
  | .ok rest => (items value (rest.length + 1) [] rest).map fun (vs, rest) => (.array vs, rest)

/-- The fields of an inline table from a first one on; `fields` have been read, those at the keys
`closed` cannot be added to, and `fuel` bounds the number of pairs. -/
def members (value : Text → Reading Datum) : (fuel : Nat) → (closed : List (List Text)) →
    (fields : Fields) → Text → Reading Fields
  | 0, _, _, s => fail .inlineTable s
  | fuel + 1, closed, fields, s =>
    match pair value s with
    | .error e => .error e
    | .ok ((k, v), rest) =>
      if isClosed closed k then fail (.immutable k) rest
      else
        let stem := k.getLast?.getD []
        match alter false (putFresh stem v) k.dropLast fields with
        | .error .noTable => fail .overwritten rest
        | .error .occupied => fail (.duplicate stem) rest
        | .ok fields =>
          match skipGap rest with
          | .scalar '}' :: rest => .ok (fields, rest)
          | .scalar ',' :: rest =>
            members value fuel (if isContainer v then k :: closed else closed) fields (skipGap rest)
          | rest => fail .inlineTable rest

/-- An inline table whose brace has been read. -/
def tableBody (value : Text → Reading Datum) (s : Text) : Reading Datum :=
  match skipGap s with
  | .scalar '}' :: rest => .ok (.table [], rest)
  | rest => (members value (rest.length + 1) [] [] rest).map fun (es, rest) => (.table es, rest)

/-- A value that is neither a string nor a container. -/
def scalar (s : Text) : Reading Datum :=
  match s.dropStart? "true", s.dropStart? "false" with
  | some rest, _ => .ok (.bool true, rest)
  | none, some rest => .ok (.bool false, rest)
  | none, none =>
    match moment? s with
    | some r => r
    | none =>
      match basedInteger? s with
      | some (n, rest) => .ok (.int n, rest)
      | none =>
        match decimal? s with
        | some r => r
        | none =>
          match specialWords.findSome? fun w => (s.dropStart? w.1).map fun rest => (w.2, rest) with
          | some r => .ok r
          | none => fail .value s

/-- How much nesting is read: an array takes two of it, an inline table three. -/
def maxDepth : Nat := 960

/-- A value, with `depth` of the nesting left. -/
def value : (depth : Nat) → Text → Reading Datum
  | depth + 3, s =>
    match string? s with
    | some r => r.map fun (t, rest) => (.string t, rest)
    | none =>
      match s with
      | .scalar '[' :: rest => arrayBody (value (depth + 1)) rest
      | .scalar '\x7b' :: rest => tableBody (value depth) rest
      | _ => scalar s
  | _, _ => .error .tooDeep

end LabelBook.Toml
