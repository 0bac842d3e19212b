import LabelBook.Datum
import LabelBook.Record.Basic
import LabelBook.Validation

/-!
Reading a record from the entries of a JSON object. Every field is checked, and all issues are
reported together; whether the identifier names an entity of the kind is looked at only when the
fields are in order. A text that is not well-formed spoils the whole object when it is a key. A list
of pairs can be read as well; a key in it that is no text is one issue more.
-/

namespace LabelBook

/-- A text without surrogates standing alone. -/
def Text.isWellFormed (t : Text) : Bool := !t.any CodePoint.isLone

/-- A text in which each surrogate standing alone shows as three replacement characters. -/
def Text.displayed (t : Text) : Text :=
  t.flatMap fun c => if c.isLone then List.replicate 3 (.scalar '\ufffd') else [c]

namespace Record

/-! ### Values of fields -/

/-- A text where one has to be. -/
def readText : Json → Except Violation Text
  | .string s => .ok s
  | _ => .error .noText

/-- A text, or null for none. -/
def readOptionalText : Json → Except Violation (Option Text)
  | .null => .ok none
  | v => (readText v).map some

/-- The words for true, in lower case. -/
def wordsForTrue : List Text := ["1", "t", "y", "on", "yes", "true"]

/-- The words for false, in lower case. -/
def wordsForFalse : List Text := ["0", "f", "n", "no", "off", "false"]

/-- An integer as a truth value. -/
def booleanOfInt (n : Int) : Except Violation Bool :=
  if n = 0 then .ok false else if n = 1 then .ok true else .error .unclearBoolean

/-- A truth value: itself, the numbers 0 and 1, or a word for one, in letters of any case. -/
def readBoolean : Json → Except Violation Bool
  | .bool b => .ok b
  | .int n => if isWord n then booleanOfInt n else .error .noBoolean
  | .float x =>
    match x.asInt? with
    | some n => if -wordBound < n ∧ n < wordBound then booleanOfInt n else .error .noBoolean
    | none => .error .noBoolean
  | .string s =>
    if !s.isWellFormed then .error .illFormedText
    else if wordsForTrue.contains s.lowerAscii then .ok true
    else if wordsForFalse.contains s.lowerAscii then .ok false
    else .error .unclearBoolean
  | _ => .error .noBoolean

/-- One of some words. -/
def readChoice (choices : List Text) : Json → Except Violation Text
  | .string s =>
    if !s.isWellFormed then .error .illFormedText
    else if choices.contains s then .ok s else .error (.noneOf choices)
  | _ => .error (.noneOf choices)

/-! ### Fields -/

/-- A field that may be left out. -/
def readField (name : Text) (absent : α) (read : Json → Except Violation α) (entries : Entries) :
    Except Issue α :=
  match entries.get? name with
  | none => .ok absent
  | some v => (read v).mapError fun e => ⟨[name], e⟩

/-- The identifier, in canonical spelling. -/
def readRef (k : Kind) (entries : Entries) : Except Issue Text :=
  match entries.get? "ref" with
  | none => .error ⟨["ref"], .missing⟩
  | some v => ((readText v).map k.normalize).mapError fun e => ⟨["ref"], e⟩

/-- The label. -/
def readLabel (entries : Entries) : Except Issue (Option Text) :=
  readField "label" none readOptionalText entries

/-- The name of the kind, which may be left out and can only be one. -/
def readType (k : Kind) (entries : Entries) : Except Issue Text :=
  readField "type" k.name (readChoice [k.name]) entries

/-- The body of a record of a given kind. -/
def readBody (entries : Entries) : Kind → Except Issue Body
  | .transaction => (readField "origin" none readOptionalText entries).map .transaction
  | .address => .ok .address
  | .publicKey => .ok .publicKey
  | .input => .ok .input
  | .output => (readField "spendable" true readBoolean entries).map .output
  | .extendedKey => .ok .extendedKey

/-- The names of the fields of a kind. -/
def fieldNames : Kind → List Text
  | .transaction => ["ref", "label", "type", "origin"]
  | .output => ["ref", "label", "type", "spendable"]
  | _ => ["ref", "label", "type"]

/-- The issue that a field met, if it met one. -/
def issueOf : Except Issue α → List Issue
  | .ok _ => []
  | .error i => [i]

/-- A record of fields that are in order, provided that the identifier fits the kind. -/
def build (body : Body) (ref : Text) (label : Option Text) (extras : Entries) :
    Except RefDefect Record :=
  match h : body.kind.defect? ref with
  | some d => .error d
  | none => .ok ⟨body, ref, label, extras, h⟩

/-- Whether every key is well-formed. -/
def hasWellFormedKeys (entries : Entries) : Bool := entries.all fun e => e.1.isWellFormed

/-- The issues of the fields of a record, one by one. -/
def fieldIssues (k : Kind) (entries : Entries) : List Issue :=
  issueOf (readRef k entries) ++ issueOf (readLabel entries) ++ issueOf (readType k entries) ++
    issueOf (readBody entries k)

/-- A record of a given kind, or all that is wrong with the entries. -/
def ofEntries (k : Kind) (entries : Entries) : Except (List Issue) Record :=
  if !hasWellFormedKeys entries then .error [⟨[], .illFormedText⟩]
  else
    match readRef k entries, readLabel entries, readType k entries, readBody entries k with
    | .ok ref, .ok label, .ok _, .ok body =>
      (build body ref label (entries.without (fieldNames k))).mapError fun d =>
        [⟨[], .refused d.message⟩]
    | _, _, _, _ => .error (fieldIssues k entries)

/-- A record of a given kind from entries that came with keys of other sorts: without such keys it is
that of the entries, and with them there is none. -/
def ofEntriesBeside (others : List Key) (k : Kind) (entries : Entries) :
    Except (List Issue) Record :=
  if others.isEmpty then ofEntries k entries
  else if !hasWellFormedKeys entries then .error [⟨[], .illFormedText⟩]
  else .error (fieldIssues k entries ++ others.map fun key => ⟨[Step.ofKey key], .strangeKey⟩)

/-- A record of a given kind. -/
def ofFields (k : Kind) (entries : Entries) : Except Rejection Record :=
  (ofEntries k entries).mapError fun issues => ⟨k.recordName, issues⟩

/-- The name under which a record of any kind is asked for. -/
def modelName : Text := "Label"

/-- A record of the kind that its entries name, read by a reader of that kind. -/
def ofNamedKind (read : Kind → Entries → Except (List Issue) Record) (entries : Entries) :
    Except Rejection Record :=
  let refuse (issues : List Issue) : Except Rejection Record := .error ⟨modelName, issues⟩
  match entries.get? "type" with
  | none => refuse [⟨[], .noTag "type"⟩]
  | some v =>
    let named := match v with
      | .string s => Kind.ofName? s
      | _ => none
    match named with
    | none => refuse [⟨[], .unknownTag "type" v.plain.displayed (Kind.all.map Kind.name)⟩]
    | some k => (read k entries).mapError fun issues => ⟨modelName, issues.map (·.under [k.name])⟩

/-- A record of the kind that its entries name. -/
def ofMapping (entries : Entries) : Except Rejection Record := ofNamedKind ofEntries entries

/-- A record of the kind that its pairs name. -/
def ofPairs (pairs : List (Key × Json)) : Except Rejection Record :=
  ofNamedKind (ofEntriesBeside (otherKeys pairs)) (textPairs pairs)

/-- What comes of giving another value to a field of a record: records do not change. -/
def assign (r : Record) (name : Text) : Rejection := ⟨r.kind.recordName, [⟨[name], .frozen⟩]⟩

/-- A record of a kind with a label, from the values a user gives; further fields override them. -/
def make (k : Kind) (ref label : Json) (fields : Entries) : Except Rejection Record :=
  ofMapping (Entries.putAll [("type", .string k.name), ("ref", ref), ("label", label)] fields)

end Record

end LabelBook
