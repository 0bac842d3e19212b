import LabelBook.Kind
import LabelBook.Text.LowerCase
import LabelBook.Text.Quoted

/-!
References: what a label is attached to, a kind with an identifier of that kind. A transaction is
named by 64 hexadecimal digits, one of its inputs or outputs by these digits, a colon and an index;
identifiers of other kinds are free but for the empty one. The case of hexadecimal digits makes no
difference, so identifiers of the first three kinds are kept in lower case.
-/

namespace LabelBook

/-- Why an identifier does not name an entity of a kind. -/
inductive RefDefect where
  | empty (kind : Kind)
  | transactionId (ref : Text)
  | outpoint (kind : Kind) (ref : Text)
  deriving DecidableEq

/-- The text of a defect. -/
def RefDefect.message : RefDefect → Text
  | empty kind => Text.concat [kind.name, " reference must not be empty"]
  | transactionId ref => Text.concat ["invalid transaction id: ", ref.quoted]
  | outpoint kind ref =>
    Text.concat ["invalid ", kind.name, " reference (expected txid:vout): ", ref.quoted]

namespace Kind

/-- The number of hexadecimal digits of a transaction id. -/
def idLength : Nat := 64

/-- A transaction id. -/
def isTransactionId (t : Text) : Bool := t.length == idLength && t.all CodePoint.isHex

/-- A transaction id, a colon and an index in decimal. -/
def isOutpoint (t : Text) : Bool :=
  match t.drop idLength with
  | .scalar ':' :: index =>
    isTransactionId (t.take idLength) && !index.isEmpty && index.all CodePoint.isDigit
  | _ => false

/-- What is wrong with an identifier of a kind. -/
def defect? (k : Kind) (ref : Text) : Option RefDefect :=
  if ref.isEmpty then some (.empty k)
  else match k with
    | transaction => if isTransactionId ref then none else some (.transactionId ref)
    | input | output => if isOutpoint ref then none else some (.outpoint k ref)
    | address | publicKey | extendedKey => none

/-- The identifier itself if it names an entity of the kind. -/
def validate (k : Kind) (ref : Text) : Except RefDefect Text :=
  match k.defect? ref with
  | some d => .error d
  | none => .ok ref

/-- The canonical spelling of an identifier: in lower case if it starts with a transaction id. -/
def normalize (k : Kind) (ref : Text) : Text := if k.hasTransactionId then ref.lower else ref

end Kind

/-- What a label is attached to. -/
structure Reference where
  kind : Kind
  ref : Text
  deriving DecidableEq, Inhabited

namespace Reference

/-- The reference that an identifier in any spelling gives. -/
def of (kind : Kind) (ref : Text) : Reference := ⟨kind, kind.normalize ref⟩

/-- Kind and identifier with a colon. -/
def text (r : Reference) : Text := Text.concat [r.kind.name, ":", r.ref]

end Reference

end LabelBook
