import LabelBook.Json.Basic
import LabelBook.Reference

/-!
Label records. A record attaches a label to a reference and carries what its kind adds: the origin of
a transaction, the spendability of an output. Entries of other names are kept as they came, in
their order. A record always names an entity of its kind.
-/

namespace LabelBook

/-- The part of a record that depends on its kind. -/
inductive Body where
  | transaction (origin : Option Text)
  | address
  | publicKey
  | input
  | output (spendable : Bool)
  | extendedKey
  deriving DecidableEq, Inhabited

namespace Body

/-- The kind that a body belongs to. -/
def kind : Body → Kind
  | transaction _ => .transaction
  | address => .address
  | publicKey => .publicKey
  | input => .input
  | output _ => .output
  | extendedKey => .extendedKey

end Body

/-- A label record: `ref` names an entity of the kind, `label` is its text if it has one, `extras`
are the entries without a meaning of their own. -/
structure Record where
  body : Body
  ref : Text
  label : Option Text
  extras : Entries
  sound : body.kind.defect? ref = none

namespace Record

/-- The kind of the labelled entity. -/
def kind (r : Record) : Kind := r.body.kind

/-- What a record is attached to. -/
def reference (r : Record) : Reference := .of r.kind r.ref

/-- Equality of records: the same fields, and equal further entries in any order. -/
def same (r s : Record) : Bool :=
  r.body == s.body && r.ref == s.ref && r.label == s.label &&
    (Json.object r.extras).same (.object s.extras)

end Record

end LabelBook
