import LabelBook.Text.Basic

/-!
The kinds of wallet entities that a label can be attached to, with their names in label files and
the names of the records that describe them.
-/

namespace LabelBook

/-- A kind of labelled entity. -/
inductive Kind where
  | transaction
  | address
  | publicKey
  | input
  | output
  | extendedKey
  deriving DecidableEq, Inhabited

namespace Kind

/-- All kinds, in the order in which messages list them. -/
def all : List Kind := [transaction, address, publicKey, input, output, extendedKey]

/-- The name of a kind in label files. -/
def name : Kind → Text
  | transaction => "tx"
  | address => "addr"
  | publicKey => "pubkey"
  | input => "input"
  | output => "output"
  | extendedKey => "xpub"

/-- The name of the record that describes an entity of a kind. -/
def recordName : Kind → Text
  | transaction => "TransactionRecord"
  | address => "AddressRecord"
  | publicKey => "PublicKeyRecord"
  | input => "InputRecord"
  | output => "OutputRecord"
  | extendedKey => "ExtendedPublicKeyRecord"

/-- The kind with a given name. -/
def ofName? (t : Text) : Option Kind := all.find? fun k => k.name = t

/-- The kinds whose references start with a transaction id. -/
def hasTransactionId : Kind → Bool
  | transaction | input | output => true
  | _ => false

theorem ofName?_name (k : Kind) : ofName? k.name = some k := by cases k <;> rfl

end Kind

end LabelBook
