import LabelBook.Text.Basic

/-!
UTF-8, strict in both directions. Writing fails at the first surrogate; reading fails at the first
octet that cannot stand where it does, and says why: no sequence starts with it, an octet after it
is no continuation, or the octets end inside a sequence.

A lenient reader takes the three octets of a surrogate for that surrogate; a lenient writer turns
U+DC80 to U+DCFF, which stand for single octets in file names, into these octets.
-/

namespace LabelBook

/-- A sequence of octets, such as the content of a file. -/
abbrev Octets := List UInt8

namespace Utf8

/-- Code points that have no UTF-8 form: a run of surrogates at `first` to `last`, counted from 0. -/
structure EncodeError where
  first : Nat
  last : Nat
  codePoint : CodePoint
  deriving DecidableEq

/-- The text of an encoding error. -/
def EncodeError.message (e : EncodeError) : Text :=
  if e.first = e.last then
    Text.concat ["'utf-8' codec can't encode character '\\u", Text.hex 4 e.codePoint.toNat,
      "' in position ", Text.ofNat e.first, ": surrogates not allowed"]
  else
    Text.concat ["'utf-8' codec can't encode characters in position ", Text.ofNat e.first, "-",
      Text.ofNat e.last, ": surrogates not allowed"]

/-- The octets of a character. -/
def ofChar (c : Char) : Octets := String.utf8EncodeChar c

/-- The octet that a surrogate stands for in a file name. -/
def escapedOctet? (n : Fin 2048) : Option UInt8 :=
  if 0x480 ≤ n.val ∧ n.val < 0x500 then some (UInt8.ofNat (n.val - 0x400)) else none

/-- The octets of a text whose code points before it number `position`. -/
def encodeFrom (lenient : Bool) (position : Nat) (written : Octets) :
    Text → Except EncodeError Octets
  | [] => .ok written.reverse
  | .scalar c :: rest => encodeFrom lenient (position + 1) ((ofChar c).reverseAux written) rest
  | .lone n :: rest =>
    match if lenient then escapedOctet? n else none with
    | some b => encodeFrom lenient (position + 1) (b :: written) rest
    | none =>
      .error ⟨position, position + (rest.takeWhile CodePoint.isLone).length, .lone n⟩

/-- The octets of a text. -/
def encode (t : Text) : Except EncodeError Octets := encodeFrom false 0 [] t

/-- The octets of a file name. -/
def encodeName (t : Text) : Except EncodeError Octets := encodeFrom true 0 [] t

/-- Why octets cannot be read. -/
inductive Flaw where
  | invalidStart
  | invalidContinuation
  | unexpectedEnd
  | truncated
  | outOfRange
  deriving DecidableEq

/-- The words for a flaw. -/
def Flaw.message : Flaw → Text
  | invalidStart => "invalid start byte"
  | invalidContinuation => "invalid continuation byte"
  | unexpectedEnd => "unexpected end of data"
  | truncated => "truncated data"
  | outOfRange => "code point not in range(0x110000)"

/-- Octets that cannot be read: `length` of them at `position`, the first of which is `octet`. -/
structure DecodeError where
  codec : Text
  position : Nat
  length : Nat
  octet : UInt8
  flaw : Flaw
  deriving DecidableEq

/-- The text of a decoding error. -/
def DecodeError.message (e : DecodeError) : Text :=
  Text.concat ["'", e.codec, "' codec can't decode ",
    if e.length = 1 then
      Text.concat ["byte 0x", Text.hex 2 e.octet.toNat, " in position ", Text.ofNat e.position]
    else
      Text.concat ["bytes in position ", Text.ofNat e.position, "-",
        Text.ofNat (e.position + e.length - 1)],
    ": ", e.flaw.message]

/-- What the octets at some place turn out to be: a code point with the number of octets that
follow its first one, or a flaw with the number of octets at fault. -/
inductive Reading where
  | code (c : CodePoint) (following : Nat)
  | flaw (why : Flaw) (length : Nat)

/-- A continuation octet. -/
def isContinuation (b : UInt8) : Bool := 0x80 ≤ b.toNat && b.toNat < 0xC0

/-- The six bits of a continuation octet. -/
def low (b : UInt8) : Nat := b.toNat % 0x40

/-- Reads a sequence of three octets whose first is `a`. -/
def readThree (lenient : Bool) (a : Nat) (rest : Octets) : Reading :=
  let second (b : UInt8) : Bool :=
    isContinuation b && !(a == 0xE0 && b.toNat < 0xA0) && (lenient || !(a == 0xED && 0xA0 ≤ b.toNat))
  match rest with
  | [] => .flaw .unexpectedEnd 1
  | [b] =>
    if second b && !(a == 0xED && 0xA0 ≤ b.toNat) then .flaw .unexpectedEnd 2
    else .flaw .invalidContinuation 1
  | b :: c :: _ =>
    if !second b then .flaw .invalidContinuation 1
    else if isContinuation c then .code (.ofNat (a % 0x10 * 0x1000 + low b * 0x40 + low c)) 2
    else if a == 0xED && 0xA0 ≤ b.toNat then .flaw .invalidContinuation 1
    else .flaw .invalidContinuation 2

/-- Reads a sequence of four octets whose first is `a`. -/
def readFour (a : Nat) (rest : Octets) : Reading :=
  let second (b : UInt8) : Bool :=
    isContinuation b && !(a == 0xF0 && b.toNat < 0x90) && !(a == 0xF4 && 0x90 ≤ b.toNat)
  match rest with
  | [] => .flaw .unexpectedEnd 1
  | b :: rest =>
    if !second b then .flaw .invalidContinuation 1
    else match rest with
      | [] => .flaw .unexpectedEnd 2
      | c :: rest =>
        if !isContinuation c then .flaw .invalidContinuation 2
        else match rest with
          | [] => .flaw .unexpectedEnd 3
          | d :: _ =>
            if !isContinuation d then .flaw .invalidContinuation 3
            else .code (.ofNat (a % 8 * 0x40000 + low b * 0x1000 + low c * 0x40 + low d)) 3

/-- Reads the code point at the front of non-empty octets. -/
def readOne (lenient : Bool) (a : UInt8) (rest : Octets) : Reading :=
  let n := a.toNat
  if n < 0x80 then .code (.ofNat n) 0
  else if n < 0xC2 then .flaw .invalidStart 1
  else if n < 0xE0 then
    match rest with
    | [] => .flaw .unexpectedEnd 1
    | b :: _ =>
      if isContinuation b then .code (.ofNat (n % 0x20 * 0x40 + low b)) 1
      else .flaw .invalidContinuation 1
  else if n < 0xF0 then readThree lenient n rest
  else if n < 0xF5 then readFour n rest
  else .flaw .invalidStart 1

/-- The text of octets before which `position` octets gave the code points `done`, last one first. -/
def decodeFrom (lenient : Bool) (position : Nat) (done : Text) (octets : Octets) :
    Except DecodeError Text :=
  match octets with
  | [] => .ok done.reverse
  | a :: rest =>
    match readOne lenient a rest with
    | .code c k => decodeFrom lenient (position + 1 + k) (c :: done) (rest.drop k)
    | .flaw why length => .error ⟨"utf-8", position, length, a, why⟩
termination_by octets.length
decreasing_by simp only [List.length_drop, List.length_cons]; omega

/-- The text of octets. -/
def decode (octets : Octets) : Except DecodeError Text := decodeFrom false 0 [] octets

/-- The text of octets, surrogates let through. -/
def decodeLenient (octets : Octets) : Except DecodeError Text := decodeFrom true 0 [] octets

end Utf8

end LabelBook
