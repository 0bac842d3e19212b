import LabelBook.Text.Utf8

/-!
Texts in units of two or four octets (UTF-16 and UTF-32), in either order of octets, and the guess
of the encoding from the first octets of a JSON text: a byte order mark decides; else the place of
the zero octets does, since a JSON text starts with ASCII. Surrogates are let through.
-/

namespace LabelBook

/-- The order of the octets in a unit. -/
inductive OctetOrder where
  | big
  | little
  deriving DecidableEq

/-- The ways a JSON text can be encoded. -/
inductive Encoding where
  | utf8
  | utf16 (order : OctetOrder)
  | utf32 (order : OctetOrder)
  deriving DecidableEq

namespace Encoding

/-- The name of an encoding in an error text. -/
def name : Encoding → Text
  | utf8 => "utf-8"
  | utf16 .big => "utf-16-be"
  | utf16 .little => "utf-16-le"
  | utf32 .big => "utf-32-be"
  | utf32 .little => "utf-32-le"

/-- The encoding of a JSON text, and how many octets of byte order mark precede it. -/
def guess (octets : Octets) : Encoding × Nat :=
  match octets with
  | 0x00 :: 0x00 :: 0xFE :: 0xFF :: _ => (utf32 .big, 4)
  | 0xFF :: 0xFE :: 0x00 :: 0x00 :: _ => (utf32 .little, 4)
  | 0xFE :: 0xFF :: _ => (utf16 .big, 2)
  | 0xFF :: 0xFE :: _ => (utf16 .little, 2)
  | 0xEF :: 0xBB :: 0xBF :: _ => (utf8, 3)
  | [a, b] =>
    if a = 0 then (utf16 .big, 0) else if b = 0 then (utf16 .little, 0) else (utf8, 0)
  | a :: b :: c :: d :: _ =>
    if a = 0 then (if b = 0 then utf32 .big else utf16 .big, 0)
    else if b = 0 then (if c = 0 ∧ d = 0 then utf32 .little else utf16 .little, 0)
    else (utf8, 0)
  | _ => (utf8, 0)

/-- The number that octets in a given order spell. -/
def unit (order : OctetOrder) (octets : Octets) : Nat :=
  let ordered := match order with
    | .big => octets
    | .little => octets.reverse
  ordered.foldl (fun n (b : UInt8) => n * 256 + b.toNat) 0

/-- The text of two-octet units; `position` octets precede them, `done` has the code points so far,
last one first. -/
def decode16 (order : OctetOrder) (position : Nat) (done : Text) :
    Octets → Except Utf8.DecodeError Text
  | [] => .ok done.reverse
  | [a] => .error ⟨(utf16 order).name, position, 1, a, .truncated⟩
  | a :: b :: rest =>
    let u := unit order [a, b]
    let joined : Option CodePoint :=
      match done with
      | .lone n :: _ =>
        if n.val < 0x400 ∧ 0xDC00 ≤ u ∧ u < 0xE000 then
          some (.ofNat (0x10000 + n.val * 0x400 + (u - 0xDC00)))
        else none
      | _ => none
    match joined with
    | some c => decode16 order (position + 2) (c :: done.tail) rest
    | none => decode16 order (position + 2) (.ofNat u :: done) rest

/-- The text of four-octet units; `position` octets precede them, `done` has the code points so far,
last one first. -/
def decode32 (order : OctetOrder) (position : Nat) (done : Text) :
    Octets → Except Utf8.DecodeError Text
  | [] => .ok done.reverse
  | a :: b :: c :: d :: rest =>
    let u := unit order [a, b, c, d]
    if u < 0x110000 then decode32 order (position + 4) (.ofNat u :: done) rest
    else .error ⟨(utf32 order).name, position, 4, a, .outOfRange⟩
  | a :: rest => .error ⟨(utf32 order).name, position, rest.length + 1, a, .truncated⟩

/-- The text of the octets of a JSON document. -/
def decodeDocument (octets : Octets) : Except Utf8.DecodeError Text :=
  let (encoding, mark) := guess octets
  match encoding with
  | utf8 => Utf8.decodeLenient (octets.drop mark)
  | utf16 order => decode16 order mark [] (octets.drop mark)
  | utf32 order => decode32 order mark [] (octets.drop mark)

end Encoding

end LabelBook
