/-!
Text as the library sees it: a list of code points. A code point is a Unicode scalar value or a
surrogate standing alone; the latter has no place in a well-formed `String`, yet an escape in JSON
can spell it, and a label may carry it until something tries to write it as UTF-8.

    plain text   "abc"       ↦  scalar 'a', scalar 'b', scalar 'c'
    "\ud800"     (escaped)   ↦  lone 0
-/

namespace LabelBook

/-- A Unicode scalar value, or a surrogate on its own (`lone n` is U+D800 + n). -/
inductive CodePoint where
  | scalar (c : Char)
  | lone (n : Fin 2048)
  deriving DecidableEq, Inhabited

namespace CodePoint

/-- The number of a code point. -/
def toNat : CodePoint → Nat
  | scalar c => c.toNat
  | lone n => 0xD800 + n.val

/-- The code point with a given number; numbers beyond U+10FFFF give U+0000. -/
def ofNat (n : Nat) : CodePoint :=
  if h : 0xD800 ≤ n ∧ n < 0xE000 then lone ⟨n - 0xD800, by omega⟩ else scalar (Char.ofNat n)

/-- A surrogate standing alone. -/
def isLone : CodePoint → Bool
  | scalar _ => false
  | lone _ => true

/-- A digit of the ASCII range. -/
def isDigit : CodePoint → Bool
  | scalar c => c.isDigit
  | lone _ => false

/-- The value of a hexadecimal digit of the ASCII range, in either case. -/
def hexValue? (c : CodePoint) : Option Nat :=
  let n := c.toNat
  if 0x30 ≤ n ∧ n ≤ 0x39 then some (n - 0x30)
  else if 0x61 ≤ n ∧ n ≤ 0x66 then some (n - 0x61 + 10)
  else if 0x41 ≤ n ∧ n ≤ 0x46 then some (n - 0x41 + 10)
  else none

/-- A hexadecimal digit of the ASCII range, in either case. -/
def isHex (c : CodePoint) : Bool := c.hexValue?.isSome

end CodePoint

/-- A text: a list of code points. -/
abbrev Text := List CodePoint

namespace Text

/-- The code points of a string. -/
def ofString (s : String) : Text := s.toList.map .scalar

instance : Coe String Text := ⟨ofString⟩

/-- Code points given as characters. -/
def ofChars (cs : List Char) : Text := cs.map .scalar

/-- The texts of a list, one after another. -/
def concat (parts : List Text) : Text := parts.flatten

/-- The texts of a list with a separator between neighbours. -/
def joinWith (separator : Text) : List Text → Text
  | [] => []
  | [t] => t
  | t :: ts => t ++ separator ++ joinWith separator ts

theorem joinWith_cons_cons (separator t u : Text) (us : List Text) :
    joinWith separator (t :: u :: us) = t ++ separator ++ joinWith separator (u :: us) := rfl

/-- The parts between the code points that satisfy `p`, empty ones included. -/
def splitOn (p : CodePoint → Bool) : Text → List Text
  | [] => [[]]
  | c :: cs =>
    if p c then [] :: splitOn p cs
    else match splitOn p cs with
      | [] => [[c]]
      | t :: ts => (c :: t) :: ts

/-- The rest of a text after a given beginning, if it begins so. -/
def dropStart? : Text → (beginning : Text) → Option Text
  | t, [] => some t
  | [], _ :: _ => none
  | c :: cs, b :: bs => if b = c then dropStart? cs bs else none

/-- Whether a text begins with another. -/
def startsWith (t beginning : Text) : Bool := (t.dropStart? beginning).isSome

/-- A natural number in decimal. -/
def ofNat (n : Nat) : Text := ofChars (Nat.toDigits 10 n)

/-- An integer in decimal, with a leading minus when negative. -/
def ofInt : Int → Text
  | .ofNat n => ofNat n
  | .negSucc n => .scalar '-' :: ofNat (n + 1)

/-- The value of a run of decimal digits; anything that is no digit counts as its distance to 0. -/
def digitsValue (t : Text) : Nat := t.foldl (fun n c => n * 10 + (c.toNat - 0x30)) 0

/-- A natural number in lower-case hexadecimal, padded with zeros to a least width. -/
def hex (width : Nat) (n : Nat) : Text :=
  let digits := Nat.toDigits 16 n
  ofChars (List.replicate (width - digits.length) '0' ++ digits)

/-- A natural number in decimal, padded with zeros to a least width. -/
def padded (width : Nat) (n : Nat) : Text :=
  let digits := Nat.toDigits 10 n
  ofChars (List.replicate (width - digits.length) '0' ++ digits)

/-- The order of texts by code point. -/
def lt : Text → Text → Bool
  | _, [] => false
  | [], _ :: _ => true
  | a :: as, b :: bs =>
    if a.toNat < b.toNat then true else if b.toNat < a.toNat then false else lt as bs

/-- A letter of the ASCII range in lower case; every other code point as it is. -/
def lowerAscii (t : Text) : Text :=
  t.map fun
    | .scalar c => .scalar c.toLower
    | c => c

end Text

end LabelBook
