import LabelBook.Number.Binary64

/-!
The shortest decimal text of a binary64 number: the fewest digits that read back as the same number,
and of these the nearest to it. Digits stand in place when the number is at least 10^-4 and less
than 10^16, and then a point is always there; otherwise one digit precedes the point and an exponent
of at least two digits follows.

    0.1  1.0  100000.0  1e-05  1e+16  5e-324
-/

namespace LabelBook.Binary64

/-- Decimal digits, the first of them of weight 10^exponent. -/
structure Digits where
  digits : List Char
  exponent : Int
  deriving DecidableEq

/-- `n · 10^g` as digits without trailing zeros. -/
def Digits.ofScaled (n : Nat) (g : Int) : Digits :=
  let ds := Nat.toDigits 10 n
  ⟨(ds.reverse.dropWhile (· == '0')).reverse, g + ds.length - 1⟩

/-- The reals that round to m · 2^e, as multiples of 1 / (4 · den): the number itself, the ends of
the interval, and whether they belong to it. -/
structure Interval where
  value : Nat
  lower : Nat
  upper : Nat
  den : Nat
  closed : Bool

/-- The interval of m · 2^e for a positive m. -/
def interval (m : Nat) (e : Int) : Interval :=
  let s := ratio m e
  let unit := if 0 ≤ e then Nat.pow 2 e.toNat else 1
  let below := if m = Nat.pow 2 52 ∧ -1074 < e then unit else 2 * unit
  ⟨4 * s.1, 4 * s.1 - below, 4 * s.1 + 2 * unit, 4 * s.2, m % 2 = 0⟩

/-- Whether `c · 10^g` lies in an interval. -/
def Interval.holds (i : Interval) (c : Nat) (g : Int) : Bool :=
  let left := if 0 ≤ g then c * Nat.pow 10 g.toNat * i.den else c * i.den
  let scale := if 0 ≤ g then 1 else Nat.pow 10 (-g).toNat
  if i.closed then i.lower * scale ≤ left && left ≤ i.upper * scale
  else i.lower * scale < left && left < i.upper * scale

/-- The point of the grid 10^g in an interval that is nearest to the value, if there is one; it is
one of the two around the value. -/
def Interval.nearest? (i : Interval) (g : Int) : Option Nat :=
  let s := scaleDown 10 i.value i.den g
  let c := s.1 / s.2
  let r := s.1 % s.2
  let first := if 2 * r < s.2 ∨ (2 * r = s.2 ∧ c % 2 = 0) then c else c + 1
  let second := if first = c then c + 1 else c
  if i.holds first g then some first else if i.holds second g then some second else none

/-- The digits on the coarsest grid that has a point in the interval; `tries` grids are tried, the
first with points 10^g apart. -/
def Interval.coarsest (i : Interval) (g : Int) : (tries : Nat) → Digits
  | 0 => .ofScaled (i.value / i.den) 0
  | tries + 1 =>
    match i.nearest? g with
    | some c => .ofScaled c g
    | none => i.coarsest (g - 1) tries

/-- The shortest digits of m · 2^e for a positive m. -/
def shortest (m : Nat) (e : Int) : Digits :=
  let s := ratio m e
  let k := floorLog 10 s.1 s.2 ((digitCount s.1 : Int) - digitCount s.2)
  (interval m e).coarsest k 18

/-- Digits with a point in place. -/
def Digits.positional (d : Digits) : Text :=
  let n := d.digits.length
  let zeros (k : Nat) : List Char := List.replicate k '0'
  Text.ofChars <|
    if d.exponent < 0 then ['0', '.'] ++ zeros (-d.exponent - 1).toNat ++ d.digits
    else
      let whole := d.exponent.toNat + 1
      if n ≤ whole then d.digits ++ zeros (whole - n) ++ ['.', '0']
      else d.digits.take whole ++ ['.'] ++ d.digits.drop whole

/-- An exponent with its sign and at least two digits. -/
def exponentText (e : Int) : Text :=
  Text.concat [if e < 0 then "-" else "+", Text.padded 2 e.natAbs]

/-- Digits with one of them before the point, and an exponent. -/
def Digits.scientific (d : Digits) : Text :=
  let fraction := d.digits.drop 1
  Text.concat [Text.ofChars (d.digits.take 1),
    if fraction.isEmpty then [] else Text.ofChars ('.' :: fraction), "e", exponentText d.exponent]

/-- Digits in place from 10^-4 up to 10^16, with an exponent otherwise. -/
def Digits.text (d : Digits) : Text :=
  if -4 ≤ d.exponent ∧ d.exponent < 16 then d.positional else d.scientific

/-- The sign of a number, shown when negative. -/
def signText (negative : Bool) : Text := if negative then "-" else ""

/-- The shortest text of a number, given the words for infinity and for what is not a number. -/
def text (infinity notANumber : Text) : Binary64 → Text
  | finite negative m e _ =>
    let magnitude : Text := if m = 0 then "0.0" else (shortest m e).text
    signText negative ++ magnitude
  | infinite negative => signText negative ++ infinity
  | nan => notANumber

end LabelBook.Binary64
