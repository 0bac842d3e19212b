import LabelBook.Text.Basic

/-!
Binary floating-point numbers with a significand of 53 bits, kept exactly: a finite one is
±m · 2^e. Numbers are built by rounding an exact quotient to the nearest one, ties to even, so two
finite numbers are the same number exactly when their parts agree (zeros aside).
-/

namespace LabelBook

/-- The parts of a finite number: m < 2^53 and -1074 ≤ e ≤ 971, with 2^52 ≤ m unless e = -1074. -/
def FitsBinary64 (m : Nat) (e : Int) : Prop :=
  m < Nat.pow 2 53 ∧ -1074 ≤ e ∧ e ≤ 971 ∧ (Nat.pow 2 52 ≤ m ∨ e = -1074)

instance (m : Nat) (e : Int) : Decidable (FitsBinary64 m e) :=
  inferInstanceAs (Decidable (_ ∧ _))

/-- A binary64 number; a finite one is ±m · 2^e. -/
inductive Binary64 where
  | finite (negative : Bool) (m : Nat) (e : Int) (fits : FitsBinary64 m e)
  | infinite (negative : Bool)
  | nan
  deriving DecidableEq

/-- A quotient rounded to the nearest natural number, ties to even. -/
def roundHalfEven (num den : Nat) : Nat :=
  let q := num / den
  let r := num % den
  if 2 * r < den then q else if den < 2 * r then q + 1 else q + q % 2

/-- The quotient `num / (den · base^e)` as numerator and denominator. -/
def scaleDown (base num den : Nat) (e : Int) : Nat × Nat :=
  if 0 ≤ e then (num, den * Nat.pow base e.toNat) else (num * Nat.pow base (-e).toNat, den)

/-- The greatest k with base^k ≤ num / den, if `upper` is that k or one more. -/
def floorLog (base num den : Nat) (upper : Int) : Int :=
  let s := scaleDown base num den upper
  if s.2 ≤ s.1 then upper else upper - 1

/-- The number of decimal digits of a natural number. -/
def digitCount (n : Nat) : Nat := (Nat.toDigits 10 n).length

namespace Binary64

/-- Zero, with a sign. -/
def zero (negative : Bool) : Binary64 := .finite negative 0 (-1074) (by decide)

instance : Inhabited Binary64 := ⟨zero false⟩

/-- The number nearest to `num / den`, infinite if that is too large. -/
def ofRatio (negative : Bool) (num den : Nat) : Binary64 :=
  if num = 0 ∨ den = 0 then zero negative
  else
    let k := floorLog 2 num den ((num.log2 : Int) - den.log2)
    let e := max (k - 52) (-1074)
    let s := scaleDown 2 num den e
    let m := roundHalfEven s.1 s.2
    let (m, e) := if m = Nat.pow 2 53 then (Nat.pow 2 52, e + 1) else (m, e)
    if fits : FitsBinary64 m e then .finite negative m e fits else .infinite negative

/-- The number nearest to ±digits · 10^exponent. -/
def ofDecimal (negative : Bool) (digits : Nat) (exponent : Int) : Binary64 :=
  if digits = 0 then zero negative
  else
    let magnitude := digitCount digits + exponent
    if 310 < magnitude then .infinite negative
    else if magnitude < -330 then zero negative
    else
      let s := scaleDown 10 digits 1 (-exponent)
      ofRatio negative s.1 s.2

/-- The number nearest to an integer. -/
def ofInt (n : Int) : Binary64 := ofRatio (n < 0) n.natAbs 1

/-- Neither infinite nor not a number. -/
def isFinite : Binary64 → Bool
  | finite .. => true
  | _ => false

/-- The magnitude of ±m · 2^e as a quotient. -/
def ratio (m : Nat) (e : Int) : Nat × Nat := scaleDown 2 m 1 (-e)

/-- The integer part of a finite number, fraction dropped. -/
def truncate? : Binary64 → Option Int
  | finite negative m e _ =>
    let s := ratio m e
    let q : Int := (s.1 / s.2 : Nat)
    some (if negative then -q else q)
  | _ => none

/-- The integer that a number equals, if there is one. -/
def asInt? : Binary64 → Option Int
  | x@(finite _ m e _) =>
    let s := ratio m e
    if s.1 % s.2 = 0 then x.truncate? else none
  | _ => none

/-- Equality of values: zeros of either sign are equal, and what is not a number equals itself. -/
def same : Binary64 → Binary64 → Bool
  | finite n m e _, finite n' m' e' _ => (m == 0 && m' == 0) || (n == n' && m == m' && e == e')
  | x, y => x == y

end Binary64

end LabelBook
