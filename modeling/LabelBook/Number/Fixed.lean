import LabelBook.Number.Shortest

/-!
Decimal text of a chosen precision, rounded from the exact value with ties to the even digit: in
place, with an exponent, or the one of these two that suits the size of the number.
-/

namespace LabelBook.Binary64

/-- The digits of a natural number with a point before the last `places` of them; the point is left
out in front of nothing unless `point` says otherwise. -/
def withPoint (point : Bool) (places n : Nat) : List Char :=
  let ds := Nat.toDigits 10 n
  let ds := List.replicate (places + 1 - ds.length) '0' ++ ds
  let whole := ds.take (ds.length - places)
  if places = 0 && !point then whole else whole ++ ['.'] ++ ds.drop (ds.length - places)

/-- A quotient in place, with a number of digits behind the point. -/
def fixed (point : Bool) (places num den : Nat) : List Char :=
  withPoint point places (roundHalfEven (num * Nat.pow 10 places) den)

/-- The `places + 1` leading digits of a quotient as a number, and the power of ten of the first. -/
def leading (places num den : Nat) : Nat × Int :=
  if num = 0 then (0, 0)
  else
    let k := floorLog 10 num den ((digitCount num : Int) - digitCount den)
    let s := scaleDown 10 num den (k - places)
    let n := roundHalfEven s.1 s.2
    if n = Nat.pow 10 (places + 1) then (Nat.pow 10 places, k + 1) else (n, k)

/-- Leading digits with a point behind the first of them, and an exponent. -/
def exponential (point : Bool) (places : Nat) (lead : Nat × Int) : List Char :=
  let exponent := Nat.toDigits 10 lead.2.natAbs
  withPoint point places lead.1 ++ ['e', if lead.2 < 0 then '-' else '+'] ++
    List.replicate (2 - exponent.length) '0' ++ exponent

/-- Digits without the zeros at their end behind a point, and without a point at their end. -/
def stripZeros (ds : List Char) : List Char :=
  if ds.contains '.' then
    let ds := (ds.reverse.dropWhile (· == '0')).reverse
    if ds.getLast? = some '.' then ds.dropLast else ds
  else ds

/-- A quotient with a number of leading digits, in place unless it is small or large for that; zeros
at the end are left out unless `full` says otherwise. -/
def general (full : Bool) (digits num den : Nat) : List Char :=
  let places := digits - 1
  let lead := leading places num den
  let strip (ds : List Char) := if full then ds else stripZeros ds
  if -4 ≤ lead.2 ∧ lead.2 < digits then
    let decimals := ((places : Int) - lead.2).toNat
    strip (fixed full decimals num den)
  else
    let mantissa := strip (withPoint full places lead.1)
    mantissa ++ (exponential false 0 (0, lead.2)).drop 1

end LabelBook.Binary64
