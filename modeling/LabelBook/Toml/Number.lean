import LabelBook.Datum
import LabelBook.Toml.Words

/-!
Numbers, dates and times of TOML. Digits may have single underscores between them. An integer with
another base than ten has a letter for it and no sign; a date may be followed by a time, and that by
its distance from universal time.
-/

namespace LabelBook.Toml

/-! ### Numbers -/

/-- A run of digits with single underscores between them: the digits, and the text after them. -/
def digitRun (isDigit : CodePoint → Bool) : Text → Text × Text
  | [] => ([], [])
  | [c] => if isDigit c then ([c], []) else ([], [c])
  | c :: d :: s =>
    if !isDigit c then ([], c :: d :: s)
    else if d == .scalar '_' then
      match digitRun isDigit s with
      | ([], _) => ([c], d :: s)
      | (more, rest) => (c :: more, rest)
    else
      let (more, rest) := digitRun isDigit (d :: s)
      (c :: more, rest)

/-- The value of digits in a base. -/
def valueIn (base : Nat) (digits : Text) : Nat :=
  digits.foldl (fun n c => n * base + (c.hexValue?).getD 0) 0

/-- A digit of a base up to sixteen. -/
def isDigitOf (base : Nat) (c : CodePoint) : Bool :=
  match c.hexValue? with
  | some v => v < base
  | none => false

/-- The base that a letter after a zero names. -/
def baseOf? : CodePoint → Option Nat
  | .scalar 'x' => some 16
  | .scalar 'o' => some 8
  | .scalar 'b' => some 2
  | _ => none

/-- An integer that names its base. -/
def basedInteger? (s : Text) : Option (Int × Text) :=
  match s with
  | .scalar '0' :: letter :: s =>
    match baseOf? letter with
    | none => none
    | some base =>
      let (digits, rest) := digitRun (isDigitOf base) s
      if digits.isEmpty then none else some (valueIn base digits, rest)
  | _ => none

/-- A sign in front of a number. -/
def sign : Text → Bool × Text
  | .scalar '-' :: s => (true, s)
  | .scalar '+' :: s => (false, s)
  | s => (false, s)

/-- The part of a number before its point: a zero, or digits that do not start with one. -/
def wholeRun (s : Text) : Text × Text :=
  match s with
  | .scalar '0' :: rest => (s.take 1, rest)
  | _ => digitRun CodePoint.isDigit s

/-- The digits after a point. -/
def fractionRun (s : Text) : Text × Text :=
  match s with
  | .scalar '.' :: rest =>
    match digitRun CodePoint.isDigit rest with
    | ([], _) => ([], s)
    | r => r
  | _ => ([], s)

/-- An exponent. -/
def exponent? (s : Text) : Option (Int × Text) :=
  match s with
  | .scalar c :: rest =>
    if c = 'e' ∨ c = 'E' then
      let (negative, rest) := sign rest
      let (digits, rest) := digitRun CodePoint.isDigit rest
      let n : Int := Text.digitsValue digits
      if digits.isEmpty then none else some (if negative then -n else n, rest)
    else none
  | _ => none

/-- A number in decimal: an integer unless a fraction or an exponent follows its whole part. -/
def decimal? (s : Text) : Option (Reading Datum) :=
  let (negative, digits) := sign s
  let (whole, rest) := wholeRun digits
  if whole.isEmpty then none
  else
    let (decimals, rest) := fractionRun rest
    let scaled (e : Int) : Datum :=
      .float (.ofDecimal negative (Text.digitsValue (whole ++ decimals)) (e - decimals.length))
    some <| match exponent? rest with
      | some (e, rest) => .ok (scaled e, rest)
      | none =>
        if decimals.isEmpty then
          let n : Int := Text.digitsValue whole
          if Json.maxDigits < whole.length then .error (.tooManyDigits whole.length)
          else .ok (.int (if negative then -n else n), rest)
        else .ok (scaled 0, rest)

/-- A word for infinity or for what is no number, with a sign or none. -/
def specialWords : List (Text × Datum) :=
  [("inf", .float (.infinite false)), ("nan", .float .nan), ("-inf", .float (.infinite true)),
    ("+inf", .float (.infinite false)), ("-nan", .float .nan), ("+nan", .float .nan)]

/-! ### Dates and times -/

/-- The number that exactly `width` digits spell, if it lies in a range. -/
def field? (width low high : Nat) (s : Text) : Option (Nat × Text) :=
  let digits := s.take width
  let n := Text.digitsValue digits
  if digits.length = width ∧ digits.all CodePoint.isDigit ∧ low ≤ n ∧ n ≤ high then
    some (n, s.drop width)
  else none

/-- The fraction of a second in microseconds, further digits dropped. -/
def microseconds (s : Text) : Nat × Text :=
  match s with
  | .scalar '.' :: rest =>
    let digits := rest.takeWhile CodePoint.isDigit
    let six := digits.take 6
    if digits.isEmpty then (0, s)
    else (Text.digitsValue six * Nat.pow 10 (6 - six.length), rest.dropWhile CodePoint.isDigit)
  | _ => (0, s)

/-- A time of day. -/
def time? (s : Text) : Option (TimeOfDay × Text) := do
  let (hour, s) ← field? 2 0 23 s
  let (minute, s) ← field? 2 0 59 (← s.dropStart? ":")
  let (second, s) ← field? 2 0 59 (← s.dropStart? ":")
  let (micro, s) := microseconds s
  return (⟨hour, minute, second, micro⟩, s)

/-- The days of a month. -/
def daysIn (year month : Nat) : Nat :=
  let leap := year % 4 = 0 ∧ (year % 100 ≠ 0 ∨ year % 400 = 0)
  if month = 2 then (if leap then 29 else 28)
  else if month = 4 ∨ month = 6 ∨ month = 9 ∨ month = 11 then 30 else 31

/-- A date in the calendar. -/
def isDate (d : Date) : Bool := 0 < d.year && d.day ≤ daysIn d.year d.month

/-- A date as it is spelt, in the calendar or not. -/
def date? (s : Text) : Option (Date × Text) := do
  let (year, s) ← field? 4 0 9999 s
  let (month, s) ← field? 2 1 12 (← s.dropStart? "-")
  let (day, s) ← field? 2 1 31 (← s.dropStart? "-")
  return (⟨year, month, day⟩, s)

/-- The distance from universal time in minutes, if it is given. -/
def offset (s : Text) : Option Int × Text :=
  let ahead (negative : Bool) (rest : Text) : Option Int × Text :=
    let fields : Option (Int × Text) := do
      let (hour, r) ← field? 2 0 23 rest
      let (minute, r) ← field? 2 0 59 (← r.dropStart? ":")
      let m : Int := (hour * 60 + minute : Nat)
      return (if negative then -m else m, r)
    match fields with
    | some (m, r) => (some m, r)
    | none => (none, s)
  match s with
  | .scalar 'Z' :: rest => (some 0, rest)
  | .scalar 'z' :: rest => (some 0, rest)
  | .scalar '+' :: rest => ahead false rest
  | .scalar '-' :: rest => ahead true rest
  | _ => (none, s)

/-- The text after what separates a date from a time. -/
def afterDate? : Text → Option Text
  | .scalar c :: rest => if c = 'T' ∨ c = 't' ∨ c = ' ' then some rest else none
  | _ => none

/-- A date, a date with a time, or a time. -/
def moment? (s : Text) : Option (Reading Datum) :=
  match date? s with
  | none => (time? s).map fun (t, rest) => .ok (.time t, rest)
  | some (d, rest) =>
    let (v, rest) : Datum × Text :=
      match (afterDate? rest).bind time? with
      | none => (.date d, rest)
      | some (t, rest) =>
        let (minutes, rest) := offset rest
        (.moment d t minutes, rest)
    some (if isDate d then .ok (v, rest) else fail .moment s)

end LabelBook.Toml
