import LabelBook.Text.Basic

/-!
Time: nanoseconds since the start of 1970, in universal time. Two texts show a time: one to the
second for programs, one to the millisecond for people.

    2023-11-14T22:13:20+00:00        2023-11-14 22:13:20,123
-/

namespace LabelBook.Clock

/-- Milliseconds since the start of 1970, rounded down. -/
def millis (now : Int) : Int := now.fdiv 1000000

/-- Seconds since the start of 1970, rounded down. -/
def seconds (now : Int) : Int := now.fdiv 1000000000

/-- Year, month and day of a day counted from 1 January 1970. The count is taken from 1 March of a
year divisible by 400, so that the day a leap year adds comes last. -/
def civil (day : Int) : Int × Nat × Nat :=
  let z := day + 719468
  let era := z.fdiv 146097
  let inEra := (z - era * 146097).toNat
  let yearOfEra := (inEra - inEra / 1460 + inEra / 36524 - inEra / 146096) / 365
  let inYear := inEra - (365 * yearOfEra + yearOfEra / 4 - yearOfEra / 100)
  let shifted := (5 * inYear + 2) / 153
  let d := inYear - (153 * shifted + 2) / 5 + 1
  let m := if shifted < 10 then shifted + 3 else shifted - 9
  let y : Int := yearOfEra + era * 400 + (if m ≤ 2 then 1 else 0)
  (y, m, d)

/-- The date of a time, in digits with hyphens. -/
def dateText (now : Int) : Text :=
  let (y, m, d) := civil ((seconds now).fdiv 86400)
  Text.concat [Text.padded 4 y.toNat, "-", Text.padded 2 m, "-", Text.padded 2 d]

/-- The time of day, in digits with colons. -/
def timeText (now : Int) : Text :=
  let s := ((seconds now).fmod 86400).toNat
  Text.concat [Text.padded 2 (s / 3600), ":", Text.padded 2 (s / 60 % 60), ":", Text.padded 2 (s % 60)]

/-- A time to the second, with the offset from universal time. -/
def isoSeconds (now : Int) : Text := Text.concat [dateText now, "T", timeText now, "+00:00"]

/-- A time to the millisecond. -/
def stamp (now : Int) : Text :=
  Text.concat [dateText now, " ", timeText now, ",",
    Text.padded 3 ((millis now).fmod 1000).toNat]

end LabelBook.Clock
