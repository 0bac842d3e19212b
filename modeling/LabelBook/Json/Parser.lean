import LabelBook.Json.Basic

/-!
Reading JSON. Each function takes the text from some place on and gives a part of a value with what
is left of the text, or a fault that says how much was left where it lies; only the outermost
function, which has the whole text, turns that into a position.

Accepted beyond the standard: NaN, Infinity and -Infinity. Refused beyond it: integers of more than
4300 digits, and nesting deeper than `maxDepth`.
-/

namespace LabelBook.Json

/-- What the reader misses or meets. -/
inductive Complaint where
  | value
  | propertyName
  | colon
  | comma
  | closingQuote
  | control
  | escape
  | unicodeEscape
  | extraData
  | byteOrderMark
  deriving DecidableEq

/-- The words for a complaint. -/
def Complaint.message : Complaint → Text
  | value => "Expecting value"
  | propertyName => "Expecting property name enclosed in double quotes"
  | colon => "Expecting ':' delimiter"
  | comma => "Expecting ',' delimiter"
  | closingQuote => "Unterminated string starting at"
  | control => "Invalid control character at"
  | escape => "Invalid \\escape"
  | unicodeEscape => "Invalid \\uXXXX escape"
  | extraData => "Extra data"
  | byteOrderMark => "Unexpected UTF-8 BOM (decode using utf-8-sig)"

/-- A reader's fault: a complaint with the number of code points left at its place, an integer with
too many digits, or too deep a nesting, entered by an object or by an array. -/
inductive Fault where
  | complaint (what : Complaint) (left : Nat)
  | tooManyDigits (count : Nat)
  | tooDeep (inObject : Bool)
  deriving DecidableEq

/-- The most digits an integer may have. -/
def maxDigits : Nat := 4300

/-- The deepest nesting that is read. -/
def maxDepth : Nat := 980

/-- White space between tokens. -/
def isGap (c : CodePoint) : Bool :=
  c == .scalar ' ' || c == .scalar '\n' || c == .scalar '\t' || c == .scalar '\r'

/-- A text without the white space at its front. -/
def skipGap (s : Text) : Text := s.dropWhile isGap

/-! ### Strings -/

/-- The value of four hexadecimal digits, which something has to follow. -/
def fourDigits? : Text → Option (Nat × Text)
  | a :: b :: c :: d :: next :: rest =>
    match a.hexValue?, b.hexValue?, c.hexValue?, d.hexValue? with
    | some a, some b, some c, some d => some (((a * 16 + b) * 16 + c) * 16 + d, next :: rest)
    | _, _, _, _ => none
  | _ => none

/-- What a single letter after a backslash stands for. -/
def shortEscape? : CodePoint → Option CodePoint
  | .scalar '"' => some (.scalar '"')
  | .scalar '\\' => some (.scalar '\\')
  | .scalar '/' => some (.scalar '/')
  | .scalar 'b' => some (.scalar '\x08')
  | .scalar 'f' => some (.scalar '\x0c')
  | .scalar 'n' => some (.scalar '\n')
  | .scalar 'r' => some (.scalar '\r')
  | .scalar 't' => some (.scalar '\t')
  | _ => none

/-- A high surrogate. -/
def isHigh (n : Nat) : Bool := 0xD800 ≤ n && n < 0xDC00

/-- A low surrogate. -/
def isLow (n : Nat) : Bool := 0xDC00 ≤ n && n < 0xE000

/-- The low surrogate that a numeric escape at the front of a text spells: some value if the text
starts with a numeric escape, and a fault if that one is broken. -/
def lowEscape? (s : Text) : Except Fault (Option (Nat × Text)) :=
  match s with
  | .scalar '\\' :: .scalar 'u' :: digits =>
    match fourDigits? digits with
    | some (n, rest) => .ok (if isLow n then some (n, rest) else none)
    | none => .error (.complaint .unicodeEscape (digits.length + 1))
  | _ => .ok none

/-- The code point that an escape spells; the text starts after the backslash. Numeric escapes of a
high and a low surrogate in a row spell one code point. -/
def escape (opening : Nat) : Text → Except Fault (CodePoint × Text)
  | [] => .error (.complaint .closingQuote opening)
  | .scalar 'u' :: digits =>
    match fourDigits? digits with
    | none => .error (.complaint .unicodeEscape (digits.length + 1))
    | some (n, rest) =>
      if isHigh n then
        match lowEscape? rest with
        | .error e => .error e
        | .ok (some (m, rest)) => .ok (.ofNat (0x10000 + (n - 0xD800) * 0x400 + (m - 0xDC00)), rest)
        | .ok none => .ok (.ofNat n, rest)
      else .ok (.ofNat n, rest)
  | c :: rest =>
    match shortEscape? c with
    | some d => .ok (d, rest)
    | none => .error (.complaint .escape (rest.length + 2))

theorem fourDigits?_length {s rest : Text} {n : Nat} (h : fourDigits? s = some (n, rest)) :
    rest.length < s.length := by
  unfold fourDigits? at h
  split at h
  · split at h
    · obtain ⟨-, rfl⟩ := Prod.mk.inj (Option.some.inj h)
      simp only [List.length_cons]
      omega
    · simp at h
  · simp at h

theorem lowEscape?_length {s rest : Text} {n : Nat} (h : lowEscape? s = .ok (some (n, rest))) :
    rest.length < s.length := by
  unfold lowEscape? at h
  split at h
  · next digits =>
    split at h
    · next m r hm =>
      have := fourDigits?_length hm
      split at h
      · simp only [Except.ok.injEq, Option.some.injEq, Prod.mk.injEq] at h
        simp only [List.length_cons, ← h.2]
        omega
      · simp at h
    · simp at h
  · simp at h

theorem escape_length {opening : Nat} {s rest : Text} {c : CodePoint}
    (h : escape opening s = .ok (c, rest)) : rest.length < s.length := by
  unfold escape at h
  split at h
  · simp at h
  · next digits =>
    split at h
    · simp at h
    · next n r hn =>
      have := fourDigits?_length hn
      split at h
      · split at h
        · simp at h
        · next m r' hm =>
          have := lowEscape?_length hm
          simp only [Except.ok.injEq, Prod.mk.injEq] at h
          simp only [List.length_cons, ← h.2]
          omega
        · simp only [Except.ok.injEq, Prod.mk.injEq] at h
          simp only [List.length_cons, ← h.2]
          omega
      · simp only [Except.ok.injEq, Prod.mk.injEq] at h
        simp only [List.length_cons, ← h.2]
        omega
  · split at h
    · simp only [Except.ok.injEq, Prod.mk.injEq] at h
      simp only [List.length_cons, ← h.2]
      omega
    · simp at h

/-- The rest of a string whose opening quote had `opening` code points left; `done` has its code
points so far, last one first. -/
def stringFrom (opening : Nat) (done s : Text) : Except Fault (Text × Text) :=
  match s with
  | [] => .error (.complaint .closingQuote opening)
  | c :: rest =>
    if c = .scalar '"' then .ok (done.reverse, rest)
    else if c = .scalar '\\' then
      match h : escape opening rest with
      | .error e => .error e
      | .ok (d, rest') =>
        have := escape_length h
        stringFrom opening (d :: done) rest'
    else if c.toNat < 0x20 then .error (.complaint .control (rest.length + 1))
    else stringFrom opening (c :: done) rest
termination_by s.length
decreasing_by all_goals simp only [List.length_cons]; omega

/-- A string whose opening quote has just been read. -/
def string? (s : Text) : Except Fault (Text × Text) := stringFrom (s.length + 1) [] s

/-! ### Numbers -/

/-- A fraction: a point and at least one digit. Without it nothing is read. -/
def fraction (s : Text) : Text × Text :=
  match s with
  | .scalar '.' :: rest =>
    let digits := rest.takeWhile CodePoint.isDigit
    if digits.isEmpty then ([], s) else (digits, rest.dropWhile CodePoint.isDigit)
  | _ => ([], s)

/-- A sign in front of the digits of an exponent. -/
def exponentSign : Text → Bool × Text
  | .scalar '-' :: rest => (true, rest)
  | .scalar '+' :: rest => (false, rest)
  | s => (false, s)

/-- An exponent: its letter, a sign or none, and at least one digit. Without it nothing is read. -/
def exponent? (s : Text) : Option (Int × Text) :=
  let after (rest : Text) : Option (Int × Text) :=
    let (negative, rest) := exponentSign rest
    let digits := rest.takeWhile CodePoint.isDigit
    let n : Int := Text.digitsValue digits
    if digits.isEmpty then none
    else some (if negative then -n else n, rest.dropWhile CodePoint.isDigit)
  match s with
  | .scalar 'e' :: rest => after rest
  | .scalar 'E' :: rest => after rest
  | _ => none

/-- The whole part of a number: a zero, or digits that do not start with one. -/
def wholeDigits (s : Text) : Text × Text :=
  match s with
  | .scalar '0' :: rest => (s.take 1, rest)
  | _ => (s.takeWhile CodePoint.isDigit, s.dropWhile CodePoint.isDigit)

/-- A number whose sign has been read: an integer unless a fraction or an exponent follows its whole
part. -/
def number? (negative : Bool) (s : Text) : Except Fault (Option (Json × Text)) :=
  let (whole, rest) := wholeDigits s
  if whole.isEmpty then .ok none
  else
    let (decimals, rest) := fraction rest
    match exponent? rest with
    | some (e, rest) =>
      .ok (some (.float (.ofDecimal negative (Text.digitsValue (whole ++ decimals))
        (e - decimals.length)), rest))
    | none =>
      if decimals.isEmpty then
        if maxDigits < whole.length then .error (.tooManyDigits whole.length)
        else
          let n : Int := Text.digitsValue whole
          .ok (some (.int (if negative then -n else n), rest))
      else
        .ok (some (.float (.ofDecimal negative (Text.digitsValue (whole ++ decimals))
          (-(decimals.length : Int))), rest))

/-! ### Values -/

/-- A word with its value. -/
def words : List (Text × Json) :=
  [("null", .null), ("true", .bool true), ("false", .bool false), ("NaN", .float .nan),
    ("Infinity", .float (.infinite false)), ("-Infinity", .float (.infinite true))]

/-- A word or a number. -/
def scalar (s : Text) : Except Fault (Json × Text) :=
  match words.findSome? fun w => (s.dropStart? w.1).map fun rest => (w.2, rest) with
  | some r => .ok r
  | none =>
    let number := match s with
      | .scalar '-' :: rest => number? true rest
      | _ => number? false s
    match number with
    | .error e => .error e
    | .ok (some r) => .ok r
    | .ok none => .error (.complaint .value s.length)

/-- The items of an array from the first one on, white space in front of it skipped; `item` reads
one, and `fuel` bounds their number. -/
def items (item : Text → Except Fault (Json × Text)) :
    (fuel : Nat) → (done : List Json) → Text → Except Fault (List Json × Text)
  | 0, _, s => .error (.complaint .value s.length)
  | fuel + 1, done, s =>
    match item s with
    | .error e => .error e
    | .ok (v, rest) =>
      match skipGap rest with
      | .scalar ']' :: rest => .ok ((v :: done).reverse, rest)
      | .scalar ',' :: rest => items item fuel (v :: done) (skipGap rest)
      | rest => .error (.complaint .comma rest.length)

/-- An array whose bracket has been read. -/
def arrayBody (item : Text → Except Fault (Json × Text)) (s : Text) : Except Fault (Json × Text) :=
  match skipGap s with
  | .scalar ']' :: rest => .ok (.array [], rest)
  | s => match items item (s.length + 1) [] s with
    | .error e => .error e
    | .ok (vs, rest) => .ok (.array vs, rest)

/-- The entries of an object from the first key on, white space in front of it skipped; `item` reads
a value, and `fuel` bounds the number of entries. -/
def members (item : Text → Except Fault (Json × Text)) :
    (fuel : Nat) → (done : Entries) → Text → Except Fault (Entries × Text)
  | 0, _, s => .error (.complaint .propertyName s.length)
  | fuel + 1, done, s =>
    match s with
    | .scalar '"' :: rest =>
      match string? rest with
      | .error e => .error e
      | .ok (key, rest) =>
        match skipGap rest with
        | .scalar ':' :: rest =>
          match item (skipGap rest) with
          | .error e => .error e
          | .ok (v, rest) =>
            match skipGap rest with
            | .scalar '}' :: rest => .ok (done.put key v, rest)
            | .scalar ',' :: rest => members item fuel (done.put key v) (skipGap rest)
            | rest => .error (.complaint .comma rest.length)
        | rest => .error (.complaint .colon rest.length)
    | s => .error (.complaint .propertyName s.length)

/-- An object whose brace has been read. -/
def objectBody (item : Text → Except Fault (Json × Text)) (s : Text) : Except Fault (Json × Text) :=
  match skipGap s with
  | .scalar '}' :: rest => .ok (.object [], rest)
  | s => match members item (s.length + 1) [] s with
    | .error e => .error e
    | .ok (es, rest) => .ok (.object es, rest)

/-- A value at the front of a text, nested no deeper than `depth`. -/
def value (depth : Nat) (s : Text) : Except Fault (Json × Text) :=
  match s with
  | .scalar '"' :: rest =>
    match string? rest with
    | .error e => .error e
    | .ok (t, rest) => .ok (.string t, rest)
  | .scalar '[' :: rest =>
    match depth with
    | 0 => .error (.tooDeep false)
    | depth + 1 => arrayBody (value depth) rest
  | .scalar '{' :: rest =>
    match depth with
    | 0 => .error (.tooDeep true)
    | depth + 1 => objectBody (value depth) rest
  | s => scalar s

/-- A whole text as one value, or the fault in it. -/
def ofText (s : Text) : Except Fault Json :=
  match value maxDepth (skipGap s) with
  | .error e => .error e
  | .ok (v, rest) =>
    match skipGap rest with
    | [] => .ok v
    | rest => .error (.complaint .extraData rest.length)

/-- A whole text as one value, or the fault in it, to which a byte order mark at its front belongs. -/
def ofUnmarkedText (s : Text) : Except Fault Json :=
  match s with
  | .scalar '\uFEFF' :: _ => .error (.complaint .byteOrderMark s.length)
  | _ => ofText s

/-! ### Errors -/

/-- Why a text is no JSON value: a complaint about a position of it, counted from 0, with its line
and column, counted from 1; or a limit it exceeds. -/
inductive ParseError where
  | malformed (what : Complaint) (position line column : Nat)
  | tooManyDigits (count : Nat)
  | tooDeep (inObject : Bool)
  deriving DecidableEq

/-- A fault in a text as an error. -/
def Fault.locate (s : Text) : Fault → ParseError
  | complaint what left =>
    let position := s.length - left
    let before := s.take position
    .malformed what position (before.count (.scalar '\n') + 1)
      ((before.reverse.takeWhile (· != .scalar '\n')).length + 1)
  | tooManyDigits count => .tooManyDigits count
  | tooDeep inObject => .tooDeep inObject

/-- The text of the error for an integer with too many digits. -/
def tooManyDigitsMessage (count : Nat) : Text :=
  Text.concat ["Exceeds the limit (", Text.ofNat maxDigits,
    " digits) for integer string conversion: value has ", Text.ofNat count,
    " digits; use sys.set_int_max_str_digits() to increase the limit"]

/-- The text of an error. -/
def ParseError.message : ParseError → Text
  | malformed what position line column =>
    Text.concat [what.message, ": line ", Text.ofNat line, " column ", Text.ofNat column,
      " (char ", Text.ofNat position, ")"]
  | tooManyDigits count => tooManyDigitsMessage count
  | tooDeep inObject =>
    Text.concat ["maximum recursion depth exceeded while decoding a JSON ",
      if inObject then "object" else "array", " from a unicode string"]

/-- Reads a whole text as one value. -/
def parse (s : Text) : Except ParseError Json := (ofUnmarkedText s).mapError (Fault.locate s)

/-- Reads a whole text, of which the decoding has dealt with byte order marks, as one value. -/
def parseDecoded (s : Text) : Except ParseError Json := (ofText s).mapError (Fault.locate s)

end LabelBook.Json
