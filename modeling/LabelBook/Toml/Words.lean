import LabelBook.Toml.Error

/-!
The words of TOML: blanks and comments, strings of four sorts, and the parts of keys.
-/

namespace LabelBook.Toml

/-- What a reader gives: a part with the text after it. -/
abbrev Reading (α : Type) := Except Fault (α × Text)

/-- The fault of meeting something in front of a text. -/
def fail (what : Complaint) (s : Text) : Except Fault α := .error (.complaint what s.length)

/-- A blank inside a line. -/
def isGap (c : CodePoint) : Bool := c == .scalar ' ' || c == .scalar '\t'

/-- A blank or the end of a line. -/
def isGapOrEnd (c : CodePoint) : Bool := isGap c || c == .scalar '\n'

/-- A text without the blanks at its front. -/
def skipGap (s : Text) : Text := s.dropWhile isGap

/-- A control character other than the tab. -/
def isControl (c : CodePoint) : Bool := (c.toNat < 0x20 && c != .scalar '\t') || c.toNat == 0x7F

/-- A control character other than the tab and the line feed. -/
def isControlInLines (c : CodePoint) : Bool := isControl c && c != .scalar '\n'

/-- The text before and after the first occurrence of some code points. -/
def splitAt? (mark : Text) : Text → Option (Text × Text)
  | [] => if mark.isEmpty then some ([], []) else none
  | c :: s =>
    match Text.dropStart? (c :: s) mark with
    | some rest => some ([], rest)
    | none => (splitAt? mark s).map fun (before, rest) => (c :: before, rest)

/-- Complains about the first forbidden code point of a text that stands in front of `rest` code
points. -/
def checkAll (forbidden : CodePoint → Bool) (part : Text) (rest : Nat) : Except Fault Unit :=
  match part.dropWhile fun c => !forbidden c with
  | [] => .ok ()
  | c :: more => .error (.complaint (.invalidCharacter c) (more.length + 1 + rest))

/-- The text after a comment, if one starts it. -/
def skipComment (s : Text) : Except Fault Text :=
  match s with
  | .scalar '#' :: s =>
    let comment := s.takeWhile (· != .scalar '\n')
    let rest := s.dropWhile (· != .scalar '\n')
    (checkAll isControl comment rest.length).map fun _ => rest
  | _ => .ok s

/-- The text after any number of blanks, line ends and comments; `fuel` bounds their number. -/
def skipLines : (fuel : Nat) → Text → Except Fault Text
  | 0, s => .ok s
  | fuel + 1, s =>
    match skipComment (s.dropWhile isGapOrEnd) with
    | .error e => .error e
    | .ok rest => if rest.length = s.length then .ok s else skipLines fuel rest

/-! ### Strings -/

/-- A string of which nothing is escaped, up to its closing mark. -/
def literal (mark : Text) (forbidden : CodePoint → Bool) (s : Text) : Reading Text :=
  match splitAt? mark s with
  | none => fail (.expected mark) []
  | some (part, rest) =>
    (checkAll forbidden part (rest.length + mark.length)).map fun _ => (part, rest)

/-- The code point that a number of hexadecimal digits spell. -/
def hexEscape (width : Nat) (s : Text) : Reading Text :=
  let digits := s.take width
  let rest := s.drop width
  if digits.length ≠ width ∨ !digits.all CodePoint.isHex then fail .hexadecimal s
  else
    let n := digits.foldl (fun n c => n * 16 + (c.hexValue?).getD 0) 0
    let c := CodePoint.ofNat n
    if n < 0x110000 ∧ !c.isLone then .ok ([c], rest) else fail .noScalar rest

/-- What a single letter after a backslash stands for. -/
def shortEscape? : CodePoint → Option CodePoint
  | .scalar 'b' => some (.scalar '\x08')
  | .scalar 't' => some (.scalar '\t')
  | .scalar 'n' => some (.scalar '\n')
  | .scalar 'f' => some (.scalar '\x0c')
  | .scalar 'r' => some (.scalar '\r')
  | .scalar '"' => some (.scalar '"')
  | .scalar '\\' => some (.scalar '\\')
  | _ => none

/-- What an escape spells; the text starts after the backslash. In a string of several lines a
backslash at the end of a line takes the blanks and line ends after it away. -/
def escape (severalLines : Bool) (s : Text) : Reading Text :=
  match s with
  | [] => fail .backslash []
  | c :: rest =>
    if severalLines && c == .scalar '\n' then .ok ([], rest.dropWhile isGapOrEnd)
    else if severalLines && isGap c then
      match skipGap rest with
      | [] => .ok ([], [])
      | .scalar '\n' :: rest => .ok ([], rest.dropWhile isGapOrEnd)
      | rest => fail .backslash rest
    else if c == .scalar 'u' then hexEscape 4 rest
    else if c == .scalar 'U' then hexEscape 8 rest
    else match shortEscape? c with
      | some d => .ok ([d], rest)
      | none => fail .backslash rest

/-- The rest of a string with escapes; `done` has its code points so far, last one first, and `fuel`
bounds their number. -/
def basicFrom (severalLines : Bool) : (fuel : Nat) → (done : Text) → Text → Reading Text
  | 0, _, s => fail .unterminated s
  | fuel + 1, done, s =>
    match s with
    | [] => fail .unterminated []
    | c :: rest =>
      if c == .scalar '"' then
        if !severalLines then .ok (done.reverse, rest)
        else match rest with
          | .scalar '"' :: .scalar '"' :: rest => .ok (done.reverse, rest)
          | _ => basicFrom severalLines fuel (c :: done) rest
      else if c == .scalar '\\' then
        match escape severalLines rest with
        | .error e => .error e
        | .ok (t, rest) => basicFrom severalLines fuel (t.reverse ++ done) rest
      else if (if severalLines then isControlInLines c else isControl c) then
        fail (.illegalCharacter c) s
      else basicFrom severalLines fuel (c :: done) rest

/-- A string with escapes whose opening mark has been read. -/
def basic (severalLines : Bool) (s : Text) : Reading Text :=
  basicFrom severalLines (s.length + 1) [] s

/-- A string of several lines with what follows its closing mark: up to two further quotes belong to
it. -/
def moreQuotes (quote : CodePoint) (r : Text × Text) : Text × Text :=
  let (t, rest) := r
  match rest with
  | a :: b :: rest' =>
    if a = quote ∧ b = quote then (t ++ [quote, quote], rest')
    else if a = quote then (t ++ [quote], b :: rest') else (t, rest)
  | [a] => if a = quote then (t ++ [quote], []) else (t, rest)
  | [] => (t, rest)

/-- A text without a line feed at its front. -/
def dropLineFeed (s : Text) : Text := (s.dropStart? "\n").getD s

/-- A string that an apostrophe or a quote starts. -/
def string? (s : Text) : Option (Reading Text) :=
  match s.dropStart? "\"\"\"" with
  | some rest => some ((basic true (dropLineFeed rest)).map (moreQuotes (.scalar '"')))
  | none =>
    match s.dropStart? "'''" with
    | some rest =>
      some ((literal "'''" isControlInLines (dropLineFeed rest)).map (moreQuotes (.scalar '\'')))
    | none => match s with
      | .scalar '"' :: rest => some (basic false rest)
      | .scalar '\'' :: rest => some (literal "'" isControl rest)
      | _ => none

/-! ### Keys -/

/-- A code point of a key without quotes. -/
def isBare : CodePoint → Bool
  | .scalar c => c.isAlphanum || c == '-' || c == '_'
  | .lone _ => false

/-- A part of a key, with or without quotes. -/
def keyPart (s : Text) : Reading Text :=
  match s with
  | .scalar '\'' :: rest => literal "'" isControl rest
  | .scalar '"' :: rest => basic false rest
  | c :: _ =>
    if isBare c then .ok (s.takeWhile isBare, s.dropWhile isBare) else fail .keyStart s
  | [] => fail .keyStart s

/-- The parts of a key after the first ones, `done`, which stand in reverse order; `fuel` bounds
their number. -/
def keyFrom : (fuel : Nat) → (done : List Text) → Text → Reading (List Text)
  | 0, done, s => .ok (done.reverse, s)
  | fuel + 1, done, s =>
    match s with
    | .scalar '.' :: rest =>
      match keyPart (skipGap rest) with
      | .error e => .error e
      | .ok (part, rest) => keyFrom fuel (part :: done) (skipGap rest)
    | _ => .ok (done.reverse, s)

/-- A key: parts with points between them, and the blanks after it. -/
def key (s : Text) : Reading (List Text) :=
  match keyPart s with
  | .error e => .error e
  | .ok (part, rest) => keyFrom rest.length [part] (skipGap rest)

end LabelBook.Toml
