import LabelBook.Datum
import LabelBook.Number.Fixed

/-!
Templates: messages with places for arguments. A place starts with a percent sign and ends with a
letter that says how the argument is shown; between them there can be the name of the argument in
parentheses, flags, a least width and a precision. Two percent signs stand for one. Arguments are
taken one after another, and all of them have to be taken, unless they have names.

    "%s and %d"  with  "a", 5  ↦  a and 5        "%(n)03d%%"  with  n = 7  ↦  007%
-/

namespace LabelBook

/-- What a template is filled with. -/
inductive Arguments where
  | listed (values : List Json)
  | named (entries : Entries)

/-- The two numbers that a place can ask for. -/
inductive Measure where
  | width
  | precision
  deriving DecidableEq

namespace Measure

/-- The name of a measure in messages. -/
def name : Measure → Text
  | width => "width"
  | precision => "precision"

/-- The first number that is too big for a measure. -/
def bound : Measure → Nat
  | width => Nat.pow 2 63
  | precision => Nat.pow 2 31

/-- The word for the numbers that a measure can be. -/
def range : Measure → Text
  | width => "ssize_t"
  | precision => "int"

end Measure

/-- Why a template cannot be filled. -/
inductive TemplateError where
  | tooFew
  | tooMany
  | noNames
  | noSuchName (name : Text)
  | incomplete
  | incompleteName
  | noWidth
  | tooBig (measure : Measure)
  | outOfRange (measure : Measure)
  | unknownLetter (letter : CodePoint) (index : Nat)
  | noNumber (letter : CodePoint) (sort : Text)
  | noInteger (letter : CodePoint) (sort : Text)
  | noReal (sort : Text)
  | noCharacter
  | characterRange
  | notANumber
  | infinite
  | tooLarge
  | tooPrecise
  | noRoom
  deriving DecidableEq

/-- The text of an error. -/
def TemplateError.message : TemplateError → Text
  | tooFew => "not enough arguments for format string"
  | tooMany => "not all arguments converted during string formatting"
  | noNames => "format requires a mapping"
  | noSuchName name => name.quoted
  | incomplete => "incomplete format"
  | incompleteName => "incomplete format key"
  | noWidth => "* wants int"
  | tooBig measure => Text.concat [measure.name, " too big"]
  | outOfRange measure => Text.concat ["Python int too large to convert to C ", measure.range]
  | unknownLetter letter index =>
    let n := letter.toNat
    Text.concat ["unsupported format character '",
      if 31 ≤ n ∧ n < 126 then [letter] else "?", "' (0x", Text.hex 1 n, ") at index ",
      Text.ofNat index]
  | noNumber letter sort =>
    Text.concat ["%", [letter], " format: a real number is required, not ", sort]
  | noInteger letter sort =>
    Text.concat ["%", [letter], " format: an integer is required, not ", sort]
  | noReal sort => Text.concat ["must be real number, not ", sort]
  | noCharacter => "%c requires int or char"
  | characterRange => "%c arg not in range(0x110000)"
  | notANumber => "cannot convert float NaN to integer"
  | infinite => "cannot convert float infinity to integer"
  | tooLarge => "int too large to convert to float"
  | tooPrecise => "precision too large"
  | noRoom => []

namespace Template

/-- How an argument is to be shown. -/
structure Style where
  left : Bool
  plus : Bool
  blank : Bool
  alternate : Bool
  zero : Bool
  width : Nat
  precision : Option Nat

/-- An argument shown without anything asked for. -/
def Style.plain : Style := ⟨false, false, false, false, false, 0, none⟩

/-- A number in parts: what stands before it, and its digits. -/
structure Shown where
  front : Text
  body : Text

/-- Blanks that bring a text to a width. -/
def Style.blanks (s : Style) (length : Nat) : Text := List.replicate (s.width - length) (.scalar ' ')

/-- A text in a style. -/
def Style.layText (s : Style) (t : Text) : Text :=
  let t := match s.precision with
    | some p => t.take p
    | none => t
  if s.left then t ++ s.blanks t.length else s.blanks t.length ++ t

/-- A number in a style. -/
def Style.layNumber (s : Style) (negative : Bool) (n : Shown) : Text :=
  let sign : Text := if negative then "-" else if s.plus then "+" else if s.blank then " " else ""
  let front := sign ++ n.front
  let length := front.length + n.body.length
  if s.left then front ++ n.body ++ s.blanks length
  else if s.zero then
    front ++ List.replicate (s.width - length) (.scalar '0') ++ n.body
  else s.blanks length ++ front ++ n.body

/-- A code point outside of ASCII by its number. -/
def asciiEscaped (t : Text) : Text :=
  t.flatMap fun c =>
    let n := c.toNat
    if n < 0x80 then [c]
    else if n < 0x100 then Text.concat ["\\x", Text.hex 2 n]
    else if n < 0x10000 then Text.concat ["\\u", Text.hex 4 n]
    else Text.concat ["\\U", Text.hex 8 n]

/-- The integer that an argument is, if it is one. -/
def integer? : Json → Option Int
  | .bool b => some (if b then 1 else 0)
  | .int n => some n
  | _ => none

/-- The integer part of an argument that is a number. -/
def wholePart (letter : CodePoint) : Json → Except TemplateError Int
  | .float .nan => .error .notANumber
  | .float (.infinite _) => .error .infinite
  | .float x => .ok (x.truncate?.getD 0)
  | v => match integer? v with
    | some n => .ok n
    | none => .error (.noNumber letter (v.sort))

/-- The most digits that an integer can be asked to have. -/
def maxDigits : Nat := 2147483644

/-- An integer in a base, at least as many digits as the precision asks for. -/
def integerText (s : Style) (base : Nat) (front : Text) (n : Int) : Except TemplateError Text :=
  let least := s.precision.getD 0
  if maxDigits < least then .error .tooPrecise
  else
    let digits := Text.ofChars (Nat.toDigits base n.natAbs)
    let zeros := List.replicate (least - digits.length) (CodePoint.scalar '0')
    .ok (s.layNumber (n < 0) ⟨if s.alternate then front else [], zeros ++ digits⟩)

/-- A text with the letters of ASCII in upper case. -/
def upperAscii (t : Text) : Text :=
  t.map fun
    | .scalar c => .scalar c.toUpper
    | c => c

/-- An argument as a floating-point number. -/
def real : Json → Except TemplateError Binary64
  | .float x => .ok x
  | v => match integer? v with
    | none => .error (.noReal (v.sort))
    | some n =>
      let x := Binary64.ofInt n
      if x.isFinite then .ok x else .error .tooLarge

/-- More leading digits than any floating-point number has; those behind them are zeros. -/
def allDigits : Nat := 1100

/-- A floating-point number shown by a letter in lower case. -/
def realText (s : Style) (letter : Char) (x : Binary64) : Text :=
  let precision := s.precision.getD 6
  match x with
  | .nan => s.layNumber false ⟨[], "nan"⟩
  | .infinite negative => s.layNumber negative ⟨[], "inf"⟩
  | .finite negative m e _ =>
    let q := Binary64.ratio m e
    let body :=
      if letter = 'f' then Binary64.fixed s.alternate precision q.1 q.2
      else if letter = 'e' then
        Binary64.exponential s.alternate precision (Binary64.leading precision q.1 q.2)
      else
        let digits := if s.alternate then precision else min allDigits precision
        Binary64.general s.alternate (max 1 digits) q.1 q.2
    s.layNumber negative ⟨[], Text.ofChars body⟩

/-- An argument as a single code point. -/
def character : Json → Except TemplateError Text
  | .string [c] => .ok [c]
  | v => match integer? v with
    | none => .error .noCharacter
    | some n => if 0 ≤ n ∧ n < 0x110000 then .ok [.ofNat n.toNat] else .error .characterRange

/-- An argument in a style, shown as a letter says; `index` tells where the letter stands. -/
def showAs (s : Style) (letter : CodePoint) (index : Nat) (v : Json) : Except TemplateError Text :=
  match letter with
  | .scalar 's' => .ok (s.layText v.plain)
  | .scalar 'r' => .ok (s.layText v.shown)
  | .scalar 'a' => .ok (s.layText (asciiEscaped v.shown))
  | .scalar 'c' => (character v).map { s with precision := none }.layText
  | .scalar c =>
    if c = 'd' ∨ c = 'i' ∨ c = 'u' then
      (wholePart letter v).bind (integerText { s with alternate := false } 10 [])
    else if c = 'o' ∨ c = 'x' ∨ c = 'X' then
      match integer? v with
      | none => .error (.noInteger letter (v.sort))
      | some n =>
        if c = 'o' then integerText s 8 "0o" n
        else (integerText s 16 "0x" n).map fun t => if c = 'X' then upperAscii t else t
    else if c = 'e' ∨ c = 'f' ∨ c = 'g' then (real v).map (realText s c)
    else if c = 'E' ∨ c = 'F' ∨ c = 'G' then
      (real v).map fun x => upperAscii (realText s c.toLower x)
    else .error (.unknownLetter letter index)
  | _ => .error (.unknownLetter letter index)

/-! ### Reading a template -/

/-- Arguments that are still to be taken: a list, or one that can be taken once if it has not been
taken yet, with the names if there are any. -/
structure Supply where
  names : Option Entries
  values : List Json

/-- The arguments before the first place. -/
def Supply.of : Arguments → Supply
  | .listed values => ⟨none, values⟩
  | .named entries => ⟨some entries, [.object entries]⟩

/-- Takes an argument. -/
def Supply.take (s : Supply) : Except TemplateError (Json × Supply) :=
  match s.values with
  | [] => .error .tooFew
  | v :: vs => .ok (v, { s with values := vs })

/-- The name in parentheses at the front of a text, which may hold parentheses in pairs; `depth` are
open. -/
def nameFrom (depth : Nat) : Text → Option (Text × Text)
  | [] => none
  | c :: rest =>
    if c = .scalar ')' then
      match depth with
      | 0 => some ([], rest)
      | depth + 1 => (nameFrom depth rest).map fun (t, r) => (c :: t, r)
    else
      (nameFrom (if c = .scalar '(' then depth + 1 else depth) rest).map fun (t, r) => (c :: t, r)

/-- A style with a flag, if the code point is one. -/
def flag? (s : Style) : CodePoint → Option Style
  | .scalar '-' => some { s with left := true }
  | .scalar '+' => some { s with plus := true }
  | .scalar ' ' => some { s with blank := true }
  | .scalar '#' => some { s with alternate := true }
  | .scalar '0' => some { s with zero := true }
  | _ => none

/-- The flags at the front of a text. -/
def flags (s : Style) : Text → Style × Text
  | [] => (s, [])
  | c :: rest =>
    match flag? s c with
    | some s => flags s rest
    | none => (s, c :: rest)

/-- A number of digits at the front of a text, or the argument that a star takes. -/
def count (m : Measure) (a : Supply) (t : Text) : Except TemplateError (Int × Supply × Text) :=
  match t with
  | .scalar '*' :: rest => do
    let (v, a) ← a.take
    match integer? v with
    | some n =>
      if -(m.bound : Int) ≤ n ∧ n < m.bound then .ok (n, a, rest) else .error (.outOfRange m)
    | none => .error .noWidth
  | _ =>
    let n := Text.digitsValue (t.takeWhile CodePoint.isDigit)
    if n < m.bound then .ok (n, a, t.dropWhile CodePoint.isDigit) else .error (.tooBig m)

/-- The name of an argument, if one is told, with the arguments that it leaves. -/
def readName (a : Supply) (t : Text) : Except TemplateError (Supply × Text) :=
  match t with
  | .scalar '(' :: rest =>
    match a.names with
    | none => .error .noNames
    | some entries =>
      match nameFrom 0 rest with
      | none => .error .incompleteName
      | some (name, rest) =>
        match entries.get? name with
        | none => .error (.noSuchName name)
        | some v => .ok (⟨a.names, [v]⟩, rest)
  | _ => .ok (a, t)

/-- The width at the front of a text; a negative one asks for blanks at the right, and the least of
all numbers, which has no opposite, for none. -/
def readWidth (s : Style) (a : Supply) (t : Text) : Except TemplateError (Style × Supply × Text) :=
  (count .width a t).map fun (n, a, t) =>
    let width := if n.natAbs < Measure.width.bound then n.natAbs else 0
    ({ s with left := s.left || n < 0, width := width }, a, t)

/-- The precision at the front of a text; a negative one counts as zero. -/
def readPrecision (s : Style) (a : Supply) (t : Text) :
    Except TemplateError (Style × Supply × Text) :=
  match t with
  | .scalar '.' :: rest =>
    (count .precision a rest).map fun (n, a, t) => ({ s with precision := some n.toNat }, a, t)
  | _ => .ok (s, a, t)

/-- The greatest width for which there is room. -/
def maxWidth : Nat := Nat.pow 2 31

/-- An argument in a style of any width, shown as a letter says; where there is no room, an argument
that cannot be shown at all is the error to tell. -/
def showWide (s : Style) (letter : CodePoint) (index : Nat) (v : Json) : Except TemplateError Text :=
  if s.width ≤ maxWidth then showAs s letter index v
  else (showAs { s with width := 0 } letter index v).bind fun _ => .error .noRoom

/-- A text without a letter at its front that tells the size of a number. -/
def dropSize : Text → Text
  | .scalar c :: rest => if c = 'h' ∨ c = 'l' ∨ c = 'L' then rest else .scalar c :: rest
  | t => t

/-- A place whose percent sign has been read, in a template of a given length: its text, the
arguments that are left, and the rest of the template. -/
def place (length : Nat) (a : Supply) (t : Text) : Except TemplateError (Text × Supply × Text) :=
  match t with
  | .scalar '%' :: rest => .ok ("%", a, rest)
  | t => do
    let (a, t) ← readName a t
    let (s, t) := flags .plain t
    let (s, a, t) ← readWidth s a t
    let (s, a, t) ← readPrecision s a t
    match dropSize t with
    | [] => .error .incomplete
    | letter :: rest =>
      let (v, a) ← a.take
      let t ← showWide s letter (length - rest.length - 1) v
      .ok (t, a, rest)

/-- Fills the rest of a template; `fuel` bounds the number of its places. -/
def fillFrom (length : Nat) : (fuel : Nat) → Supply → Text → Except TemplateError (Text × Supply)
  | 0, a, t => .ok (t, a)
  | fuel + 1, a, t =>
    let before := t.takeWhile (· != .scalar '%')
    match t.dropWhile (· != .scalar '%') with
    | [] => .ok (before, a)
    | _ :: rest =>
      match place length a rest with
      | .error e => .error e
      | .ok (shown, a, rest) =>
        (fillFrom length fuel a rest).map fun (t, a) => (before ++ shown ++ t, a)

/-- A template filled with arguments. -/
def fill (template : Text) (args : Arguments) : Except TemplateError Text :=
  match fillFrom template.length (template.length + 1) (.of args) template with
  | .error e => .error e
  | .ok (t, a) => if a.names.isNone && !a.values.isEmpty then .error .tooMany else .ok t

/-- The message that a template and arguments give: without arguments the template is the message,
and a single object that is not empty gives its entries as named arguments. -/
def message (template : Text) : List Json → Except TemplateError Text
  | [] => .ok template
  | [.object (e :: es)] => fill template (.named (e :: es))
  | values => fill template (.listed values)

end Template

end LabelBook
