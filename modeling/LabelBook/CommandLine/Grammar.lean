import LabelBook.Text.Decimal
import LabelBook.Text.Quoted

/-!
Grammars of command lines. A grammar has switches, which start with a hyphen and may take a value, and
places, which are filled by the arguments that are left, one each, or by all that follow. A switch
can be told by the beginning of its name if no other begins so, and its value can stand behind an
equals sign. Two hyphens on their own make everything after them an argument; so is what looks like
a negative number or holds a blank and is no switch.

Reading goes from left to right: places take the arguments in front of the next switch, as many as
there are, and what neither a switch nor a place takes is left over.
-/

namespace LabelBook.CommandLine

/-- What a switch does. -/
inductive Effect where
  | value (choices : List Text)
  | flag
  | help
  | version
  deriving DecidableEq

/-- A switch with its names. -/
structure Switch where
  names : List Text
  effect : Effect
  deriving DecidableEq

/-- A place for an argument, or for one and all that follow it; a place without choices takes
anything. -/
structure Place where
  name : Text
  choices : List Text
  takesRest : Bool

/-- A grammar, with the name of the program that messages start with. -/
structure Grammar where
  program : Text
  switches : List Switch
  places : List Place

/-- Why reading ends early: help or the version is asked for, or something is wrong. -/
inductive Stop where
  | help
  | version
  | fault (message : Text)
  deriving DecidableEq

/-- What has been read: the values of switches and places by name, the flags, and what is left
over. -/
structure Reading where
  values : List (Text × List Text)
  flags : List Text
  extras : List Text

namespace Reading

/-- Nothing has been read. -/
def empty : Reading := ⟨[], [], []⟩

/-- The value of a name, if it has one; the last one counts. A separator that is taken for a value
leaves none. -/
def value? (r : Reading) (name : Text) : Option Text := (r.values.lookup name).bind List.head?

/-- All arguments of a name. -/
def valuesOf (r : Reading) (name : Text) : List Text := (r.values.lookup name).getD []

end Reading

/-! ### Faults -/

/-- The name of a switch in messages. -/
def Switch.title (s : Switch) : Text := Text.joinWith "/" s.names

/-- A fault of an argument of a given name. -/
def argumentFault (title message : Text) : Stop :=
  .fault (Text.concat ["argument ", title, ": ", message])

/-- Complains about a value that is not among the choices; no choices allow anything. -/
def checkChoice (title : Text) (choices : List Text) (v : Text) : Except Stop Unit :=
  if choices.isEmpty || choices.contains v then .ok ()
  else .error (argumentFault title (Text.concat ["invalid choice: ", v.quoted, " (choose from ",
    Text.joinWith ", " (choices.map Text.quoted), ")"]))

/-- The fault of a value for a switch that takes none. -/
def ignoredValue (s : Switch) (v : Text) : Stop :=
  argumentFault s.title (Text.concat ["ignored explicit argument ", v.quoted])

/-! ### Recognising switches -/

/-- What is recognised as a switch: the switch, none if it is not known, the name it is told by, and
the value that is attached to it, if there is one. -/
structure Found where
  switch : Option Switch
  name : Text
  attached : Option Text

/-- The names of the switches, each with its switch. -/
def Grammar.names (g : Grammar) : List (Text × Switch) :=
  g.switches.flatMap fun s => s.names.map fun n => (n, s)

/-- The hyphen that switches start with. -/
def hyphen : CodePoint := .scalar '-'

/-- The sign between a switch and its value. -/
def equals : CodePoint := .scalar '='

/-- A text in front of its first equals sign, and the text behind it if there is one. -/
def splitValue (t : Text) : Text × Option Text :=
  match t.dropWhile (· != equals) with
  | [] => (t, none)
  | _ :: v => (t.takeWhile (· != equals), some v)

/-- The switches whose names a text may be short for. -/
def Grammar.candidates (g : Grammar) (t : Text) : List Found :=
  match t with
  | _ :: c :: _ =>
    if c = hyphen then
      let (start, v) := splitValue t
      (g.names.filter fun n => n.1.startsWith start).map fun n => ⟨some n.2, n.1, v⟩
    else
      g.names.filterMap fun n =>
        if n.1 = t.take 2 then some ⟨some n.2, n.1, some (t.drop 2)⟩
        else if n.1.startsWith t then some ⟨some n.2, n.1, none⟩
        else none
  | _ => []

/-- Digits of any script, or such digits with a point among or in front of them. -/
def isNumber (t : Text) : Bool :=
  let before := t.takeWhile CodePoint.isDecimal
  match t.dropWhile CodePoint.isDecimal with
  | [] => !before.isEmpty
  | c :: after => c == .scalar '.' && !after.isEmpty && after.all CodePoint.isDecimal

/-- A text that looks like a negative number; a line feed may end it. -/
def looksNegative : Text → Bool
  | c :: t =>
    c == hyphen && isNumber (if t.getLast? = some (.scalar '\n') then t.dropLast else t)
  | [] => false

/-- The fault of a text that may be short for several switches. -/
def ambiguous (t : Text) (found : List Found) : Stop :=
  .fault (Text.concat ["ambiguous option: ", t, " could match ",
    Text.joinWith ", " (found.map Found.name)])

/-- What a text is: a switch, known or not, or an argument. -/
def Grammar.recognise (g : Grammar) (t : Text) : Except Stop (Option Found) :=
  if !t.startsWith "-" then .ok none
  else match g.names.lookup t with
    | some s => .ok (some ⟨some s, t, none⟩)
    | none =>
      if t.length = 1 then .ok none
      else
        let (name, v) := splitValue t
        match v.bind fun _ => g.names.lookup name with
        | some s => .ok (some ⟨some s, name, v⟩)
        | none =>
          match g.candidates t with
          | [found] => .ok (some found)
          | [] =>
            if looksNegative t || t.contains (.scalar ' ') then .ok none
            else .ok (some ⟨none, t, none⟩)
          | found => .error (ambiguous t found)

/-- A part of a command line with what it is taken for. -/
inductive Token where
  | argument (t : Text)
  | separator
  | switch (t : Text) (found : Found)

namespace Token

/-- The text of a token. -/
def text : Token → Text
  | argument t => t
  | separator => "--"
  | switch t _ => t

/-- Whether a token is a switch. -/
def isSwitch : Token → Bool
  | switch .. => true
  | _ => false

/-- Whether a token is the separator. -/
def isSeparator : Token → Bool
  | separator => true
  | _ => false

end Token

/-- The tokens of a command line. -/
def Grammar.tokens (g : Grammar) : List Text → Except Stop (List Token)
  | [] => .ok []
  | t :: ts =>
    if t = "--" then .ok (.separator :: ts.map .argument)
    else match g.recognise t with
      | .error e => .error e
      | .ok none => (g.tokens ts).map (.argument t :: ·)
      | .ok (some found) => (g.tokens ts).map (.switch t found :: ·)

/-! ### Filling places -/

/-- The first separator of a group taken out. -/
def withoutSeparator (group : List Text) : List Text := group.erase "--"

/-- The tokens that a place takes, and those after them; none if no argument stands there. -/
def Place.group? (p : Place) (tokens : List Token) : Option (List Token × List Token) :=
  let before := tokens.takeWhile Token.isSeparator
  match tokens.dropWhile Token.isSeparator with
  | .argument t :: rest =>
    if p.takesRest then some (tokens, [])
    else
      let after := rest.takeWhile Token.isSeparator
      some (before ++ [.argument t] ++ after, rest.dropWhile Token.isSeparator)
  | _ => none

/-- The reading with a place filled by a group of tokens. -/
def Place.fill (p : Place) (group : List Token) (r : Reading) : Except Stop Reading :=
  let texts := group.map Token.text
  let texts := if p.takesRest then texts else withoutSeparator texts
  let checked : Except Stop Unit := match texts with
    | [] => .ok ()
    | t :: _ => checkChoice p.name p.choices t
  checked.map fun _ => { r with values := (p.name, texts) :: r.values }

/-- Fills places from the front of the tokens as long as there are arguments: the places that are
left, the tokens that are left, and the reading. -/
def fillPlaces : List Place → List Token → Reading → Except Stop (List Place × List Token × Reading)
  | [], tokens, r => .ok ([], tokens, r)
  | p :: ps, tokens, r =>
    match p.group? tokens with
    | none => .ok (p :: ps, tokens, r)
    | some (group, rest) =>
      match p.fill group r with
      | .error e => .error e
      | .ok r => fillPlaces ps rest r

/-! ### Taking switches -/

/-- The reading with a switch that takes no value. -/
def Switch.take (s : Switch) (r : Reading) : Except Stop Reading :=
  match s.effect with
  | .help => .error .help
  | .version => .error .version
  | _ => .ok { r with flags := s.names ++ r.flags }

/-- The reading with a value for a switch. -/
def Switch.takeValue (s : Switch) (choices : List Text) (v : Text) (r : Reading) :
    Except Stop Reading :=
  let values := withoutSeparator [v]
  let checked : Except Stop Unit := if values.isEmpty then .ok () else checkChoice s.title choices v
  checked.map fun _ => { r with values := s.names.map (fun n => (n, values)) ++ r.values }

/-- Switches of one letter written together, the first of which has been read: every letter behind it
has to be one. -/
def Grammar.letters (g : Grammar) (s : Switch) : Text → Except Stop (List Switch)
  | [] => .error (ignoredValue s [])
  | c :: rest =>
    match g.names.lookup [hyphen, c] with
    | none => .error (ignoredValue s (c :: rest))
    | some next =>
      if rest.isEmpty then .ok [s, next] else (g.letters next rest).map (s :: ·)

/-- The reading with several switches that take no value. -/
def takeAll : List Switch → Reading → Except Stop Reading
  | [], r => .ok r
  | s :: ss, r =>
    match s.take r with
    | .error e => .error e
    | .ok r => takeAll ss r

/-- Takes a switch in front of the tokens; gives the tokens that are left. -/
def Grammar.takeSwitch (g : Grammar) (t : Text) (found : Found) (tokens : List Token)
    (r : Reading) : Except Stop (List Token × Reading) :=
  match found.switch with
  | none => .ok (tokens, { r with extras := r.extras ++ [t] })
  | some s =>
    match s.effect, found.attached with
    | .value choices, some v => (s.takeValue choices v r).map fun r => (tokens, r)
    | .value choices, none =>
      match tokens with
      | .argument v :: rest => (s.takeValue choices v r).map fun r => (rest, r)
      | _ => .error (argumentFault s.title "expected one argument")
    | _, none => (s.take r).map fun r => (tokens, r)
    | _, some v =>
      if found.name.startsWith "--" then .error (ignoredValue s v)
      else match g.letters s v with
        | .error e => .error e
        | .ok ss => (takeAll ss r).map fun r => (tokens, r)

/-! ### Reading -/

/-- Reads tokens with places still to be filled; `fuel` bounds the number of steps. -/
def Grammar.readFrom (g : Grammar) : (fuel : Nat) → List Place → List Token → Reading →
    Except Stop (List Place × Reading)
  | 0, places, _, r => .ok (places, r)
  | fuel + 1, places, tokens, r =>
    if !tokens.any Token.isSwitch then
      (fillPlaces places tokens r).map fun (places, rest, r) =>
        (places, { r with extras := r.extras ++ rest.map Token.text })
    else
      match tokens with
      | .switch t found :: rest =>
        match g.takeSwitch t found rest r with
        | .error e => .error e
        | .ok (rest, r) => g.readFrom fuel places rest r
      | _ =>
        match fillPlaces places tokens r with
        | .error e => .error e
        | .ok (places, rest, r) =>
          if rest.length < tokens.length then g.readFrom fuel places rest r
          else
            let before := tokens.takeWhile fun k => !k.isSwitch
            g.readFrom fuel places (tokens.dropWhile fun k => !k.isSwitch)
              { r with extras := r.extras ++ before.map Token.text }

/-- The fault of places that nothing fills. -/
def missingPlaces (places : List Place) : Stop :=
  .fault (Text.concat ["the following arguments are required: ",
    Text.joinWith ", " (places.map Place.name)])

/-- Reads a command line. -/
def Grammar.read (g : Grammar) (args : List Text) : Except Stop Reading :=
  match g.tokens args with
  | .error e => .error e
  | .ok tokens =>
    match g.readFrom (tokens.length + 1) g.places tokens .empty with
    | .error e => .error e
    | .ok ([], r) => .ok r
    | .ok (places, _) => .error (missingPlaces places)

end LabelBook.CommandLine
