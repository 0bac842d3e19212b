import LabelBook.Text.Quoted

/-!
Paths. A path starts at the root or at the directory one is in, and goes on through names. Repeated
slashes and single dots say nothing and are dropped; two dots are a name like any other, because
what lies above a directory depends on links. A path that starts with exactly two slashes keeps
them.

    a//b/./c  ↦  a/b/c        //a  ↦  //a        ///a  ↦  /a        (empty)  ↦  .
-/

namespace LabelBook

/-- Where a path starts. -/
inductive Anchor where
  | here
  | root
  | doubleRoot
  deriving DecidableEq, Inhabited

/-- A path: where it starts and the names on it, none of them empty or a single dot. -/
structure Path where
  anchor : Anchor
  names : List Text
  deriving DecidableEq, Inhabited

namespace Path

/-- The slash between names. -/
def slash : CodePoint := .scalar '/'

/-- The names of a text that holds slashes. -/
def namesOf (t : Text) : List Text :=
  (Text.splitOn (· == slash) t).filter fun n => !n.isEmpty && n != "."

/-- The steps of a text that is followed as a link: its names, single dots among them, and an empty
one behind them if the text ends in a slash. -/
def stepsOf (t : Text) : List Text :=
  let parts := Text.splitOn (· == slash) t
  let names := parts.filter fun n => !n.isEmpty
  if !names.isEmpty && parts.getLast? == some [] then names ++ [[]] else names

/-- Where a text starts as a path. -/
def anchorOf (t : Text) : Anchor :=
  match (t.takeWhile (· == slash)).length with
  | 0 => .here
  | 2 => .doubleRoot
  | _ => .root

/-- The path that a text spells. -/
def ofText (t : Text) : Path := ⟨anchorOf t, namesOf t⟩

/-- The text of a path. -/
def text (p : Path) : Text :=
  let names := Text.joinWith "/" p.names
  match p.anchor with
  | .here => if names.isEmpty then "." else names
  | .root => "/" ++ names
  | .doubleRoot => "//" ++ names

/-- The path of names from the root. -/
def ofRoot (names : List Text) : Path := ⟨.root, names⟩

/-- Names without those that two dots take back; at the root two dots lead nowhere. -/
def collapse (names : List Text) : List Text :=
  names.foldl (fun (done : List Text) (n : Text) => if n = ".." then done.dropLast else done ++ [n]) []

/-- The path from the root that a path means when one is at some other path, judged by the names
alone. -/
def absolute (p here : Path) : Path :=
  match p.anchor with
  | .here => { here with names := collapse (here.names ++ p.names) }
  | _ => { p with names := collapse p.names }

/-- A path with one more name. -/
def child (p : Path) (name : Text) : Path := { p with names := p.names ++ [name] }

/-- The last name of a path; empty if there is none. -/
def name (p : Path) : Text := p.names.getLast?.getD []

/-- The path without its last name. -/
def parent (p : Path) : Path := { p with names := p.names.dropLast }

/-- The end of a name from its last point on, provided that something precedes and follows it. -/
def suffix (p : Path) : Text :=
  let point : CodePoint := .scalar '.'
  let after := (p.name.reverse.takeWhile (· != point)).reverse
  let before := p.name.take (p.name.length - after.length - 1)
  if after.isEmpty || before.isEmpty then [] else point :: after

end Path

end LabelBook
