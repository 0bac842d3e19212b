import LabelBook.Program

/-!
A world as a plain value: a tree of files with the directory one is in, the environment, the accounts
with their home directories, the time, what has been written to the console, the latest first, and
the state of logging. A program run on a world gives what it ends with, and the world after it.
-/

namespace LabelBook

/-- Everything that a program deals with. -/
structure World where
  tree : Tree
  here : Location
  environment : List (Text × Text)
  accounts : List (Text × Text)
  ownHome : Option Text
  now : Int
  printed : List Text
  warned : List Text
  logger : Logger

namespace World

/-- All that has been written to standard output. -/
def output (w : World) : Text := Text.concat w.printed.reverse

/-- All that has been written to standard error. -/
def warnings (w : World) : Text := Text.concat w.warned.reverse

/-- The location that a path leads to. -/
def locate (w : World) (aim : Tree.Aim) (p : Path) : Except Refusal Location :=
  match p.handedOver with
  | .error e => .error e
  | .ok _ =>
    let start := match p.anchor with
      | .here => w.here
      | _ => []
    (w.tree.walk aim Tree.maxLinks start p.names).mapError fun why => .system why p.text none

/-- A reason as a refusal of an operation on a path. -/
def refuse (p : Path) (r : Except Reason α) : Except Refusal α :=
  r.mapError fun why => .system why p.text none

/-- The content of the file at a path. -/
def read (w : World) (p : Path) : Except Refusal Octets :=
  match w.locate .target p with
  | .error e => .error e
  | .ok l => refuse p (w.tree.read l)

/-- What a path leads to. -/
def species (w : World) (p : Path) : Except Refusal Species :=
  match w.locate .target p with
  | .error e => .error e
  | .ok l => refuse p (w.tree.species l)

/-- The path from the root to where a path leads. -/
def resolve (w : World) (p : Path) : Except Refusal Path := (w.locate .target p).map .ofRoot

/-- The world after an operation on the tree at the location of a path, or as it was. -/
def change (w : World) (aim : Tree.Aim) (p : Path) (f : Location → Except Reason Tree) :
    Except Refusal Unit × World :=
  match w.locate aim p with
  | .error e => (.error e, w)
  | .ok l =>
    match f l with
    | .error why => (.error (.system why p.text none), w)
    | .ok t => (.ok (), { w with tree := t })

/-- Whether a path ends in a name of its own, which can be given to something else. -/
def endsInName (p : Path) : Bool := !p.names.isEmpty && p.name != ".."

/-- A refusal with the target of the move that it concerns. -/
def withTarget (source target : Path) : Refusal → Refusal
  | .system why _ _ => .system why source.text (some target.text)
  | r => r

/-- The world after what is at one path has been moved to another, or as it was. -/
def rename (w : World) (source target : Path) : Except Refusal Unit × World :=
  match w.locate .entry source, w.locate .entry target with
  | .error e, _ => (.error (withTarget source target e), w)
  | _, .error e => (.error (withTarget source target e), w)
  | .ok s, .ok t =>
    if !endsInName source || !endsInName target then
      (.error (.system .busy source.text (some target.text)), w)
    else match w.tree.rename s t with
      | .error why => (.error (.system why source.text (some target.text)), w)
      | .ok tree => (.ok (), { w with tree := tree })

/-- The file at a path as a stream, made if need be, and the world after that. -/
def openFile (w : World) (p : Path) : Except Refusal Stream × World :=
  match w.locate .writing p with
  | .error e => (.error e, w)
  | .ok l =>
    match w.tree.openFile l with
    | .error why => (.error (.system why p.text none), w)
    | .ok (number, t) => (.ok ⟨number⟩, { w with tree := t })

/-- The answer to a request, with the world after it. -/
def answer : (r : Request) → World → r.Answer × World
  | .read p, w => (w.read p, w)
  | .write p content, w => w.change .writing p fun l => w.tree.write l content
  | .openFile p, w => w.openFile p
  | .extend s more, w => (.ok (), { w with tree := w.tree.extend s.number more })
  | .sizeOf s, w => (w.tree.sizeOf s.number, w)
  | .rename source target, w => w.rename source target
  | .remove p, w => w.change .entry p w.tree.remove
  | .makeDirectory p, w => w.change .entry p w.tree.makeDirectory
  | .species p, w => (w.species p, w)
  | .resolve p, w => (w.resolve p, w)
  | .now, w => (w.now, w)
  | .environment name, w => (w.environment.lookup name, w)
  | .home none, w => (w.ownHome, w)
  | .home (some account), w => (w.accounts.lookup account, w)
  | .print t, w => ((), { w with printed := t :: w.printed })
  | .warn t, w => ((), { w with warned := t :: w.warned })
  | .logger, w => (w.logger, w)
  | .setLogger l, w => ((), { w with logger := l })

end World

/-- What a program ends with on a world, and the world after it. -/
def Program.run : Program α → World → Except Failure α × World
  | done a, w => (.ok a, w)
  | fail f, w => (.error f, w)
  | ask r next, w =>
    let (a, w) := w.answer r
    (next a).run w

end LabelBook
