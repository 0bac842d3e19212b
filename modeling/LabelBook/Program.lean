import LabelBook.Failure
import LabelBook.Files.Tree
import LabelBook.Log.Logger

/-!
Programs: what the library does with files, the clock, the environment, the console and the log. A
program is done, fails, or asks one thing and goes on with the answer. It can be run on a world that
is a plain value, or carried out on the system; both only have to answer requests.
-/

namespace LabelBook

/-- What a program can ask for. -/
inductive Request where
  | read (p : Path)
  | write (p : Path) (content : Octets)
  | openFile (p : Path)
  | extend (s : Stream) (more : Octets)
  | sizeOf (s : Stream)
  | rename (source target : Path)
  | remove (p : Path)
  | makeDirectory (p : Path)
  | species (p : Path)
  | resolve (p : Path)
  | now
  | environment (name : Text)
  | home (account : Option Text)
  | print (t : Text)
  | warn (t : Text)
  | logger
  | setLogger (l : Logger)

/-- The answer to a request. -/
abbrev Request.Answer : Request → Type
  | read _ => Except Refusal Octets
  | write .. => Except Refusal Unit
  | openFile _ => Except Refusal Stream
  | extend .. => Except Refusal Unit
  | sizeOf _ => Nat
  | rename .. => Except Refusal Unit
  | remove _ => Except Refusal Unit
  | makeDirectory _ => Except Refusal Unit
  | species _ => Except Refusal Species
  | resolve _ => Except Refusal Path
  | now => Int
  | environment _ => Option Text
  | home _ => Option Text
  | print _ => Unit
  | warn _ => Unit
  | logger => Logger
  | setLogger _ => Unit

/-- A program that gives a value of a type. -/
inductive Program (α : Type) where
  | done (a : α)
  | fail (f : Failure)
  | ask (r : Request) (next : r.Answer → Program α)

namespace Program

/-- One program after another. -/
def andThen : Program α → (α → Program β) → Program β
  | done a, k => k a
  | fail f, _ => fail f
  | ask r next, k => ask r fun a => (next a).andThen k

/-- A program with another that takes over when it fails. -/
def orElse : Program α → (Failure → Program α) → Program α
  | done a, _ => done a
  | fail f, k => k f
  | ask r next, k => ask r fun a => (next a).orElse k

instance : Monad Program where
  pure := done
  bind := andThen

instance : MonadExcept Failure Program where
  throw := fail
  tryCatch := orElse

/-- The program that gives a result that is known already. -/
def ofExcept : Except Failure α → Program α
  | .ok a => done a
  | .error f => fail f

/-- What a program ends with, as a value. -/
def outcome (p : Program α) : Program (Except Failure α) :=
  orElse (andThen p fun a => done (.ok a)) fun f => done (.error f)

/-- Carries out a program by means that answer its requests. -/
def carryOut [Monad m] (answer : (r : Request) → m r.Answer) : Program α → m (Except Failure α)
  | done a => pure (.ok a)
  | fail f => pure (.error f)
  | ask r next => do
    let a ← answer r
    (next a).carryOut answer

/-! ### Requests as programs -/

/-- A program that asks for something that can be refused. -/
def attempt (r : Request) (answer : r.Answer → Except Refusal α) : Program α :=
  ask r fun a => match answer a with
    | .ok v => done v
    | .error e => fail (.refused e)

/-- The content of a file. -/
def read (p : Path) : Program Octets := attempt (.read p) id

/-- Gives a file new content; a file that is not there is made. -/
def write (p : Path) (content : Octets) : Program Unit := attempt (.write p content) id

/-- The file at a path, open for more to be added; a file that is not there is made. -/
def openFile (p : Path) : Program Stream := attempt (.openFile p) id

/-- Adds to the end of an open file. -/
def extend (s : Stream) (more : Octets) : Program Unit := attempt (.extend s more) id

/-- The number of octets in an open file. -/
def sizeOf (s : Stream) : Program Nat := ask (.sizeOf s) done

/-- Moves a file to another path, in place of what is there. -/
def rename (source target : Path) : Program Unit := attempt (.rename source target) id

/-- Removes a file or a link. -/
def remove (p : Path) : Program Unit := attempt (.remove p) id

/-- Makes a directory. -/
def makeDirectory (p : Path) : Program Unit := attempt (.makeDirectory p) id

/-- What a path leads to. -/
def species (p : Path) : Program Species := attempt (.species p) id

/-- The path from the root, without links, to where a path leads. -/
def resolve (p : Path) : Program Path := attempt (.resolve p) id

/-- The time. -/
def now : Program Int := ask .now done

/-- The value of an environment variable. -/
def environment? (name : Text) : Program (Option Text) := ask (.environment name) done

/-- The home directory of an account, or of the account one is in. -/
def home? (account : Option Text) : Program (Option Text) := ask (.home account) done

/-- Writes to standard output. -/
def print (t : Text) : Program Unit := ask (.print t) done

/-- Writes to standard error. -/
def warn (t : Text) : Program Unit := ask (.warn t) done

/-- The state of logging. -/
def logger : Program Logger := ask .logger done

/-- Changes the state of logging. -/
def setLogger (l : Logger) : Program Unit := ask (.setLogger l) done

/-! ### Questions about paths -/

/-- Whether there is something at a path. A path that cannot be handed to the system leads nowhere;
refusals that do not mean absence are failures. -/
def exists? (p : Path) : Program Bool :=
  ask (.species p) fun
    | .ok _ => done true
    | .error (.system why path target) =>
      if why.meansAbsent then done false else fail (.refused (.system why path target))
    | .error _ => done false

/-- Whether there is a directory at a path, refusals taken as for `exists?`. -/
def isDirectory (p : Path) : Program Bool :=
  ask (.species p) fun
    | .ok s => done (s == .directory)
    | .error (.system why path target) =>
      if why.meansAbsent then done false else fail (.refused (.system why path target))
    | .error _ => done false

/-- What a path leads to, if it leads to something. -/
def species? (p : Path) : Program (Option Species) :=
  ask (.species p) fun
    | .ok s => done (some s)
    | .error _ => done none

/-- Makes a directory unless it is there. -/
def ensureDirectory (p : Path) : Program Unit :=
  orElse (makeDirectory p) fun f => do
    if f.isSystem then
      if ← isDirectory p then done () else fail f
    else fail f

/-- Makes a directory and those above it, unless they are there; `depth` bounds how many are made. -/
def ensureDirectories : (depth : Nat) → Path → Program Unit
  | 0, p => ensureDirectory p
  | depth + 1, p =>
    orElse (makeDirectory p) fun f => do
      match f with
      | .refused (.system .notFound ..) =>
        if p.parent = p then fail f
        else
          ensureDirectories depth p.parent
          ensureDirectory p
      | .refused (.system ..) => if ← isDirectory p then done () else fail f
      | _ => fail f

/-- Makes a directory and those above it, unless they are there. -/
def ensureTree (p : Path) : Program Unit := ensureDirectories p.names.length p

end Program

end LabelBook
