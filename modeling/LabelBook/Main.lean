import LabelBook.CommandLine.Run
import LabelBook.Files.Account
import Std.Time.DateTime.Timestamp

/-!
The program on a real system: requests are answered with its files, its clock, its environment and
its console. The state of logging is carried along, and so are the files that are open.
-/

namespace LabelBook.System

/-- The number of the system's reason for an error, as it is reported with either sign. -/
def numberOf : IO.Error → Nat
  | .noFileOrDirectory _ n _ | .interrupted _ n _ => n.toInt32.toInt.natAbs
  | .alreadyExists _ n _ | .invalidArgument _ n _ | .permissionDenied _ n _
  | .resourceExhausted _ n _ | .inappropriateType _ n _ | .noSuchThing _ n _ =>
    n.toInt32.toInt.natAbs
  | .otherError n _ | .resourceBusy n _ | .resourceVanished n _ | .unsupportedOperation n _
  | .hardwareFault n _ | .unsatisfiedConstraints n _ | .illegalOperation n _ | .protocolError n _
  | .timeExpired n _ => n.toInt32.toInt.natAbs
  | .unexpectedEof | .userError _ => 5

/-- A text as the system takes it; a surrogate is replaced. -/
def plain (t : Text) : String :=
  .ofList (t.map fun
    | .scalar c => c
    | .lone _ => '�')

/-- The system's refusal behind an error. -/
def refusal (p : Path) (target : Option Path) (e : IO.Error) : Refusal :=
  .system (.ofNumber (numberOf e) (Text.ofString (toString e))) p.text (target.map Path.text)

/-- Does something with a path, unless the path cannot be handed to the system. -/
def withPath (p : Path) (target : Option Path) (act : String → IO α) : IO (Except Refusal α) := do
  match p.handedOver with
  | .error e => return .error e
  | .ok t =>
    try return .ok (← act (plain t))
    catch e => return .error (refusal p target e)

/-- Octets as the system takes them. -/
def packed (o : Octets) : ByteArray := ⟨o.toArray⟩

/-- A file that is open: its path, the handle, and the number of octets in it. -/
structure OpenFile where
  path : Path
  handle : IO.FS.Handle
  size : Nat

/-- What is carried along from one request to the next: the state of logging, and the files that are
open, by the numbers of their streams. -/
structure State where
  logger : Logger
  files : Array OpenFile

/-- Opens a file for more to be added. -/
def openFile (p : Path) : StateT State IO (Except Refusal Stream) := do
  let opened ← withPath p none fun name => do
    let handle ← IO.FS.Handle.mk name .append
    return OpenFile.mk p handle (← IO.FS.readBinFile name).size
  match opened with
  | .error e => return .error e
  | .ok f =>
    let s ← get
    set { s with files := s.files.push f }
    return .ok ⟨s.files.size⟩

/-- Adds to the end of an open file. -/
def extend (stream : Stream) (more : Octets) : StateT State IO (Except Refusal Unit) := do
  match (← get).files[stream.number]? with
  | none => return .ok ()
  | some f =>
    let written ← withPath f.path none fun _ => do
      f.handle.write (packed more)
      f.handle.flush
    modify fun s => { s with files := s.files.modify stream.number fun f =>
      { f with size := f.size + more.length } }
    return written

/-- What a path leads to. -/
def species (name : String) : IO Species := do
  try
    let _ ← IO.FS.readBinFile name
    return .file
  catch e => if numberOf e = Reason.isDirectory.number then return .directory else throw e

/-- The home directory of an account, or of the one that runs the program. -/
def home? (account : Option Text) : IO (Option Text) := do
  try
    let accounts := Account.listOf (.ofString (← IO.FS.readFile "/etc/passwd"))
    match account with
    | some name => return (accounts.find? fun a => a.name = name).map Account.home
    | none =>
      let runner := Account.runner? (.ofString (← IO.FS.readFile "/proc/self/status"))
      return (accounts.find? fun a => some a.number = runner).map Account.home
  catch _ => return none

/-- Writes to a stream. -/
def put (s : IO.FS.Stream) (t : Text) : IO Unit := do
  s.putStr (plain t)
  s.flush

/-- Answers a request. -/
def answer : (r : Request) → StateT State IO r.Answer
  | .read p => withPath p none fun name => do return (← IO.FS.readBinFile name).toList
  | .write p content => withPath p none fun name => IO.FS.writeBinFile name (packed content)
  | .openFile p => openFile p
  | .extend s more => extend s more
  | .sizeOf s => do return (((← get).files[s.number]?).map OpenFile.size).getD 0
  | .rename source target =>
    withPath source (some target) fun name => IO.FS.rename name (plain target.text)
  | .remove p => withPath p none fun name => IO.FS.removeFile name
  | .makeDirectory p => withPath p none fun name => IO.FS.createDir name
  | .species p => withPath p none species
  | .resolve p => withPath p none fun name => do
    return Path.ofText (.ofString (toString (← IO.FS.realPath name)))
  | .now => do return (← Std.Time.Timestamp.now).toNanosecondsSinceUnixEpoch.val
  | .environment name => do return (← IO.getEnv (plain name)).map Text.ofString
  | .home account => home? account
  | .print t => do put (← IO.getStdout) t
  | .warn t => do put (← IO.getStderr) t
  | .logger => do return (← get).logger
  | .setLogger l => modify fun s => { s with logger := l }

end LabelBook.System

/-- Carries out the command line; gives the status to end with, which is 1 after a failure. -/
def main (args : List String) : IO UInt32 := do
  let program := LabelBook.CommandLine.run (args.map LabelBook.Text.ofString)
  let (ended, _) ← (program.carryOut LabelBook.System.answer).run ⟨.initial, #[]⟩
  match ended with
  | .ok status => return status.toUInt32
  | .error f =>
    LabelBook.System.put (← IO.getStderr) (.concat [f.message, "\n"])
    return 1
