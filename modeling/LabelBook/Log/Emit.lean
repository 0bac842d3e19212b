import LabelBook.Program

/-!
Sending events to the outlets. An event below the level of the log or of an outlet is dropped there.
A log file moves to the name with ".1" before it would reach its limit, the file of that name to
".2", and so on up to the number of files that are kept. What goes wrong with an outlet, or with
writing an event for it, is no failure of the program: the event is lost for this outlet.
-/

namespace LabelBook

namespace LogFile

/-- The path of an older file. -/
def older (f : LogFile) (i : Nat) : Path :=
  { f.path with names := f.path.names.dropLast ++ [Text.concat [f.path.name, ".", Text.ofNat i]] }

/-- The text of an event in the file. -/
def lineOf (f : LogFile) (now : Int) (e : Event) : Except Failure Text :=
  match f.layout with
  | .lines => e.textLine now
  | .json => (e.json now).map (· ++ [.scalar '\n'])

/-- Moves a file to another path if it is there, in place of what is there. -/
def shift (source target : Path) : Program Unit := do
  if (← Program.species? source).isSome then
    if (← Program.species? target).isSome then Program.remove target
    Program.rename source target

/-- Moves the older files up by one, from the one numbered `i` down. -/
def shiftOlder (f : LogFile) : (i : Nat) → Program Unit
  | 0 => pure ()
  | i + 1 => do
    shift (f.older (i + 1)) (f.older (i + 2))
    f.shiftOlder i

/-- Opens the file if it is not open. -/
def openIfClosed (f : LogFile) : Program LogFile := do
  if f.stream.isSome then return f
  return { f with stream := some (← Program.openFile f.path) }

/-- Starts the file anew: what has been written becomes the first of the older files, if any are
kept. -/
def rotate (f : LogFile) : Program LogFile := do
  if 0 < f.backups then
    f.shiftOlder (f.backups.toNat - 1)
    let first := f.older 1
    if (← Program.species? first).isSome then Program.remove first
    if (← Program.species? f.path).isSome then Program.rename f.path first
  let f := { f with stream := none }
  if f.lazy then return f else f.openIfClosed

/-- Whether a text of some length would bring the open file to its limit. -/
def isFull (f : LogFile) (length : Nat) : Program Bool :=
  match f.stream with
  | some s => do return 0 < f.limit && f.limit ≤ ((← Program.sizeOf s) + length : Nat)
  | none => pure false

/-- Makes room for a text of some length, unless a directory stands at the path. -/
def makeRoom (f : LogFile) (length : Nat) : Program LogFile := do
  if (← Program.species? f.path) = some .directory then return f
  let f ← f.openIfClosed
  if ← f.isFull length then f.rotate else return f

/-- Adds a text to the file; one that has no octets is lost. -/
def add (f : LogFile) (t : Text) : Program LogFile := do
  let f ← (← f.makeRoom t.length).openIfClosed
  match f.stream, Utf8.encode t with
  | some s, .ok octets =>
    Program.extend s octets
    return f
  | _, _ => return f

/-- Writes an event to the file, which is opened even if the event cannot be written. -/
def emit (f : LogFile) (e : Event) : Program LogFile := do
  let now ← Program.now
  Program.orElse
    (match f.lineOf now e with
      | .ok t => f.add t
      | .error _ => f.openIfClosed)
    fun _ => pure { f with stream := none }

end LogFile

namespace Outlet

/-- Sends an event to an outlet. -/
def emit (o : Outlet) (e : Event) : Program Outlet :=
  if e.level < o.level then pure o
  else match o.sink with
    | .console =>
      match e.consoleLine with
      | .ok t => do
        Program.warn t
        return o
      | .error _ => pure o
    | .file f => do return { o with sink := .file (← f.emit e) }

/-- Sends an event to outlets, one after another. -/
def emitAll (e : Event) : List Outlet → Program (List Outlet)
  | [] => pure []
  | o :: os => do
    let o ← o.emit e
    let os ← emitAll e os
    return o :: os

end Outlet

namespace Program

/-- Logs an event. -/
def logEvent (e : Event) : Program Unit := do
  let l ← logger
  if l.least ≤ e.level then
    let outlets ← Outlet.emitAll e l.outlets
    setLogger { l with outlets := outlets, events := e :: l.events }

/-- Logs a message. -/
def log (level : Level) (message : Text) : Program Unit := logEvent (.plain level message)

end Program

end LabelBook
