import LabelBook.Files.Home
import LabelBook.Log.Emit

/-!
Setting up the log: an outlet to the console with a level of choice, and two files in a directory,
one for people and one for programs, that receive everything from details on. A log that has an
outlet is left as it is.
-/

namespace LabelBook.Log

/-- The environment variable that names the directory of the log files. -/
def directoryVariable : Text := "WALLETLABELS_LOG_DIR"

/-- The name of the log file for people. -/
def textName : Text := "walletlabels.log"

/-- The name of the log file for programs. -/
def jsonName : Text := "walletlabels.jsonl"

/-- The most octets in a log file. -/
def limit : Int := 5 * 1024 * 1024

/-- The number of older log files that are kept. -/
def backups : Int := 5

/-- The directory of the log files, if nothing else is said. -/
def defaultDirectory : Program Path := Program.belowHome [".walletlabels", "logs"]

/-- The directory of the log files: the one that is asked for, else the one that the environment
names, else the default one. It is made if need be. -/
def directory (asked : Option Path) : Program Path := do
  let p ← match asked with
    | some p => Program.expandHome p
    | none =>
      match ← Program.environment? directoryVariable with
      | some (c :: t) => Program.expandHome (.ofText (c :: t))
      | _ => defaultDirectory
  Program.ensureTree p
  return p

/-- Adds an outlet. -/
def addOutlet (o : Outlet) : Program Unit := do
  let l ← Program.logger
  Program.setLogger { l with outlets := l.outlets ++ [o] }

/-- A log file at a path, opened now unless it is lazy. -/
def openFile (layout : Layout) (p : Path) (limit backups : Int) (lazy : Bool) : Program LogFile := do
  let here ← Program.resolve ⟨.here, []⟩
  let f : LogFile := ⟨layout, p.absolute here, limit, backups, lazy, none⟩
  if lazy then return f else f.openIfClosed

/-- A log file for programs, in a directory that is made if need be. -/
def openJsonFile (p : Path) (limit backups : Int) (lazy : Bool) : Program LogFile := do
  Program.ensureTree p.parent
  openFile .json p limit backups lazy

/-- Sets up the log unless it has an outlet. -/
def setUp (level : Level) (asked : Option Path) : Program Unit := do
  if !(← Program.logger).outlets.isEmpty then return
  let dir ← Program.resolve (← directory asked)
  addOutlet ⟨level, .console⟩
  addOutlet ⟨.debug, .file (← openFile .lines (dir.child textName) limit backups false)⟩
  addOutlet ⟨.debug, .file (← openJsonFile (dir.child jsonName) limit backups false)⟩
  let l ← Program.logger
  Program.setLogger { l with level := .debug }

end LabelBook.Log
