import LabelBook.Log.Event

/-!
The state of logging: its level, the outlets that events go to, and the events
themselves, so that they can be looked at. An outlet has a least level of its own and leads to the
console or to a file; a file that would grow beyond its limit makes room by moving on to a
numbered name.
-/

namespace LabelBook

/-- The two ways of writing events to a file. -/
inductive Layout where
  | lines
  | json
  deriving DecidableEq

/-- An open file, told apart by its number. It stays the same file when something else comes to its
path. -/
structure Stream where
  number : Nat
  deriving DecidableEq

/-- A log file: its path from the root, its limit in octets (none if it is not positive), how many
older files are kept, whether it is opened only when it is needed, and the file that is open. -/
structure LogFile where
  layout : Layout
  path : Path
  limit : Int
  backups : Int
  lazy : Bool
  stream : Option Stream

/-- Where an outlet leads. -/
inductive Sink where
  | console
  | file (f : LogFile)

/-- Where events of some least level go. -/
structure Outlet where
  level : Level
  sink : Sink

/-- The state of logging, with the events so far, the latest first. A log that has no level of its own
goes by the one of the log above it. -/
structure Logger where
  level : Level
  above : Level
  outlets : List Outlet
  events : List Event

namespace Logger

/-- The least level that counts. -/
def least (l : Logger) : Level := if l.level = .notSet then l.above else l.level

/-- The state before anything has been set up: there is no level, and above it warnings count. -/
def initial : Logger := ⟨.notSet, .warning, [], []⟩

end Logger

end LabelBook
