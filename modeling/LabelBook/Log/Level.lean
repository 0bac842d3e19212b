import LabelBook.Text.Basic

/-!
Levels of log records: numbers, some of which have names.
-/

namespace LabelBook

/-- The weight of a log record. -/
abbrev Level := Int

namespace Level

/-- The level that stands for none. -/
def notSet : Level := 0

/-- The level of details for the search for errors. -/
def debug : Level := 10

/-- The level of confirmations. -/
def info : Level := 20

/-- The level of things that might go wrong. -/
def warning : Level := 30

/-- The level of things that went wrong. -/
def error : Level := 40

/-- The names of levels. -/
def names : List (Level × Text) :=
  [(notSet, "NOTSET"), (debug, "DEBUG"), (info, "INFO"), (warning, "WARNING"), (error, "ERROR"),
    (50, "CRITICAL")]

/-- The name of a level; a level without one is told by its number. -/
def name (l : Level) : Text :=
  match names.lookup l with
  | some t => t
  | none => Text.concat ["Level ", Text.ofInt l]

end Level

end LabelBook
