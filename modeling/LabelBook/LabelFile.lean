import LabelBook.Codec
import LabelBook.Program

/-!
Label files: a collection read from a file, and a collection written to one in place of what it held.
Every failure names the path and carries what is behind it, except for the few that do not come
from the file or its content.
-/

namespace LabelBook.LabelFile

/-- A failure to read a file as a failure of a label file. -/
def readFailure (p : Path) (f : Failure) : Failure :=
  match f with
  | .refused (.system why path target) =>
    let trouble : Trouble := if why = .notFound then .missing else .unreadable
    .file trouble p.text (some (.refused (.system why path target)))
  | f => f

/-- The collection in a file. -/
def read (p : Path) : Program Collection := do
  let octets ← Program.orElse (Program.read p) fun f => Program.fail (readFailure p f)
  Program.ofExcept (Collection.ofOctets p.text octets)

/-- Writes a text to a file; the file is emptied before the text is encoded. -/
def writeText (p : Path) (t : Text) : Program Unit := do
  Program.write p []
  match Utf8.encode t with
  | .error e => Program.fail (.unencodable e)
  | .ok octets => Program.write p octets

/-- Writes a collection to a file. -/
def write (c : Collection) (p : Path) : Program Unit :=
  Program.orElse
    (do
      let t ← Program.ofExcept (c.text.mapError .unwritable)
      writeText p t)
    fun f => Program.fail (.file .writing p.text (some f))

end LabelBook.LabelFile
