import LabelBook.LabelFile
import LabelBook.Log.Emit

/-!
Stores. A store is a collection with the file that it is kept in. Opening one reads the file, and a
reference that the file repeats keeps its first place and its last record; changes stay in the store
until it is saved. Saving writes a file beside the one of the store and moves it over that, so that
the old content gives way to the new in one step or not at all.
-/

namespace LabelBook

/-- A collection and the path of its file. -/
structure Store where
  collection : Collection
  path : Path

namespace Store

/-- The name of the file in a directory of labels. -/
def fileName : Text := "labels.jsonl"

/-- How the names of temporary files start. -/
def temporaryStart : Text := ".labels.jsonl.tmp."

/-! ### Records -/

/-- The store with a record in the place of the one that shares its reference, or behind the
others. -/
def set (s : Store) (r : Record) : Store := { s with collection := s.collection.set r }

/-- The record of a reference. -/
def get? (s : Store) (ref : Reference) : Option Record := s.collection.get? ref

/-- The label of a reference, if it has a record and that has a label. -/
def text? (s : Store) (ref : Reference) : Option Text := (s.get? ref).bind Record.label

/-- The store with the records of a collection set one after another, what is left of the collection,
and how many records there were. -/
def merge (s : Store) (c : Collection) : Store × Collection × Nat :=
  let (records, left) := c.drain
  ({ s with collection := s.collection.setAll records }, left, records.length)

/-! ### Files -/

/-- The details of an event that concerns the file of a store. -/
def details (event : Text) (path : Path) (count : Nat) : Detail :=
  .object [("event", .string event), ("path", .path path), ("count", .int count)]

/-- Opens the store of a directory; it is empty if there is no file yet. -/
def openIn (directory : Path) : Program Store := do
  let p := directory.child fileName
  Program.log .debug (Text.concat ["Label file path: ", p.text])
  match ← (LabelFile.read p).outcome with
  | .ok c =>
    let s : Store := ⟨Collection.empty.setAll c.records, p⟩
    let n := s.collection.size
    Program.logEvent ⟨.info, .ok (Text.concat ["Loaded ", Text.ofNat n, " labels from ", p.text]),
      details "labels.loaded" p n, none⟩
    return s
  | .error (.file .missing _ _) =>
    Program.log .info
      (Text.concat ["Label file ", p.text, " not found, starting with empty labels."])
    return ⟨.empty, p⟩
  | .error f => if f.isFile then .fail (.file .loading p.text (some f)) else .fail f

/-- Removes a temporary file if it is there; a refusal is logged. -/
def discard (temporary : Path) : Program Unit := do
  match ← (Program.remove temporary).outcome with
  | .ok () => return
  | .error (.refused (.system why path target)) =>
    if why ≠ .notFound then
      Program.log .warning (Text.concat ["Could not remove temporary label file ", temporary.text,
        ": ", (Refusal.system why path target).message])
  | .error f => .fail f

/-- The text of a failure's cause; its own text if nothing is behind it. -/
def causeText (f : Failure) : Text :=
  match f.cause? with
  | some c => c.message
  | none => f.message

/-- The failure to write the temporary file. -/
def exportFailure (temporary path : Path) (f : Failure) : Failure :=
  .file (.saving (Text.concat ["Failed to export labels to temporary file ", temporary.text, ": ",
    causeText f])) path.text (some f)

/-- The failure to move the temporary file over the file of the store. -/
def renameFailure (temporary path : Path) (f : Failure) : Failure :=
  .file (.saving (Text.concat ["Failed to rename temporary label file ", temporary.text, " to ",
    path.text, ": ", f.message])) path.text (some f)

/-- The failure of a path that no file can have. -/
def parentFailure (path : Path) : Failure :=
  .file (.saving (Text.concat ["Cannot get parent directory for label file: ", path.text]))
    path.text none

/-- Whether a path leaves no room for a file beside it. -/
def lacksParent (p : Path) : Bool := p.name.isEmpty || p.parent == p

/-- The temporary file beside a path at a time. -/
def temporaryFor (p : Path) (now : Int) : Path :=
  p.parent.child (Text.concat [temporaryStart, Text.ofInt (Clock.millis now)])

/-- Writes the file of a store by way of a temporary file. -/
def replaceFile (s : Store) (temporary : Path) : Program Unit := do
  match ← (LabelFile.write s.collection temporary).outcome with
  | .error f =>
    discard temporary
    .fail (exportFailure temporary s.path f)
  | .ok () =>
    match ← (Program.rename temporary s.path).outcome with
    | .ok () => return
    | .error f =>
      if f.isSystem then
        discard temporary
        .fail (renameFailure temporary s.path f)
      else .fail f

/-- Whether a store has nothing to save: it is empty, and there is no file whose content that would
replace. -/
def hasNothingToSave (s : Store) : Program Bool := do
  if s.collection.isEmpty then return !(← Program.exists? s.path) else return false

/-- Saves a store. An empty store without a file stays without one. -/
def save (s : Store) : Program Unit := do
  if ← s.hasNothingToSave then
    Program.log .debug "No labels to save and file doesn't exist. Skipping save."
  else if lacksParent s.path then .fail (parentFailure s.path)
  else
    let temporary := temporaryFor s.path (← Program.now)
    Program.log .debug (Text.concat ["Atomically saving labels to ", s.path.text,
      " via temporary file ", temporary.text])
    s.replaceFile temporary
    Program.logEvent ⟨.info, .ok (Text.concat ["Labels successfully saved to ", s.path.text]),
      details "labels.saved" s.path s.collection.size, none⟩

end Store

end LabelBook
