import LabelBook.Files.Content
import LabelBook.Files.Refusal

/-!
The tree of files. A location is the list of names from the root; the tree says what stands there: a
file with its content, a directory, or a link to a path. The root is a directory of its own. A file
has a number that tells it apart from all others: who has it open reaches it by the number, wherever
it has been moved to and even after it has been taken away.

Walking a path from a location goes through its names: links on the way are followed, forty at
most, a name after anything but a directory is refused, and only the last name may be one at which
nothing stands. Each operation looks at the tree through `get?` and changes it through `put` and
`erase`.
-/

namespace LabelBook

/-- The names from the root to a place. -/
abbrev Location := List Text

/-- What can stand at a location. -/
inductive Entry where
  | file (number : Nat) (content : Content)
  | directory
  | link (target : Text)
  deriving Inhabited

/-- Whether an entry is a directory. -/
def Entry.isDirectory : Entry → Bool
  | directory => true
  | _ => false

/-- What a question about a path finds, links followed. -/
inductive Species where
  | file
  | directory
  deriving DecidableEq

/-- Entries by their locations, at most one at each; the contents of files that have been taken away,
by their numbers; and the number that the next new file gets. -/
structure Tree where
  entries : List (Location × Entry)
  detached : List (Nat × Content)
  next : Nat
  deriving Inhabited

namespace Tree

/-- A tree with some directories. -/
def ofDirectories (ls : List Location) : Tree := ⟨ls.map fun l => (l, .directory), [], 0⟩

/-- The entry at a location. -/
def get? (t : Tree) (l : Location) : Option Entry :=
  if l.isEmpty then some .directory else t.entries.lookup l

/-- The tree with a given entry at a location. -/
def put (t : Tree) (l : Location) (e : Entry) : Tree :=
  { t with entries := (l, e) :: t.entries.filter fun e => e.1 != l }

/-- The numbers and contents of the files among some entries. -/
def filesOf (es : List (Location × Entry)) : List (Nat × Content) :=
  es.filterMap fun
    | (_, .file number content) => some (number, content)
    | _ => none

/-- The tree without the entries at some locations. -/
def without (t : Tree) (gone : Location → Bool) : Tree :=
  { t with
    entries := t.entries.filter fun e => !gone e.1
    detached := filesOf (t.entries.filter fun e => gone e.1) ++ t.detached }

/-- The tree with nothing at a location. -/
def erase (t : Tree) (l : Location) : Tree := t.without (· == l)

/-- The tree with nothing at a location or below it. -/
def prune (t : Tree) (l : Location) : Tree := t.without l.isPrefixOf

/-- Whether a location lies below another. -/
def isBelow (l above : Location) : Bool := above.isPrefixOf l && l != above

/-- What lies below a location. -/
def below (t : Tree) (l : Location) : List (Location × Entry) := t.entries.filter fun e => isBelow e.1 l

/-! ### Walking -/

/-- The most links that are followed on the way. -/
def maxLinks : Nat := 40

/-- The most octets in a name. -/
def maxNameLength : Nat := 255

/-- The number of octets of a name that can be handed to the system. -/
def nameLength (name : Text) : Nat :=
  match Utf8.encodeName name with
  | .ok octets => octets.length
  | .error _ => 0

/-- What a path is walked for: the entry that it names, be it a link; what the path leads to; or a
file to be written there, which may have to be made. -/
inductive Aim where
  | entry
  | target
  | writing
  deriving DecidableEq

/-- The location that names lead to from a directory; nothing needs to stand there if only the last
name leads to it. A dot or an empty name, as links bring them, stay where they are, which has to be a
directory; so a file is not made under a name with a slash behind it. -/
def walk (t : Tree) (aim : Aim) (links : Nat) (l : Location) (names : List Text) :
    Except Reason Location :=
  match names with
  | [] => .ok l
  | name :: rest =>
    if name = ".." then walk t aim links l.dropLast rest
    else if name.isEmpty || name = "." then walk t aim links l rest
    else if aim = .writing && rest == [[]] then .error .isDirectory
    else if maxNameLength < nameLength name then .error .nameTooLong
    else
      let next := l ++ [name]
      match t.get? next with
      | none => if rest.isEmpty then .ok next else .error .notFound
      | some .directory => walk t aim links next rest
      | some (.file ..) => if rest.isEmpty then .ok next else .error .notDirectory
      | some (.link target) =>
        if rest.isEmpty && aim = .entry then .ok next
        else
          match links with
          | 0 => .error .tooManyLinks
          | links + 1 =>
            walk t aim links (if Path.anchorOf target = .here then l else [])
              (Path.stepsOf target ++ rest)
termination_by (links, names.length)

/-! ### Operations -/

/-- The content of the file at a location. -/
def read (t : Tree) (l : Location) : Except Reason Octets :=
  match t.get? l with
  | some (.file _ content) => .ok content.octets
  | some .directory => .error .isDirectory
  | some (.link _) => .error .tooManyLinks
  | none => .error .notFound

/-- The tree with a new file of given content at a location. -/
def putNew (t : Tree) (l : Location) (content : Content) : Tree :=
  { t.put l (.file t.next content) with next := t.next + 1 }

/-- The tree with given content in the file at a location, which is made if need be. -/
def write (t : Tree) (l : Location) (content : Octets) : Except Reason Tree :=
  match t.get? l with
  | some .directory => .error .isDirectory
  | some (.file number _) => .ok (t.put l (.file number (.ofOctets content)))
  | _ => .ok (t.putNew l (.ofOctets content))

/-- The number of the file at a location, which is made if need be. -/
def openFile (t : Tree) (l : Location) : Except Reason (Nat × Tree) :=
  match t.get? l with
  | some .directory => .error .isDirectory
  | some (.file number _) => .ok (number, t)
  | _ => .ok (t.next, t.putNew l .empty)

/-- A content with octets added to its end if it is that of the file asked for. -/
def growIf (asked number : Nat) (content : Content) (more : Octets) : Content :=
  if number = asked then content.append more else content

/-- The tree with octets added to the end of the file of a number. -/
def extend (t : Tree) (number : Nat) (more : Octets) : Tree :=
  { t with
    entries := t.entries.map fun
      | (l, .file n content) => (l, .file n (growIf number n content more))
      | e => e
    detached := t.detached.map fun e => (e.1, growIf number e.1 e.2 more) }

/-- The number of octets in the file of a number. -/
def sizeOf (t : Tree) (number : Nat) : Nat :=
  (((filesOf t.entries ++ t.detached).lookup number).map Content.size).getD 0

/-- The tree with a new directory at a location. -/
def makeDirectory (t : Tree) (l : Location) : Except Reason Tree :=
  match t.get? l with
  | some _ => .error .alreadyThere
  | none => .ok (t.put l .directory)

/-- The tree with a new link at a location. -/
def makeLink (t : Tree) (l : Location) (target : Text) : Except Reason Tree :=
  match t.get? l with
  | some _ => .error .alreadyThere
  | none => .ok (t.put l (.link target))

/-- The tree without the file or link at a location. -/
def remove (t : Tree) (l : Location) : Except Reason Tree :=
  match t.get? l with
  | none => .error .notFound
  | some .directory => .error .isDirectory
  | some _ => .ok (t.erase l)

/-- The location that one below `source` has once `source` has become `target`. -/
def relocate (source target l : Location) : Location :=
  if source.isPrefixOf l then target ++ l.drop source.length else l

/-- Why what stands at a location cannot take the place of what stands at another, if it cannot. -/
def renameObstacle? (t : Tree) (source target : Location) (e : Entry) : Option Reason :=
  if isBelow target source then some .invalid
  else if isBelow source target then some .notEmpty
  else match e, t.get? target with
    | .directory, some .directory => if (t.below target).isEmpty then none else some .notEmpty
    | .directory, some _ => some .notDirectory
    | _, some .directory => some .isDirectory
    | _, _ => none

/-- The tree with what stands at one location moved to another, in place of what stands there. -/
def rename (t : Tree) (source target : Location) : Except Reason Tree :=
  match t.get? source with
  | none => .error .notFound
  | some e =>
    if source = target then .ok t
    else match t.renameObstacle? source target e with
      | some why => .error why
      | none =>
        let t := t.erase target
        .ok { t with entries := t.entries.map fun e => (relocate source target e.1, e.2) }

/-- What stands at a location. -/
def species (t : Tree) (l : Location) : Except Reason Species :=
  match t.get? l with
  | none => .error .notFound
  | some .directory => .ok .directory
  | some (.file ..) => .ok .file
  | some (.link _) => .error .tooManyLinks

end Tree

end LabelBook
