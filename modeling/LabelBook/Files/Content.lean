import LabelBook.Text.Utf8

/-!
Contents of files. A content grows at its end; it is kept in the pieces in which it came, the latest
first, so that growing does not depend on what is there already. What a content means is its octets,
and adding to it puts octets behind these.
-/

namespace LabelBook

/-- The number of octets in some pieces. -/
def sizeOfPieces : List ByteArray → Nat
  | [] => 0
  | p :: ps => p.size + sizeOfPieces ps

/-- The content of a file: its pieces, the latest first, and their size in all. -/
structure Content where
  pieces : List ByteArray
  size : Nat
  size_eq : size = sizeOfPieces pieces

namespace Content

/-- No octets. -/
def empty : Content := ⟨[], 0, rfl⟩

instance : Inhabited Content := ⟨empty⟩

/-- A content with octets added to its end. -/
def append (c : Content) (more : Octets) : Content :=
  let piece : ByteArray := ⟨more.toArray⟩
  ⟨piece :: c.pieces, piece.size + c.size, by rw [c.size_eq, sizeOfPieces]⟩

/-- The content of some octets. -/
def ofOctets (o : Octets) : Content := empty.append o

/-- The octets of a content. -/
def octets (c : Content) : Octets :=
  c.pieces.foldl (fun later piece => piece.data.toList ++ later) []

theorem foldl_pieces (ps : List ByteArray) (later : Octets) :
    ps.foldl (fun later piece => piece.data.toList ++ later) later =
      ps.foldl (fun later piece => piece.data.toList ++ later) [] ++ later := by
  induction ps generalizing later with
  | nil => rfl
  | cons p ps ih =>
    rw [List.foldl_cons, List.foldl_cons, ih, ih (_ ++ [])]
    simp

@[simp] theorem octets_empty : empty.octets = [] := rfl

@[simp] theorem octets_append (c : Content) (more : Octets) :
    (c.append more).octets = c.octets ++ more := by
  rw [octets, append, List.foldl_cons, foldl_pieces]
  simp [octets]

@[simp] theorem octets_ofOctets (o : Octets) : (ofOctets o).octets = o := by simp [ofOctets]

end Content

end LabelBook
