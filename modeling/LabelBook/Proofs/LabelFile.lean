import LabelBook.Proofs.Store.Loading
import LabelBook.Proofs.Text.Lines
import LabelBook.Proofs.Text.Utf8

/-!
Label files hold texts. Reading a file whose octets are those of a string is reading the string: the same
records, or the same cause in the same line. The carriage returns that are taken for line feeds on the way
are never seen. If the octets are those of no string then that is what the failure is about, not a line,
whatever stands before the first octet that is wrong.
-/

namespace LabelBook

namespace Collection

/-- A text is read as it is after its line ends have been unified. -/
theorem ofText_unifyLineEnds (t : Text) : ofText t.unifyLineEnds = ofText t := by
  rw [ofText, ofText, Text.lines_unifyLineEnds]

/-- The octets of a string hold what the string holds; a failure that has a line is one of the file. -/
theorem ofOctets_string (path : Text) (s : String) : ofOctets path s.toUTF8.data.toList =
    (ofText s).mapError fun
      | .line n cause => .file (.malformed (some n)) path (some cause)
      | f => f := by
  have hdecode : Utf8.decode s.toUTF8.data.toList = .ok s := Utf8.decode_eq_ok_iff.mpr ⟨s, rfl, rfl⟩
  rw [ofOctets, hdecode]
  dsimp only
  rw [ofText_unifyLineEnds]
  rcases ofText s with f | c
  · cases f <;> rfl
  · rfl

/-- Octets of no string hold nothing. -/
theorem ofOctets_noString (path : Text) {octets : Octets}
    (h : ∀ s : String, octets ≠ s.toUTF8.data.toList) : ∃ e, Utf8.decode octets = .error e ∧
      ofOctets path octets = .error (.file (.malformed none) path (some (.undecodable e))) := by
  cases hdecode : Utf8.decode octets with
  | error e => exact ⟨e, rfl, by rw [ofOctets, hdecode]⟩
  | ok t =>
    obtain ⟨s, -, hs⟩ := Utf8.decode_eq_ok_iff.mp hdecode
    exact absurd hs (h s)

end Collection

namespace LabelFile

variable {w : World} {p : Path} {l : Location} {number : Nat} {content : Content}

/-- What reading a regular file comes to depends on its octets alone. -/
theorem contents_of_file (leads : w.locate .target p = .ok l)
    (file : w.tree.get? l = some (.file number content)) :
    contents w p = Collection.ofOctets p.text content.octets := by
  rw [contents, World.read_of_locate leads, Tree.read, file]
  rfl

/-- Reading a regular file that holds a string in UTF-8 is reading the string. It gives the same records;
where the string fails in a line, the file is malformed in that line for that cause; any other failure of
the string is that of the file. If the file holds no string in UTF-8, it is malformed without a line. -/
theorem read_eq_ofText (leads : w.locate .target p = .ok l)
    (file : w.tree.get? l = some (.file number content)) :
    (∀ s : String, content.octets = s.toUTF8.data.toList →
      (∀ c, Collection.ofText s = .ok c → (LabelFile.read p).run w = (.ok c, w)) ∧
      (∀ n cause, Collection.ofText s = .error (.line n cause) →
        (LabelFile.read p).run w =
          (.error (.file (.malformed (some n)) p.text (some cause)), w)) ∧
      ∀ f, Collection.ofText s = .error f → (∀ n cause, f ≠ .line n cause) →
        (LabelFile.read p).run w = (.error f, w)) ∧
    ((∀ s : String, content.octets ≠ s.toUTF8.data.toList) →
      ∃ e, Utf8.decode content.octets = .error e ∧ (LabelFile.read p).run w =
        (.error (.file (.malformed none) p.text (some (.undecodable e))), w)) := by
  rw [run_read, contents_of_file leads file]
  constructor
  · intro s hs
    rw [hs, Collection.ofOctets_string]
    refine ⟨fun c hc => ?_, fun n cause hline => ?_, fun f hf hother => ?_⟩
    · rw [hc]
      rfl
    · rw [hline]
      rfl
    · rw [hf]
      cases f with
      | line n cause => exact absurd rfl (hother n cause)
      | _ => rfl
  · intro hno
    obtain ⟨e, hdecode, hoctets⟩ := Collection.ofOctets_noString p.text hno
    exact ⟨e, hdecode, by rw [hoctets]⟩

/-- A record between line ends of several forms, and behind it a line that is none. -/
def mixedText : String := "\r\x7b\"type\": \"addr\", \"ref\": \"a\"\x7d\r\n\u2028x\r"

/-- A record with an octet behind it that UTF-8 does not have. -/
def brokenOctets : Octets := "\x7b\"type\": \"addr\", \"ref\": \"a\"\x7d\r\n".toUTF8.data.toList ++ [0xFF]

open Store (fileWorld fileName)

theorem fileWorld_locate (octets : Octets) :
    (fileWorld octets).locate .target ⟨.here, [fileName]⟩ = .ok [fileName] := by
  have spot : (fileWorld octets).Spot ⟨.here, [fileName]⟩ (Tree.maxLinks, []) fileName :=
    World.spot_here ⟨by decide, by decide, by decide⟩ (by decide) (by decide +kernel)
  exact spot.locate_of_no_link (fun target h => by cases h) .target

theorem brokenOctets_noString (s : String) : brokenOctets ≠ s.toUTF8.data.toList := by
  intro hs
  have hok : Utf8.decode brokenOctets = .ok s := Utf8.decode_eq_ok_iff.mpr ⟨s, rfl, hs⟩
  have herror : ∃ e, Utf8.decode brokenOctets = .error e := ⟨_, by cbv⟩
  obtain ⟨e, he⟩ := herror
  cases hok.symm.trans he

/-- In the file the line is counted as in the text, and the octet that is wrong counts before any line. -/
theorem read_eq_ofText_mixed :
    (∃ cause, (LabelFile.read ⟨.here, [fileName]⟩).run (fileWorld mixedText.toUTF8.data.toList) =
      (.error (.file (.malformed (some 4)) fileName (some cause)),
        fileWorld mixedText.toUTF8.data.toList)) ∧
    ∃ e, (LabelFile.read ⟨.here, [fileName]⟩).run (fileWorld brokenOctets) =
      (.error (.file (.malformed none) fileName (some (.undecodable e))),
        fileWorld brokenOctets) := by
  obtain ⟨cause, hcause⟩ : ∃ cause, Collection.ofText mixedText = .error (.line 4 cause) :=
    ⟨_, by cbv⟩
  have hstring := (read_eq_ofText (fileWorld_locate _) rfl).1 mixedText (Content.octets_ofOctets _)
  have hnone := (read_eq_ofText (fileWorld_locate brokenOctets) rfl).2 fun s => by
    rw [Content.octets_ofOctets]
    exact brokenOctets_noString s
  obtain ⟨e, -, hrun⟩ := hnone
  exact ⟨⟨cause, hstring.2.1 4 cause hcause⟩, e, hrun⟩

end LabelFile

end LabelBook
