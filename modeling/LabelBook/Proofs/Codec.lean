import LabelBook.Codec
import LabelBook.Proofs.Record.Reading

/-!
Reading back what has been written. The line of a record is read as the record that has only what was
written, unless a string of it has a break: then the line ends there, and what is left of it is no
JSON. So a text of lines gives its records back in their order, or fails at the first record with a
break in a string, whose number is that of its line because the lines before it are whole.
-/

namespace LabelBook

namespace Record

/-- The further entries of a record as they stand in its line: without those that are null, and with
null for a number without a spelling. -/
def keptExtras (r : Record) : Entries := Json.spelledEntries (r.extras.filter fun e => !e.2.isNull)

/-- A record with what its line says of it. -/
def asWritten (r : Record) : Record := { r with extras := r.keptExtras }

/-- The strings that a body holds. -/
def bodyStrings : Body → List Text
  | .transaction (some origin) => [origin]
  | _ => []

/-- The strings in a record: identifier, label, origin, and those of the further entries with their
keys. -/
def strings (r : Record) : List Text :=
  r.ref :: (r.label.toList ++ bodyStrings r.body ++ Json.entryStrings r.extras)

/-- Whether a string in a record has a break. -/
def hasBreak (r : Record) : Bool := r.strings.any Text.hasBreak

/-! ### The line of a record -/

theorem writtenExtras_cons {k : Text} {v : Json} {es fs : Entries} (hv : v.isNull = false)
    (h : writtenExtras ((k, v) :: es) = .ok fs) :
    ∃ w gs, v.writable Json.maxWrittenLevels = .ok w ∧ writtenExtras es = .ok gs ∧
      fs = (k, w) :: gs := by
  rw [writtenExtras] at h
  · split at h
    · simp at h
    · next w hw =>
      obtain ⟨gs, hgs, hfs⟩ := Except.eq_ok_of_map h
      exact ⟨w, gs, hw, hgs, hfs⟩
  · rintro rfl
    exact absurd hv (by decide)

theorem eq_null_of_isNull {v : Json} (h : v.isNull = true) : v = .null := by
  cases v <;> first | rfl | exact absurd h (by simp [Json.isNull])

theorem writtenExtras_eq {es fs : Entries} (h : writtenExtras es = .ok fs) :
    fs = Json.spelledEntries (es.filter fun e => !e.2.isNull) := by
  induction es generalizing fs with
  | nil => exact (Except.ok.inj h).symm
  | cons e es ih =>
    obtain ⟨k, v⟩ := e
    cases hv : v.isNull with
    | true =>
      obtain rfl := eq_null_of_isNull hv
      exact ih h
    | false =>
      obtain ⟨w, gs, hw, hgs, rfl⟩ := writtenExtras_cons hv h
      rw [Json.writable_eq hw, ih hgs, List.filter_cons, hv]
      rfl

theorem writtenExtras_readable {es fs : Entries} (h : writtenExtras es = .ok fs)
    (hlong : Json.entriesHoldLongInt fs = false) (hkeys : Json.EntriesDistinct es) :
    Json.EntriesReadable Json.maxWrittenLevels fs := by
  induction es generalizing fs with
  | nil => exact Except.ok.inj h ▸ trivial
  | cons e es ih =>
    obtain ⟨k, v⟩ := e
    cases hv : v.isNull with
    | true =>
      obtain rfl := eq_null_of_isNull hv
      exact ih h hlong hkeys.2
    | false =>
      obtain ⟨w, gs, hw, hgs, rfl⟩ := writtenExtras_cons hv h
      rw [Json.entriesHoldLongInt, Bool.or_eq_false_iff] at hlong
      exact ⟨Json.readable_of_writable hw hlong.1 hkeys.1, ih hgs hlong.2 hkeys.2⟩

/-- The object of a record as it is written. -/
def writtenObject (r : Record) : Json := .object (r.fieldEntries ++ r.keptExtras)

theorem fieldEntries_readable (r : Record) (depth : Nat) :
    Json.EntriesReadable depth r.fieldEntries := by
  obtain ⟨body, ref, label, extras, sound⟩ := r
  rcases body with ⟨_ | origin⟩ | _ | _ | _ | spendable | _ <;> cases label <;>
    simp [fieldEntries, labelEntries, bodyEntries, Json.EntriesReadable, Json.Readable]

theorem mem_keptExtras {r : Record} {e : Text × Json} (h : e ∈ r.keptExtras) :
    ∃ f ∈ r.extras, f.1 = e.1 := by
  have hkey : e.1 ∈ r.keptExtras.map Prod.fst := List.mem_map_of_mem h
  rw [keptExtras, Json.keys_spelledEntries] at hkey
  obtain ⟨f, hf, hfe⟩ := List.mem_map.mp hkey
  exact ⟨f, List.mem_of_mem_filter hf, hfe⟩

/-- A regular record that can be written has a line that is read back. -/
theorem line_ok {r : Record} {t : Text} (h : r.line = .ok t) (hr : r.Regular) :
    t = r.writtenObject.print false ++ [.scalar '\n'] ∧
      Json.Readable Json.maxDepth r.writtenObject := by
  unfold line written at h
  cases hextras : writtenExtras r.extras with
  | error e => simp [hextras, Except.map] at h
  | ok fs =>
    simp only [hextras, Except.map] at h
    split at h
    · simp at h
    · next hlong =>
      obtain rfl : fs = r.keptExtras := writtenExtras_eq hextras
      refine ⟨(Except.ok.inj h).symm, by decide, ?_, ?_⟩
      · rw [List.map_append, List.nodup_append]
        refine ⟨r.fieldEntries_keys.2, ?_, ?_⟩
        · rw [keptExtras, Json.keys_spelledEntries]
          exact hr.distinct.1.sublist (List.filter_sublist.map Prod.fst)
        · rintro a ha b hb rfl
          obtain ⟨e, he, rfl⟩ := List.mem_map.mp ha
          obtain ⟨f, hf, hfe⟩ := List.mem_map.mp hb
          obtain ⟨g, hg, hgf⟩ := mem_keptExtras hf
          exact hr.fresh g hg (hgf ▸ hfe ▸ (r.fieldEntries_keys.1 e he).1)
      · rw [Bool.not_eq_true, Json.entriesHoldLongInt_append, Bool.or_eq_false_iff] at hlong
        exact Json.entriesReadable_append (fieldEntries_readable r _)
          (Json.EntriesReadable.mono (by decide)
            (writtenExtras_readable hextras hlong.2 hr.distinct.2))

/-- The names and words of a record have no break, so its line ends early only if a string of it
does. -/
theorem hasLineEnd_writtenObject (r : Record) :
    Text.hasLineEnd (r.writtenObject.print false) = r.asWritten.hasBreak := by
  rw [Json.hasLineEnd_print, writtenObject, Json.strings, Json.entryStrings_append, List.any_append]
  obtain ⟨body, ref, label, extras, sound⟩ := r
  rcases body with ⟨_ | origin⟩ | _ | _ | _ | spendable | _ <;> cases label <;>
    simp [fieldEntries, labelEntries, bodyEntries, Json.entryStrings, Json.strings, asWritten,
      hasBreak, strings, bodyStrings, Text.ofString, kind, Body.kind, Kind.name, CodePoint.isBreak,
      CodePoint.toNat, Bool.or_assoc]

/-! ### Reading a line -/

/-- A line is not blank if it starts as the line of a record does. -/
theorem writtenObject_starts (r : Record) : ∃ t, r.writtenObject.print false = .scalar '{' :: t :=
  ⟨_, rfl⟩

theorem isBlank_brace (t : Text) : Text.isBlank (.scalar '{' :: t) = false := rfl

theorem ofLine_whole {r : Record} (hr : r.Regular)
    (h : Json.Readable Json.maxDepth r.writtenObject) (number : Int) :
    ofLine number (r.writtenObject.print false) = .ok r.asWritten := by
  have hkept : ∀ e ∈ r.keptExtras, e.1 ∉ fieldNames r.kind ∧ e.1.isWellFormed = true := by
    intro e he
    obtain ⟨f, hf, hfe⟩ := mem_keptExtras he
    exact hfe ▸ ⟨hr.fresh f hf, hr.wellFormed f hf⟩
  have hread : ofMapping (r.fieldEntries ++ r.keptExtras) = .ok r.asWritten :=
    ofMapping_append hr.canonical (fun e he => (hkept e he).1) fun e he => (hkept e he).2
  rw [ofLine, Json.parse_print h]
  simp only [writtenObject, Except.mapError, Except.bind, ofJson, hread]

theorem ofLine_cut {r : Record} (h : Json.Readable Json.maxDepth r.writtenObject)
    (hbreak : r.asWritten.hasBreak = true) (number : Int) :
    ∃ cause, ofLine number (Text.firstLine (r.writtenObject.print false)) =
      .error (.line number cause) := by
  rw [← hasLineEnd_writtenObject] at hbreak
  obtain ⟨what, position, line, column, hparse⟩ := Json.parse_firstLine h hbreak
  exact ⟨_, by rw [ofLine, hparse]; rfl⟩

end Record

namespace Collection

open Record

theorem linesOf_cons {r : Record} {rs : List Record} {t : Text} (h : linesOf (r :: rs) = .ok t) :
    ∃ a b, r.line = .ok a ∧ linesOf rs = .ok b ∧ t = a ++ b := by
  rw [linesOf] at h
  split at h
  · simp at h
  · next a ha =>
    obtain ⟨b, hb, ht⟩ := Except.eq_ok_of_map h
    exact ⟨a, b, ha, hb, ht⟩

theorem linesOf_append {rs ss : List Record} {t : Text} (h : linesOf (rs ++ ss) = .ok t) :
    ∃ a b, linesOf rs = .ok a ∧ linesOf ss = .ok b ∧ t = a ++ b := by
  induction rs generalizing t with
  | nil => exact ⟨[], t, rfl, h, rfl⟩
  | cons r rs ih =>
    obtain ⟨a, b, ha, hb, rfl⟩ := linesOf_cons h
    obtain ⟨c, d, hc, hd, rfl⟩ := ih hb
    exact ⟨a ++ c, d, by rw [linesOf, ha]; simp only [hc]; rfl, hd, (List.append_assoc _ _ _).symm⟩

/-- Lines without a break are read one by one, and what follows them is read after them. -/
theorem recordsFrom_whole {rs : List Record} {t : Text} (ht : linesOf rs = .ok t)
    (hregular : ∀ r ∈ rs, r.Regular) (hbreak : ∀ r ∈ rs, r.asWritten.hasBreak = false)
    (number : Nat) (rest : Text) :
    recordsFrom number (Text.lines (t ++ rest)) =
      (recordsFrom (number + rs.length) rest.lines).map (rs.map asWritten ++ ·) := by
  induction rs generalizing t number with
  | nil =>
    obtain rfl := Except.ok.inj ht
    cases h : recordsFrom number rest.lines <;> simp [h, Except.map]
  | cons r rs ih =>
    obtain ⟨a, b, ha, hb, rfl⟩ := linesOf_cons ht
    obtain ⟨rfl, hreadable⟩ := line_ok ha (hregular r List.mem_cons_self)
    obtain ⟨s, hs⟩ := writtenObject_starts r
    have hend : Text.hasLineEnd (r.writtenObject.print false) = false := by
      rw [hasLineEnd_writtenObject, hbreak r List.mem_cons_self]
    have htext : r.writtenObject.print false ++ [CodePoint.scalar '\n'] ++ b ++ rest =
        r.writtenObject.print false ++ .scalar '\n' :: (b ++ rest) := by simp
    rw [htext, Text.lines_append hend, recordsFrom, hs, isBlank_brace, ← hs,
      ofLine_whole (hregular r List.mem_cons_self) hreadable,
      ih hb (fun q hq => hregular q (List.mem_cons_of_mem r hq))
        fun q hq => hbreak q (List.mem_cons_of_mem r hq)]
    rw [List.length_cons, Nat.add_right_comm, Nat.add_assoc]
    cases h : recordsFrom (number + (rs.length + 1)) rest.lines <;>
      simp [Except.map]

/-- A line with a break is no record, and its number is told. -/
theorem recordsFrom_cut {r : Record} {t : Text} (ht : r.line = .ok t) (hr : r.Regular)
    (hbreak : r.asWritten.hasBreak = true) (number : Nat) (rest : Text) :
    ∃ cause, recordsFrom number (Text.lines (t ++ rest)) = .error (.line number cause) := by
  obtain ⟨rfl, hreadable⟩ := line_ok ht hr
  obtain ⟨s, hs⟩ := writtenObject_starts r
  obtain ⟨cause, hcause⟩ := ofLine_cut hreadable hbreak number
  obtain ⟨more, hmore⟩ := Text.lines_append_of_lineEnd (by rw [hasLineEnd_writtenObject, hbreak])
    (.scalar '\n' :: rest)
  refine ⟨cause, ?_⟩
  rw [List.append_assoc, List.singleton_append, hmore, recordsFrom, hcause, hs,
    Text.firstLine_cons (by decide), isBlank_brace]
  rfl

/-! ### Whole texts -/

/-- The text of records without breaks holds these records as they were written. -/
theorem ofText_whole {rs : List Record} {t : Text} (ht : text ⟨rs⟩ = .ok t)
    (hregular : ∀ r ∈ rs, r.Regular) (hbreak : ∀ r ∈ rs, r.asWritten.hasBreak = false) :
    ofText t = .ok ⟨rs.map asWritten⟩ := by
  have h := recordsFrom_whole ht hregular hbreak 1 []
  rw [List.append_nil] at h
  rw [ofText, h]
  simp [Text.lines, Text.linesFrom, recordsFrom, Except.map]

/-- The text of records has a break if one of them has, as it is written. -/
theorem hasBreak_text {rs : List Record} {t : Text} (ht : text ⟨rs⟩ = .ok t)
    (hregular : ∀ r ∈ rs, r.Regular) : t.hasBreak = rs.any fun r => r.asWritten.hasBreak := by
  induction rs generalizing t with
  | nil =>
    rw [← Except.ok.inj ht]
    rfl
  | cons r rs ih =>
    obtain ⟨a, b, ha, hb, rfl⟩ := linesOf_cons ht
    obtain ⟨rfl, -⟩ := Record.line_ok ha (hregular r List.mem_cons_self)
    have hrest := ih hb fun q hq => hregular q (List.mem_cons_of_mem r hq)
    have hline : Text.hasBreak (r.writtenObject.print false) = r.asWritten.hasBreak := by
      rw [Json.hasBreak_print, ← Json.hasLineEnd_print, hasLineEnd_writtenObject]
    rw [List.any_cons, ← hrest, ← hline]
    simp [Text.hasBreak, CodePoint.isBreak, CodePoint.toNat]

/-- The text of records is refused at the first of them that has a break. -/
theorem ofText_cut {before after : List Record} {r : Record} {t : Text}
    (ht : text ⟨before ++ r :: after⟩ = .ok t)
    (hregular : ∀ q ∈ before ++ r :: after, q.Regular)
    (hbreak : ∀ q ∈ before, q.asWritten.hasBreak = false) (hr : r.asWritten.hasBreak = true) :
    ∃ cause, ofText t = .error (.line (before.length + 1) cause) := by
  obtain ⟨a, b, ha, hb, rfl⟩ := linesOf_append ht
  obtain ⟨c, d, hc, -, rfl⟩ := linesOf_cons hb
  obtain ⟨cause, hcause⟩ := recordsFrom_cut hc (hregular r (by simp)) hr (1 + before.length) d
  have h := recordsFrom_whole ha (fun q hq => hregular q (List.mem_append_left _ hq)) hbreak 1 (c ++ d)
  rw [hcause] at h
  refine ⟨cause, ?_⟩
  rw [ofText, h]
  simp [Except.map, add_comm]

/-- Among some records either none has a property, or one of them is the first that has it. -/
theorem first_or_none (p : Record → Bool) (rs : List Record) :
    (∀ r ∈ rs, p r = false) ∨
      ∃ before r after, rs = before ++ r :: after ∧ (∀ q ∈ before, p q = false) ∧ p r = true := by
  cases h : rs.find? p with
  | none => exact Or.inl fun r hr => by simpa using List.find?_eq_none.mp h r hr
  | some r =>
    obtain ⟨hr, before, after, hrs, hbefore⟩ := List.find?_eq_some_iff_append.mp h
    exact Or.inr ⟨before, r, after, hrs, fun q hq => by simpa using hbefore q hq, hr⟩

/-- A record of which nothing is left out is written as it is. -/
theorem asWritten_eq {r : Record} (hnull : ∀ e ∈ r.extras, e.2.isNull = false)
    (hfinite : ∀ x ∈ Json.entryFloats r.extras, x.isFinite = true) : r.asWritten = r := by
  have hkept : r.keptExtras = r.extras := by
    rw [keptExtras, List.filter_eq_self.mpr fun e he => by rw [hnull e he]; rfl,
      Json.spelledEntries_of_finite hfinite]
  rw [asWritten, hkept]

/-- Decoding what was encoded gives the records back exactly if no string in any of them has a break,
and otherwise fails with the number of the first record that has one. -/
theorem ofText_text_iff {xs : List Record} {t : Text} (described : ∀ r ∈ xs, r.Described)
    (noNull : ∀ r ∈ xs, ∀ e ∈ r.extras, e.2.isNull = false)
    (finite : ∀ r ∈ xs, ∀ x ∈ Json.entryFloats r.extras, x.isFinite = true)
    (encoded : text ⟨xs⟩ = .ok t) :
    ((∃ c, ofText t = .ok c) ↔ ∀ r ∈ xs, ∀ s ∈ r.strings, s.hasBreak = false) ∧
      (∀ c, ofText t = .ok c → c.records = xs) ∧
      ∀ f, ofText t = .error f → ∃ before r after cause, xs = before ++ r :: after ∧
        (∀ q ∈ before, ∀ s ∈ q.strings, s.hasBreak = false) ∧ (∃ s ∈ r.strings, s.hasBreak = true) ∧
        f = .line (before.length + 1) cause := by
  have hregular : ∀ r ∈ xs, r.Regular := fun r hr => (described r hr).regular
  have hsame : ∀ r ∈ xs, r.asWritten = r := fun r hr => asWritten_eq (noNull r hr) (finite r hr)
  have hnone : ∀ {r : Record}, r.hasBreak = false → ∀ s ∈ r.strings, s.hasBreak = false :=
    fun h s hs => by simpa using List.any_eq_false.mp h s hs
  rcases first_or_none Record.hasBreak xs with hbreak | ⟨before, r, after, rfl, hbefore, hr⟩
  · have hread := ofText_whole encoded hregular fun r hr => by rw [hsame r hr, hbreak r hr]
    rw [List.map_congr_left hsame, List.map_id'] at hread
    refine ⟨iff_of_true ⟨_, hread⟩ fun r hr => hnone (hbreak r hr), fun c hc => ?_, fun f hf => ?_⟩
    · rw [hread] at hc
      exact (Except.ok.inj hc) ▸ rfl
    · rw [hread] at hf
      cases hf
  · obtain ⟨cause, hread⟩ := ofText_cut encoded hregular
      (fun q hq => by rw [hsame q (List.mem_append_left _ hq), hbefore q hq])
      (by rw [hsame r (by simp), hr])
    obtain ⟨s, hs, hsbreak⟩ := List.any_eq_true.mp hr
    refine ⟨iff_of_false ?_ fun h => ?_, fun c hc => ?_, fun f hf => ?_⟩
    · rintro ⟨c, hc⟩
      rw [hread] at hc
      cases hc
    · rw [h r (by simp) s hs] at hsbreak
      cases hsbreak
    · rw [hread] at hc
      cases hc
    · rw [hread] at hf
      exact ⟨before, r, after, cause, rfl, fun q hq => hnone (hbefore q hq), ⟨s, hs, hsbreak⟩,
        (Except.error.inj hf).symm⟩

/-- A record without a break. -/
def plainRecord : Record := ⟨.address, "a", some "rent", [("n", .int 5)], rfl⟩

/-- A record with a line separator in its label. -/
def splitRecord : Record := ⟨.publicKey, "b", some "x\u2028y", [], rfl⟩

theorem described_samples : ∀ r ∈ [plainRecord, splitRecord], r.Described := by
  intro r hr
  rcases List.mem_pair.mp hr with rfl | rfl
  · exact ⟨.address, [("ref", .string "a"), ("label", .string "rent"), ("n", .int 5)],
      by simp [Json.DistinctKeys, Json.EntriesDistinct, Text.ofString], rfl⟩
  · exact ⟨.publicKey, [("ref", .string "b"), ("label", .string "x\u2028y")],
      by simp [Json.DistinctKeys, Json.EntriesDistinct, Text.ofString], rfl⟩

/-- The two records are encoded, and decoding what they give fails at the second line. -/
theorem ofText_text_iff_samples : ∃ t, text ⟨[plainRecord, splitRecord]⟩ = .ok t ∧
    ∃ cause, ofText t = .error (.line 2 cause) := by
  obtain ⟨hiff, -, herror⟩ := ofText_text_iff described_samples
    (by simp [plainRecord, splitRecord, Json.isNull])
    (by simp [plainRecord, splitRecord, Json.entryFloats, Json.floats])
    (show text ⟨[plainRecord, splitRecord]⟩ = .ok _ from rfl)
  have hsplit : ∃ s ∈ splitRecord.strings, s.hasBreak = true := ⟨"x\u2028y", by decide, by decide⟩
  have hplain : ¬ ∃ s ∈ plainRecord.strings, s.hasBreak = true := by decide
  refine ⟨_, rfl, ?_⟩
  cases h : ofText _ with
  | ok c =>
    obtain ⟨s, hs, hbreak⟩ := hsplit
    rw [hiff.mp ⟨c, h⟩ splitRecord (by simp) s hs] at hbreak
    cases hbreak
  | error f =>
    obtain ⟨before, r, after, cause, hxs, hbefore, hr, rfl⟩ := herror f h
    obtain - | ⟨q, before⟩ := before
    · obtain rfl : plainRecord = r := (List.cons.inj hxs).1
      exact absurd hr hplain
    · have hlength := congrArg List.length hxs
      simp only [List.length_cons, List.length_append, List.length_nil] at hlength
      obtain rfl : before = [] := List.eq_nil_of_length_eq_zero (by omega)
      exact ⟨cause, rfl⟩

end Collection

end LabelBook
