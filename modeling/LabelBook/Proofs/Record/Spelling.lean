import LabelBook.Proofs.Record.Acceptance

/-!
Spellings of identifiers. Hexadecimal digits can be written in two ways, and two identifiers of a
transaction, an input or an output are spellings of one another if they differ in that at most. Exactly
these have one canonical spelling, so a reference cannot tell spellings apart, and neither can a record, in
whatever way it is made. Everything else about an identifier tells references apart.

    AB…:0 and ab…:0 are one output, bc1Q… and bc1q… are two addresses
-/

namespace LabelBook

/-- The same code point, or one hexadecimal digit in two cases. -/
def CodePoint.SameDigit (c d : CodePoint) : Prop :=
  c = d ∨ c.isHex = true ∧ c.hexValue? = d.hexValue?

namespace CodePoint

variable {c d : CodePoint}

instance (c d : CodePoint) : Decidable (SameDigit c d) :=
  inferInstanceAs (Decidable (c = d ∨ c.isHex = true ∧ c.hexValue? = d.hexValue?))

theorem SameDigit.lower_eq (h : SameDigit c d) : c.lower = d.lower := by
  rcases h with rfl | ⟨hc, hd⟩
  · rfl
  · obtain ⟨n, hn⟩ := Option.isSome_iff_exists.mp hc
    rw [lower_of_hexValue? hn, lower_of_hexValue? (hd.symm.trans hn)]

theorem sameDigit_of_lower_eq (hc : c.isHex = true ∨ c = .scalar ':') (h : c.lower = d.lower) :
    SameDigit c d := by
  rcases hc with hc | rfl
  · refine .inr ⟨hc, ?_⟩
    rw [← hexValue?_lower, h, hexValue?_lower]
  · exact .inl (Kind.lower_colon.mp (h.symm.trans (Kind.lower_colon.mpr rfl))).symm

end CodePoint

namespace Kind

variable {k : Kind} {s t : Text}

/-- Two spellings of an identifier that names a transaction, an input or an output. -/
structure Respelled (k : Kind) (s t : Text) : Prop where
  hasTransactionId : k.hasTransactionId = true
  names : k.Names s
  same : List.Forall₂ CodePoint.SameDigit s t

theorem Respelled.map_lower_eq (h : k.Respelled s t) :
    s.map CodePoint.lower = t.map CodePoint.lower := by
  have hsame := h.same
  clear h
  induction hsame with
  | nil => rfl
  | cons h _ ih => rw [List.map_cons, List.map_cons, h.lower_eq, ih]

theorem Respelled.alphabet (h : k.Respelled s t) : ∀ c ∈ t, c.isHex = true ∨ c = .scalar ':' := by
  intro d hd
  have hlower : d.lower ∈ s.map CodePoint.lower := h.map_lower_eq ▸ List.mem_map_of_mem hd
  obtain ⟨c, hc, heq⟩ := List.mem_map.mp hlower
  rcases names_alphabet h.hasTransactionId h.names c hc with hhex | rfl
  · exact .inl (by rw [← CodePoint.isHex_lower, ← heq, CodePoint.isHex_lower, hhex])
  · exact .inr (lower_colon.mp (heq.symm.trans (lower_colon.mpr rfl)))

/-- Spellings of one identifier have one canonical spelling. -/
theorem Respelled.normalize_eq (h : k.Respelled s t) : k.normalize s = k.normalize t := by
  rw [normalize_eq_map h.hasTransactionId h.names, normalize, if_pos h.hasTransactionId,
    lower_of_alphabet h.alphabet, h.map_lower_eq]

/-- Identifiers with one canonical spelling are spellings of one identifier. -/
theorem respelled_of_normalize_eq (hid : k.hasTransactionId = true) (hs : k.Names s)
    (ht : k.Names t) (h : k.normalize s = k.normalize t) : k.Respelled s t := by
  have halphabet := names_alphabet hid hs
  rw [normalize_eq_map hid hs, normalize_eq_map hid ht] at h
  refine ⟨hid, hs, ?_⟩
  have hlower : List.Forall₂ (fun c d => c.lower = d.lower) s t := by
    rw [← List.forall₂_map_left_iff (f := CodePoint.lower)
      (R := fun (c d : CodePoint) => c = d.lower), ← List.forall₂_map_right_iff, h]
    exact List.forall₂_eq_eq_eq ▸ rfl
  exact ((List.forall₂_and_left s t).mpr ⟨halphabet, hlower⟩).imp fun c d h =>
    CodePoint.sameDigit_of_lower_eq h.1 h.2

end Kind

namespace Reference

variable {k l : Kind} {s t : Text}

theorem of_eq_iff : of k s = of l t ↔ k = l ∧ k.normalize s = l.normalize t := by
  simp [of]

/-- What tells references apart: the kind, and the identifier up to its spelling. -/
theorem of_eq (h : of k s = of l t) : k = l ∧ (k.hasTransactionId = false → s = t) ∧
    (k.hasTransactionId = true → k.Names s → k.Names t → k.Respelled s t) := by
  obtain ⟨rfl, hnormal⟩ := of_eq_iff.mp h
  refine ⟨rfl, fun hfree => ?_, fun hid hs ht => Kind.respelled_of_normalize_eq hid hs ht hnormal⟩
  rwa [Kind.normalize, Kind.normalize, if_neg (by simp [hfree]), if_neg (by simp [hfree])] at hnormal

end Reference

/-! ### Entries -/

/-- Entries that differ in the spelling of an identifier at most. -/
def Entries.Respelled (k : Kind) : Entries → Entries → Prop :=
  List.Forall₂ fun x y => x = y ∨
    ∃ s t, x = (("ref" : Text), Json.string s) ∧ y = (("ref" : Text), Json.string t) ∧
      k.Respelled s t

namespace Entries.Respelled

variable {k : Kind} {d e : Entries} {key : Text}

theorem get?_eq (h : Entries.Respelled k d e) (hkey : key ≠ "ref") : d.get? key = e.get? key := by
  induction h with
  | nil => rfl
  | cons h _ ih =>
    rcases h with rfl | ⟨s, t, rfl, rfl, -⟩
    · rw [get?, get?, ih]
    · rw [get?, get?, if_neg (Ne.symm hkey), if_neg (Ne.symm hkey), ih]

/-- The identifiers have one canonical spelling. -/
theorem readRef_eq (h : Entries.Respelled k d e) : Record.readRef k d = Record.readRef k e := by
  unfold Record.readRef
  -- the first identifier counts, and the induction stops there
  induction h with
  | nil => rfl
  | @cons x y d e h _ ih =>
    rcases h with rfl | ⟨s, t, rfl, rfl, hst⟩
    · rw [get?, get?]
      by_cases hx : x.1 = "ref"
      · rw [if_pos hx, if_pos hx]
      · rw [if_neg hx, if_neg hx]
        exact ih
    · rw [get?, get?, if_pos rfl, if_pos rfl]
      simp only [Record.readText, Except.map, Except.mapError, hst.normalize_eq]

theorem hasWellFormedKeys_eq (h : Entries.Respelled k d e) :
    Record.hasWellFormedKeys d = Record.hasWellFormedKeys e := by
  unfold Record.hasWellFormedKeys
  induction h with
  | nil => rfl
  | cons h _ ih =>
    rcases h with rfl | ⟨s, t, rfl, rfl, -⟩
    · rw [List.all_cons, List.all_cons, ih]
    · rw [List.all_cons, List.all_cons, ih]

theorem without_eq (h : Entries.Respelled k d e) {names : List Text} 
    (href : ("ref" : Text) ∈ names) :
    d.without names = e.without names := by
  unfold without
  induction h with
  | nil => rfl
  | cons h _ ih =>
    rcases h with rfl | ⟨s, t, rfl, rfl, -⟩
    · rw [List.filter_cons, List.filter_cons, ih]
    · rw [List.filter_cons_of_neg (by simpa using href), List.filter_cons_of_neg (by simpa using href),
        ih]

theorem readLabel_eq (h : Entries.Respelled k d e) : Record.readLabel d = Record.readLabel e := by
  rw [Record.readLabel, Record.readField, h.get?_eq (by decide)]
  rfl

theorem readType_eq (h : Entries.Respelled k d e) : Record.readType k d = Record.readType k e := by
  rw [Record.readType, Record.readField, h.get?_eq (by decide)]
  rfl

theorem readBody_eq (h : Entries.Respelled k d e) : Record.readBody d k = Record.readBody e k := by
  cases k with
  | transaction | output =>
    rw [Record.readBody, Record.readField, h.get?_eq (by decide)]
    rfl
  | address | publicKey | input | extendedKey => rfl

theorem fieldIssues_eq (h : Entries.Respelled k d e) :
    Record.fieldIssues k d = Record.fieldIssues k e := by
  rw [Record.fieldIssues, h.readRef_eq, h.readLabel_eq, h.readType_eq, h.readBody_eq]
  rfl

/-- A record of the kind is read from the one as it is from the other. -/
theorem ofEntries_eq (h : Entries.Respelled k d e) : Record.ofEntries k d = Record.ofEntries k e := by
  have hfields : ("ref" : Text) ∈ Record.fieldNames k := Record.mem_fieldNames.mpr (.inr (.inl rfl))
  unfold Record.ofEntries
  rw [h.hasWellFormedKeys_eq, h.readRef_eq, h.readLabel_eq, h.readType_eq, h.readBody_eq,
    h.without_eq hfields, h.fieldIssues_eq]

theorem ofEntriesBeside_eq (h : Entries.Respelled k d e) (others : List Key) :
    Record.ofEntriesBeside others k d = Record.ofEntriesBeside others k e := by
  rw [Record.ofEntriesBeside, Record.ofEntriesBeside, h.ofEntries_eq, h.hasWellFormedKeys_eq,
    h.fieldIssues_eq]

/-- So is a record of the kind that they name. -/
theorem ofNamedKind_eq (h : Entries.Respelled k d e) (named : d.get? "type" = some (.string k.name))
    {read : Kind → Entries → Except (List Issue) Record} (hread : read k d = read k e) :
    Record.ofNamedKind read d = Record.ofNamedKind read e := by
  rw [Record.ofNamedKind, Record.ofNamedKind, ← h.get?_eq (by decide), named]
  simp only [Kind.ofName?_name]
  rw [hread]

theorem ofMapping_eq (h : Entries.Respelled k d e) (named : d.get? "type" = some (.string k.name)) :
    Record.ofMapping d = Record.ofMapping e :=
  h.ofNamedKind_eq named h.ofEntries_eq

theorem put (h : Entries.Respelled k d e) (key : Text) (v : Json) :
    Entries.Respelled k (d.put key v) (e.put key v) := by
  induction h with
  | nil => exact .cons (.inl rfl) .nil
  | cons h hrest ih =>
    rcases h with rfl | ⟨s, t, rfl, rfl, hst⟩
    · rw [Entries.put, Entries.put]
      split
      · exact .cons (.inl rfl) hrest
      · exact .cons (.inl rfl) ih
    · rw [Entries.put, Entries.put]
      split
      · exact .cons (.inl rfl) hrest
      · exact .cons (.inr ⟨s, t, rfl, rfl, hst⟩) ih

theorem putAll (h : Entries.Respelled k d e) (more : Entries) :
    Entries.Respelled k (d.putAll more) (e.putAll more) := by
  unfold Entries.putAll
  induction more generalizing d e with
  | nil => exact h
  | cons x more ih => exact ih (h.put x.1 x.2)

end Entries.Respelled

/-! ### Records -/

namespace Record

variable {k : Kind} {s : Text} {d : Entries} {r : Record}

/-- An identifier is accepted exactly if there is a record of it. -/
theorem made_iff : (∃ r, make k (.string s) .null [] = .ok r) ↔ k.Names s := by
  rw [make, accepted_iff]
  constructor
  · rintro ⟨-, l, t, hkind, href, hnames, -⟩
    obtain rfl := Kind.name_injective (Json.string.inj (Option.some.inj hkind))
    obtain rfl := Json.string.inj (Option.some.inj href)
    exact hnames
  · intro h
    -- the keys are well-formed by evaluation: they do not hang on the identifier
    exact ⟨List.all_eq_true.mp rfl, k, s, rfl, rfl, h, ⟨none, .inl ⟨.inr rfl, rfl⟩⟩,
      fun _ => ⟨none, .inl ⟨.inl rfl, rfl⟩⟩, fun _ _ hnone => by cases hnone⟩

/-- A record that was read has the canonical spelling of the identifier in the entries. -/
theorem ofEntries_spelling (hread : ofEntries k d = .ok r)
    (href : d.get? "ref" = some (.string s)) : r.kind = k ∧ r.ref = k.normalize s := by
  obtain ⟨-, hkind, hspelling, -⟩ := ofEntries_ok hread
  obtain ⟨t, ht, hcanonical⟩ := readRef_eq_ok_iff.mp hspelling
  obtain rfl := Json.string.inj (Option.some.inj (href.symm.trans ht))
  exact ⟨hkind, hcanonical⟩

/-- Taking the canonical spelling before an identifier is looked at changes nothing. An identifier names
an entity exactly if its canonical spelling does, and exactly if there is a record of it; a canonical
spelling is its own; and a record in whose entries an identifier was given names an entity by the
canonical spelling, and has the reference that the identifier gives. -/
theorem canonical_spelling (k : Kind) (s : Text) :
    ((∃ t, k.validate s = .ok t) ↔ ∃ t, k.validate (k.normalize s) = .ok t) ∧
      k.normalize (k.normalize s) = k.normalize s ∧
      ((∃ t, k.validate s = .ok t) ↔ ∃ r, make k (.string s) .null [] = .ok r) ∧
      ∀ d r, d.get? "ref" = some (.string s) →
        ofFields k d = .ok r ∨ ofMapping d = .ok r ∧ r.kind = k →
        k.validate s = .ok s ∧ r.ref = k.normalize s ∧ k.validate r.ref = .ok r.ref ∧
          r.reference = .of k s := by
  have hvalid : ∀ s, (∃ t, k.validate s = .ok t) ↔ k.Names s := fun s => by
    simp [Kind.validate_eq_ok_iff]
  refine ⟨by rw [hvalid, hvalid, Kind.names_normalize], Kind.normalize_normalize k s,
    (hvalid s).trans made_iff.symm, ?_⟩
  intro d r href hread
  have hentries : ofEntries k d = .ok r := by
    rcases hread with hread | ⟨hread, rfl⟩
    · exact Except.mapError_eq_ok_iff.mp hread
    · exact (ofMapping_ok hread).2
  obtain ⟨rfl, hspelling⟩ := ofEntries_spelling hentries href
  have hnames : r.kind.Names r.ref := Kind.defect?_eq_none_iff.mp r.sound
  refine ⟨Kind.validate_eq_ok_iff.mpr ⟨rfl, ?_⟩, hspelling, Kind.validate_eq_ok_iff.mpr ⟨rfl, hnames⟩, ?_⟩
  · rwa [hspelling, Kind.names_normalize] at hnames
  · rw [reference, Reference.of, Reference.of, hspelling, Kind.normalize_normalize]

end Record

end LabelBook
