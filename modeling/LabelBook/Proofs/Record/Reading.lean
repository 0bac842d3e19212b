import LabelBook.Proofs.Json.Written
import LabelBook.Proofs.Reference
import LabelBook.Record.Reader

/-!
Records and the entries that describe them. A record that was read from an object is regular: its
identifier is canonical, and its further entries have well-formed keys that are no names of fields. The
entries of the fields of a regular record, followed by such entries, describe the record with these as
its further entries.
-/

namespace LabelBook

namespace Entries

theorem get?_append (key : Text) : ∀ es fs : Entries,
    get? key (es ++ fs) = (get? key es).or (get? key fs)
  | [], _ => rfl
  | (k, v) :: es, fs => by
    rw [List.cons_append, get?, get?]
    split
    · rfl
    · exact get?_append key es fs

theorem get?_eq_none {key : Text} : ∀ {es : Entries}, (∀ e ∈ es, e.1 ≠ key) → get? key es = none
  | [], _ => rfl
  | (k, v) :: es, h => by
    rw [get?, if_neg (h (k, v) List.mem_cons_self),
      get?_eq_none fun e he => h e (List.mem_cons_of_mem _ he)]

end Entries

namespace Record

/-- A record as the entries of an object describe it: no key of any object repeats. -/
def Described (r : Record) : Prop :=
  ∃ k entries, Json.DistinctKeys (.object entries) ∧ ofEntries k entries = .ok r

/-- What every record that was read fulfils. -/
structure Regular (r : Record) : Prop where
  canonical : r.kind.normalize r.ref = r.ref
  fresh : ∀ e ∈ r.extras, e.1 ∉ fieldNames r.kind
  wellFormed : ∀ e ∈ r.extras, e.1.isWellFormed = true
  distinct : Json.DistinctKeys (.object r.extras)

/-! ### Records that were read -/

theorem readBody_kind {entries : Entries} {k : Kind} {body : Body}
    (h : readBody entries k = .ok body) : body.kind = k := by
  cases k with
  | transaction => obtain ⟨origin, -, rfl⟩ := Except.eq_ok_of_map h; rfl
  | output => obtain ⟨spendable, -, rfl⟩ := Except.eq_ok_of_map h; rfl
  | address | publicKey | input | extendedKey => rw [← Except.ok.inj h]; rfl

theorem readRef_normalize {entries : Entries} {k : Kind} {ref : Text}
    (h : readRef k entries = .ok ref) : ∃ s, ref = k.normalize s := by
  unfold readRef at h
  split at h
  · simp at h
  · next v _ =>
    cases hv : readText v with
    | error e => simp [hv, Except.map, Except.mapError] at h
    | ok s => exact ⟨s, by simpa [hv, Except.map, Except.mapError] using h.symm⟩

theorem build_ok {body : Body} {ref : Text} {label : Option Text} {extras : Entries} {r : Record}
    (h : build body ref label extras = .ok r) :
    r.body = body ∧ r.ref = ref ∧ r.label = label ∧ r.extras = extras := by
  unfold build at h
  split at h
  · simp at h
  · rw [← Except.ok.inj h]; exact ⟨rfl, rfl, rfl, rfl⟩

/-- All that stands behind a record that was read, field by field. -/
theorem ofEntries_parts {k : Kind} {entries : Entries} {r : Record}
    (h : ofEntries k entries = .ok r) : hasWellFormedKeys entries = true ∧
      readRef k entries = .ok r.ref ∧ readLabel entries = .ok r.label ∧
      readBody entries k = .ok r.body ∧ r.extras = entries.without (fieldNames k) := by
  unfold ofEntries at h
  split at h
  · simp at h
  · next hkeys =>
    split at h
    · next ref label _ body href hlabel _ hbody =>
      cases hbuild : build body ref label (entries.without (fieldNames k)) with
      | error d => simp [hbuild, Except.mapError] at h
      | ok s =>
        obtain rfl : s = r := by simpa [hbuild, Except.mapError] using h
        obtain ⟨rfl, rfl, rfl, hextras⟩ := build_ok hbuild
        exact ⟨by simpa using hkeys, href, hlabel, hbody, hextras⟩
    · simp at h

/-- What stands behind a record that was read. -/
theorem ofEntries_ok {k : Kind} {entries : Entries} {r : Record} (h : ofEntries k entries = .ok r) :
    hasWellFormedKeys entries = true ∧ r.kind = k ∧ readRef k entries = .ok r.ref ∧
      r.extras = entries.without (fieldNames k) := by
  obtain ⟨hkeys, href, -, hbody, hextras⟩ := ofEntries_parts h
  exact ⟨hkeys, readBody_kind hbody, href, hextras⟩

/-- A record that was read is regular. -/
theorem Described.regular {r : Record} (h : r.Described) : r.Regular := by
  obtain ⟨k, entries, hdistinct, hread⟩ := h
  obtain ⟨hkeys, hkind, href, hextras⟩ := ofEntries_ok hread
  obtain ⟨s, hs⟩ := readRef_normalize href
  have hmem : ∀ e ∈ r.extras, e ∈ entries ∧ e.1 ∉ fieldNames k := by
    intro e he
    rw [hextras, Entries.without] at he
    obtain ⟨he, hname⟩ := List.mem_filter.mp he
    exact ⟨he, by simpa using hname⟩
  refine ⟨?_, fun e he => hkind ▸ (hmem e he).2, fun e he => ?_, ?_⟩
  · have hsound := r.sound
    rw [show r.body.kind = k from hkind, hs] at hsound
    rw [hkind, hs]
    exact Kind.normalize_normalize _ _
  · exact List.all_eq_true.mp hkeys e (hmem e he).1
  · have hsublist : r.extras.Sublist entries := by rw [hextras]; exact List.filter_sublist
    exact ⟨hdistinct.1.sublist (hsublist.map Prod.fst),
      Json.entriesDistinct_iff.mpr fun e he => Json.entriesDistinct_iff.mp hdistinct.2 e (hmem e he).1⟩

/-! ### The entries of the fields -/

theorem get?_type (r : Record) (es : Entries) :
    Entries.get? "type" (r.fieldEntries ++ es) = some (.string r.kind.name) := rfl

theorem get?_ref (r : Record) (es : Entries) :
    Entries.get? "ref" (r.fieldEntries ++ es) = some (.string r.ref) := by
  simp [fieldEntries, Entries.get?, Text.ofString]

theorem get?_label (r : Record) : Entries.get? "label" r.fieldEntries = r.label.map .string := by
  obtain ⟨body, ref, label, extras, sound⟩ := r
  rcases body with ⟨_ | origin⟩ | _ | _ | _ | spendable | _ <;> cases label <;>
    simp [fieldEntries, labelEntries, bodyEntries, Entries.get?, Text.ofString]

theorem get?_origin {r : Record} {origin : Option Text} (h : r.body = .transaction origin) :
    Entries.get? "origin" r.fieldEntries = origin.map .string := by
  obtain ⟨body, ref, label, extras, sound⟩ := r
  subst h
  cases origin <;> cases label <;>
    simp [fieldEntries, labelEntries, bodyEntries, Entries.get?, Text.ofString]

theorem get?_spendable {r : Record} {spendable : Bool} (h : r.body = .output spendable) :
    Entries.get? "spendable" r.fieldEntries = some (.bool spendable) := by
  obtain ⟨body, ref, label, extras, sound⟩ := r
  subst h
  cases label <;> simp [fieldEntries, labelEntries, bodyEntries, Entries.get?, Text.ofString]

/-- The fields have the names of the fields of the kind, each of them once. -/
theorem fieldEntries_keys (r : Record) :
    (∀ e ∈ r.fieldEntries, e.1 ∈ fieldNames r.kind ∧ e.1.isWellFormed = true) ∧
      (r.fieldEntries.map Prod.fst).Nodup := by
  obtain ⟨body, ref, label, extras, sound⟩ := r
  rcases body with ⟨_ | origin⟩ | _ | _ | _ | spendable | _ <;> cases label <;>
    simp [fieldEntries, labelEntries, bodyEntries, kind, Body.kind, fieldNames, Text.ofString,
      Text.isWellFormed, CodePoint.isLone]

/-! ### Reading the entries of a record -/

variable {r : Record} {es : Entries}

theorem readOptional_append {name : Text} {value : Option Text} (hfresh : ∀ e ∈ es, e.1 ≠ name)
    (h : Entries.get? name r.fieldEntries = value.map .string) :
    readField name none readOptionalText (r.fieldEntries ++ es) = .ok value := by
  rw [readField, Entries.get?_append, h, Entries.get?_eq_none hfresh]
  cases value <;> rfl

theorem readBody_append (hfresh : ∀ e ∈ es, e.1 ∉ fieldNames r.kind) :
    readBody (r.fieldEntries ++ es) r.kind = .ok r.body := by
  have hne : ∀ {name : Text}, name ∈ fieldNames r.kind → ∀ e ∈ es, e.1 ≠ name :=
    fun hname e he heq => hfresh e he (heq ▸ hname)
  cases hbody : r.body with
  | transaction origin =>
    have hkind : r.kind = .transaction := by rw [kind, hbody]; rfl
    rw [hkind, readBody, readOptional_append (hne (by rw [hkind]; decide)) (get?_origin hbody)]
    rfl
  | output spendable =>
    have hkind : r.kind = .output := by rw [kind, hbody]; rfl
    rw [hkind, readBody, readField, Entries.get?_append, get?_spendable hbody]
    rfl
  | address | publicKey | input | extendedKey => rw [kind, hbody]; rfl

theorem without_fieldNames (hfresh : ∀ e ∈ es, e.1 ∉ fieldNames r.kind) :
    (r.fieldEntries ++ es).without (fieldNames r.kind) = es := by
  rw [Entries.without, List.filter_append]
  rw [List.filter_eq_nil_iff.mpr, List.filter_eq_self.mpr, List.nil_append]
  · exact fun e he => by simpa using hfresh e he
  · exact fun e he => by simpa using (r.fieldEntries_keys.1 e he).1

theorem build_record (r : Record) (es : Entries) :
    build r.body r.ref r.label es = .ok { r with extras := es } := by
  unfold build
  split
  · next d hd => rw [r.sound] at hd; simp at hd
  · rfl

/-- The fields of a regular record, with further entries behind them, describe the record. -/
theorem ofMapping_append (hcanonical : r.kind.normalize r.ref = r.ref)
    (hfresh : ∀ e ∈ es, e.1 ∉ fieldNames r.kind) (hkeys : ∀ e ∈ es, e.1.isWellFormed = true) :
    ofMapping (r.fieldEntries ++ es) = .ok { r with extras := es } := by
  have hwell : hasWellFormedKeys (r.fieldEntries ++ es) = true := by
    rw [hasWellFormedKeys, List.all_append, Bool.and_eq_true]
    exact ⟨List.all_eq_true.mpr fun e he => (r.fieldEntries_keys.1 e he).2,
      List.all_eq_true.mpr hkeys⟩
  have hlabel : (∀ e ∈ es, e.1 ≠ "label") :=
    fun e he heq => hfresh e he (heq ▸ by cases r.kind <;> decide)
  have href : readRef r.kind (r.fieldEntries ++ es) = .ok r.ref := by
    rw [readRef, get?_ref]
    exact congrArg Except.ok hcanonical
  have htype : readType r.kind (r.fieldEntries ++ es) = .ok r.kind.name := by
    rw [readType, readField, get?_type]
    cases r.kind <;> decide
  rw [ofMapping, ofNamedKind, get?_type]
  simp only [Kind.ofName?_name]
  rw [ofEntries, hwell, href, readLabel, readOptional_append hlabel r.get?_label, htype,
    readBody_append hfresh, without_fieldNames hfresh]
  simp only [build_record]
  rfl

end Record

end LabelBook
