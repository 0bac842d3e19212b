import LabelBook.Proofs.Json.Printed
import LabelBook.Proofs.Record.Lines
import LabelBook.Proofs.Record.Reading

/-!
What is accepted as a record. The entries of an object describe a record if they name its kind and an
identifier of that kind, and the fields of the kind that are there have values that can be read; all
other entries are kept as they are, also those that would be fields of another kind. A record is read
from exactly the entries that describe it, provided that their keys are well-formed, as they are in every
object without a surrogate standing alone.

    {"type": "tx", "ref": "AB…", "spendable": 7}  ↦  a transaction "ab…" with the further entry "spendable": 7
-/

namespace LabelBook

theorem Except.mapError_eq_ok_iff {x : Except ε α} {f : ε → δ} {a : α} :
    x.mapError f = .ok a ↔ x = .ok a := by
  cases x <;> simp [Except.mapError]

theorem Kind.name_of_ofName? {t : Text} {k : Kind} (h : ofName? t = some k) : k.name = t := by
  simpa using List.find?_some h

theorem Kind.name_injective {k l : Kind} (h : k.name = l.name) : k = l :=
  Option.some.inj (by rw [← ofName?_name k, ← ofName?_name l, h])

namespace Record

variable {d : Entries} {v : Json} {r : Record} {k : Kind} {b : Bool}

/-! ### What entries say -/

/-- A field that may be left out or null, and the text that it gives. -/
def Gives (field : Option Json) (t : Option Text) : Prop :=
  (field = none ∨ field = some .null) ∧ t = none ∨ ∃ s, field = some (.string s) ∧ t = some s

/-- The words for a truth value. -/
def wordsFor (b : Bool) : List Text := if b then wordsForTrue else wordsForFalse

/-- A value that is understood as a truth value: it is equal to the number 1 or 0, or a word for the truth
value in letters of any case. -/
def Means (v : Json) (b : Bool) : Prop :=
  v.asNumber? = some (.inl (if b then 1 else 0)) ∨ ∃ s, v = .string s ∧ s.lowerAscii ∈ wordsFor b

/-- The entries for what a kind adds, and what they give. -/
def DescribesBody (d : Entries) : Body → Prop
  | .transaction origin => Gives (d.get? "origin") origin
  | .output spendable => d.get? "spendable" = none ∧ spendable = true ∨
      ∃ v, d.get? "spendable" = some v ∧ Means v spendable
  | .address | .publicKey | .input | .extendedKey => True

/-- The keys of the fields of a kind. -/
def IsField (k : Kind) (key : Text) : Prop :=
  key = "type" ∨ key = "ref" ∨ key = "label" ∨ k = .transaction ∧ key = "origin" ∨
    k = .output ∧ key = "spendable"

theorem mem_fieldNames {key : Text} : key ∈ fieldNames k ↔ IsField k key := by
  cases k <;> simp [fieldNames, IsField] <;> tauto

instance (k : Kind) (key : Text) : Decidable (IsField k key) := decidable_of_iff _ mem_fieldNames

/-- Entries and the record that they describe. -/
structure Describes (d : Entries) (r : Record) : Prop where
  kind : d.get? "type" = some (.string r.kind.name)
  ref : ∃ s, d.get? "ref" = some (.string s) ∧ r.kind.Names s ∧
    r.ref = r.kind.inSmallLetters s
  label : Gives (d.get? "label") r.label
  body : DescribesBody d r.body
  extras : r.extras = d.filter fun e => ¬ IsField r.kind e.1

/-- Entries that can be read as a record. -/
def Acceptable (d : Entries) : Prop :=
  ∃ k s, d.get? "type" = some (.string (Kind.name k)) ∧ d.get? "ref" = some (.string s) ∧ k.Names s ∧
    (∃ t, Gives (d.get? "label") t) ∧
    (k = .transaction → ∃ t, Gives (d.get? "origin") t) ∧
    (k = .output → ∀ v, d.get? "spendable" = some v → ∃ b, Means v b)

/-- Entries without a surrogate standing alone in a key. -/
def WellFormedKeys (d : Entries) : Prop := ∀ e ∈ d, e.1.isWellFormed = true

/-- Entries can be read as a record exactly if they describe one. -/
theorem acceptable_iff : Acceptable d ↔ ∃ r, Describes d r := by
  constructor
  · rintro ⟨k, s, hkind, href, hnames, ⟨label, hlabel⟩, horigin, hspendable⟩
    obtain ⟨body, rfl, hbody⟩ : ∃ body : Body, body.kind = k ∧ DescribesBody d body := by
      cases k with
      | transaction =>
        obtain ⟨origin, horigin⟩ := horigin rfl
        exact ⟨.transaction origin, rfl, horigin⟩
      | output =>
        cases hfield : d.get? "spendable" with
        | none => exact ⟨.output true, rfl, .inl ⟨hfield, rfl⟩⟩
        | some v =>
          obtain ⟨b, hb⟩ := hspendable rfl v hfield
          exact ⟨.output b, rfl, .inr ⟨v, hfield, hb⟩⟩
      | address => exact ⟨.address, rfl, trivial⟩
      | publicKey => exact ⟨.publicKey, rfl, trivial⟩
      | input => exact ⟨.input, rfl, trivial⟩
      | extendedKey => exact ⟨.extendedKey, rfl, trivial⟩
    have hsound : body.kind.defect? (body.kind.normalize s) = none :=
      Kind.defect?_eq_none_iff.mpr (Kind.names_normalize.mpr hnames)
    exact ⟨⟨body, body.kind.normalize s, label, d.filter fun e => ¬ IsField body.kind e.1, hsound⟩,
      hkind, ⟨s, href, hnames, Kind.normalize_of_names hnames⟩, hlabel, hbody, rfl⟩
  · rintro ⟨r, hkind, ⟨s, href, hnames, -⟩, hlabel, hbody, -⟩
    refine ⟨r.kind, s, hkind, href, hnames, ⟨_, hlabel⟩, fun h => ?_, fun h v hv => ?_⟩
    · cases hr : r.body with
      | transaction origin =>
        rw [hr] at hbody
        exact ⟨origin, hbody⟩
      | address | publicKey | input | output _ | extendedKey => rw [Record.kind, hr] at h; cases h
    · cases hr : r.body with
      | output b =>
        rw [hr] at hbody
        rcases hbody with ⟨hnone, -⟩ | ⟨w, hw, hmeans⟩
        · cases hnone.symm.trans hv
        · obtain rfl := Option.some.inj (hw.symm.trans hv)
          exact ⟨b, hmeans⟩
      | transaction _ | address | publicKey | input | extendedKey =>
        rw [Record.kind, hr] at h; cases h

/-! ### Fields -/

theorem readOptionalText_eq_ok_iff {t : Option Text} :
    readOptionalText v = .ok t ↔ Gives (some v) t := by
  cases v <;> simp [readOptionalText, readText, Gives, Except.map, eq_comm]

theorem readField_eq_ok_iff {α : Type} {name : Text} {absent a : α} {read : Json → Except Violation α} :
    readField name absent read d = .ok a ↔
      d.get? name = none ∧ a = absent ∨ ∃ v, d.get? name = some v ∧ read v = .ok a := by
  unfold readField
  cases d.get? name with
  | none => simp [eq_comm]
  | some v => cases h : read v <;> simp [Except.mapError, h]

/-- A text that may be left out. -/
theorem readField_text_iff {name : Text} {t : Option Text} :
    readField name none readOptionalText d = .ok t ↔ Gives (d.get? name) t := by
  rw [readField_eq_ok_iff]
  cases d.get? name with
  | none => simp [Gives]
  | some v => simp [readOptionalText_eq_ok_iff]

theorem readRef_eq_ok_iff {ref : Text} : readRef k d = .ok ref ↔
    ∃ s, d.get? "ref" = some (.string s) ∧ ref = k.normalize s := by
  unfold readRef
  cases d.get? "ref" with
  | none => simp
  | some v => cases v <;> simp [readText, Except.map, Except.mapError, eq_comm]

theorem readType_of_name (h : d.get? "type" = some (.string k.name)) :
    readType k d = .ok k.name := by
  rw [readType, readField, h]
  cases k <;> decide

/-! ### Truth values -/

theorem booleanOfInt_eq_ok_iff {n : Int} : booleanOfInt n = .ok b ↔ n = if b then 1 else 0 := by
  unfold booleanOfInt
  split_ifs with h₀ h₁ <;> cases b <;> simp_all

/-- A bound that 0 and 1 keep makes no difference. -/
theorem bounded_eq_ok_iff {n : Int} {p : Prop} [Decidable p] {e : Violation}
    (h : n = 0 ∨ n = 1 → p) :
    (if p then booleanOfInt n else .error e) = .ok b ↔ n = if b then 1 else 0 := by
  by_cases hp : p
  · rw [if_pos hp, booleanOfInt_eq_ok_iff]
  · rw [if_neg hp]
    refine iff_of_false (by simp) fun hn => hp (h ?_)
    cases b
    · exact .inl hn
    · exact .inr hn

theorem isWellFormed_lowerAscii (s : Text) : Text.isWellFormed s.lowerAscii = s.isWellFormed := by
  unfold Text.isWellFormed Text.lowerAscii
  rw [List.any_map]
  congr 2
  funext c
  cases c <;> rfl

/-- A word for a truth value has no surrogate. -/
theorem isWellFormed_of_word {s : Text} (h : s.lowerAscii ∈ wordsFor b) : s.isWellFormed = true := by
  have hwords : ∀ b, ∀ w ∈ wordsFor b, Text.isWellFormed w = true := by decide
  rw [← isWellFormed_lowerAscii]
  exact hwords b _ h

theorem wordsForFalse_apart : ∀ w ∈ wordsForFalse, w ∉ wordsForTrue := by decide

theorem readBoolean_word_iff {s : Text} :
    readBoolean (.string s) = .ok b ↔ s.lowerAscii ∈ wordsFor b := by
  rw [readBoolean]
  by_cases hwell : s.isWellFormed = true
  · rw [if_neg (by simp [hwell])]
    by_cases htrue : s.lowerAscii ∈ wordsForTrue
    · have hfalse : s.lowerAscii ∉ wordsForFalse := fun h => wordsForFalse_apart _ h htrue
      cases b <;> simp [wordsFor, htrue, hfalse]
    · cases b <;> by_cases hfalse : s.lowerAscii ∈ wordsForFalse <;>
        simp [wordsFor, htrue, hfalse]
  · rw [if_pos (by simpa using hwell)]
    exact iff_of_false (by simp) fun h => hwell (isWellFormed_of_word h)

/-- A value is read as a truth value exactly if it is understood as that. -/
theorem readBoolean_eq_ok_iff : readBoolean v = .ok b ↔ Means v b := by
  have hnumber : ∀ n : Int, (n = if b then 1 else 0) ↔
      (some (.inl n) : Option (Int ⊕ Binary64)) = some (.inl (if b then 1 else 0)) := by simp
  cases v with
  | null | array _ | object _ => simp [readBoolean, Means, Json.asNumber?]
  | bool c => cases b <;> cases c <;> simp [readBoolean, Means, Json.asNumber?]
  | int n =>
    have hread : readBoolean (.int n) = .ok b ↔ n = if b then 1 else 0 :=
      bounded_eq_ok_iff fun h => by rcases h with rfl | rfl <;> decide
    rw [hread, hnumber, Means, Json.asNumber?]
    simp
  | float x =>
    rw [readBoolean, Means, Json.asNumber?]
    cases x.asInt? with
    | none => simp
    | some n =>
      dsimp only
      rw [bounded_eq_ok_iff fun h => by rcases h with rfl | rfl <;> decide, hnumber]
      simp
  | string s => simp [readBoolean_word_iff, Means, Json.asNumber?]

/-! ### Records -/

theorem readField_boolean_iff :
    readField "spendable" true readBoolean d = .ok b ↔ DescribesBody d (.output b) := by
  simp only [readField_eq_ok_iff, readBoolean_eq_ok_iff, DescribesBody]

theorem readBody_eq_ok_iff {body : Body} :
    readBody d k = .ok body ↔ body.kind = k ∧ DescribesBody d body := by
  constructor
  · intro h
    obtain rfl := readBody_kind h
    refine ⟨rfl, ?_⟩
    cases body with
    | transaction origin =>
      obtain ⟨_, hread, heq⟩ := Except.eq_ok_of_map h
      obtain rfl := Body.transaction.inj heq
      exact readField_text_iff.mp hread
    | output b =>
      obtain ⟨_, hread, heq⟩ := Except.eq_ok_of_map h
      obtain rfl := Body.output.inj heq
      exact readField_boolean_iff.mp hread
    | address | publicKey | input | extendedKey => trivial
  · rintro ⟨rfl, h⟩
    cases body with
    | transaction origin =>
      rw [Body.kind, readBody, readField_text_iff.mpr h]
      rfl
    | output b =>
      rw [Body.kind, readBody, readField_boolean_iff.mpr h]
      rfl
    | address | publicKey | input | extendedKey => rfl

theorem without_eq_filter : d.without (fieldNames k) = d.filter fun e => ¬ IsField k e.1 := by
  rw [Entries.without]
  refine List.filter_congr fun e _ => ?_
  simp [← mem_fieldNames]

theorem build_eq_ok_iff {body : Body} {ref : Text} {label : Option Text} {extras : Entries} :
    build body ref label extras = .ok r ↔
      r.body = body ∧ r.ref = ref ∧ r.label = label ∧ r.extras = extras := by
  constructor
  · exact build_ok
  · rintro ⟨rfl, rfl, rfl, rfl⟩
    exact build_record r r.extras

/-- What stands behind a record that was read from a mapping. -/
theorem ofMapping_ok (h : ofMapping d = .ok r) :
    d.get? "type" = some (.string r.kind.name) ∧ ofEntries r.kind d = .ok r := by
  unfold ofMapping ofNamedKind at h
  dsimp only at h
  split at h
  · cases h
  · next v htype =>
    split at h
    · cases h
    · next k hnamed =>
      cases hread : ofEntries k d with
      | error e => rw [hread] at h; cases h
      | ok q =>
        rw [hread] at h
        obtain rfl := Except.ok.inj h
        obtain ⟨-, rfl, -⟩ := ofEntries_ok hread
        refine ⟨?_, hread⟩
        cases v with
        | string s => rw [htype, Kind.name_of_ofName? hnamed]
        | null | bool _ | int _ | float _ | array _ | object _ => cases hnamed

/-- Entries that name a kind are read as a record of it exactly if they describe that record. -/
theorem ofEntries_eq_ok_iff (htype : d.get? "type" = some (.string k.name)) :
    ofEntries k d = .ok r ↔ WellFormedKeys d ∧ r.kind = k ∧ Describes d r := by
  constructor
  · intro h
    obtain ⟨hkeys, href, hlabel, hbody, hextras⟩ := ofEntries_parts h
    obtain ⟨hkind, hdescribed⟩ := readBody_eq_ok_iff.mp hbody
    obtain ⟨s, hs, hspelling⟩ := readRef_eq_ok_iff.mp href
    obtain rfl : r.kind = k := hkind
    have hnames : r.kind.Names s := by
      rw [← Kind.names_normalize, ← hspelling]
      exact Kind.defect?_eq_none_iff.mp r.sound
    exact ⟨List.all_eq_true.mp hkeys, rfl, htype,
      ⟨s, hs, hnames, hspelling.trans (Kind.normalize_of_names hnames)⟩,
      readField_text_iff.mp hlabel, hdescribed, hextras.trans without_eq_filter⟩
  · rintro ⟨hkeys, rfl, -, ⟨s, hs, hnames, hspelling⟩, hlabel, hbody, hextras⟩
    rw [← Kind.normalize_of_names hnames] at hspelling
    have hwell : hasWellFormedKeys d = true := List.all_eq_true.mpr hkeys
    have hbuild : build r.body r.ref r.label (d.without (fieldNames r.kind)) = .ok r :=
      build_eq_ok_iff.mpr ⟨rfl, rfl, rfl, hextras.trans without_eq_filter.symm⟩
    have hread : readBody d r.kind = .ok r.body := readBody_eq_ok_iff.mpr ⟨rfl, hbody⟩
    rw [ofEntries, hwell, readRef_eq_ok_iff.mpr ⟨s, hs, hspelling⟩, readLabel,
      readField_text_iff.mpr hlabel, readType_of_name htype, hread]
    simp only [hbuild]
    rfl

/-- A record is read from entries exactly if their keys are well-formed and they describe it. -/
theorem ofMapping_eq_ok_iff : ofMapping d = .ok r ↔ WellFormedKeys d ∧ Describes d r := by
  constructor
  · intro h
    obtain ⟨htype, hread⟩ := ofMapping_ok h
    obtain ⟨hkeys, -, hdescribes⟩ := (ofEntries_eq_ok_iff htype).mp hread
    exact ⟨hkeys, hdescribes⟩
  · rintro ⟨hkeys, hdescribes⟩
    rw [ofMapping, ofNamedKind, hdescribes.kind]
    simp only [Kind.ofName?_name]
    rw [(ofEntries_eq_ok_iff hdescribes.kind).mpr ⟨hkeys, rfl, hdescribes⟩]
    rfl

/-- Entries are accepted exactly if their keys are well-formed and they can be read as a record. -/
theorem accepted_iff : (∃ r, ofMapping d = .ok r) ↔ WellFormedKeys d ∧ Acceptable d := by
  simp only [ofMapping_eq_ok_iff, acceptable_iff, exists_and_left]

/-- A record is read from a line of JSON exactly if it is read from the entries of the object there. -/
theorem ofLine_eq_ok_iff {number : Int} {t : Text} (hparse : Json.parse t = .ok v) :
    ofLine number t = .ok r ↔ ∃ d, v = .object d ∧ ofMapping d = .ok r := by
  cases v with
  | object d =>
    rw [ofLine_object hparse, Except.mapError_eq_ok_iff, Except.mapError_eq_ok_iff]
    simp
  | null | bool _ | int _ | float _ | string _ | array _ =>
    rw [ofLine, hparse]
    simp [Except.mapError, Except.bind, ofJson]

theorem wellFormedKeys_of_strings (h : ∀ s ∈ (Json.object d).strings, s.isWellFormed = true) :
    WellFormedKeys d := by
  rw [Json.strings] at h
  induction d with
  | nil => exact fun e he => absurd he List.not_mem_nil
  | cons e d ih =>
    rw [Json.entryStrings] at h
    obtain ⟨he, hd⟩ := List.forall_mem_cons.mp h
    exact List.forall_mem_cons.mpr ⟨he, ih fun s hs => hd s (List.mem_append_right _ hs)⟩

/-- What is accepted as a record, and as which. Entries are accepted exactly if they have well-formed keys,
which those of an object without lone surrogates are, and name a kind, an identifier of its form, and for
each field of the kind a value that can be read or none; the record is then the one that they describe:
of this kind, the identifier in small letters if it starts with a transaction id and verbatim otherwise,
the fields as given, and all other entries in their order. A line of JSON is accepted exactly if it holds
an object with such entries, as the same record. -/
theorem accepts_exactly (d : Entries) :
    ((∃ r, ofMapping d = .ok r) ↔ WellFormedKeys d ∧ Acceptable d) ∧
      (∀ r, ofMapping d = .ok r ↔ WellFormedKeys d ∧ Describes d r) ∧
      ((∀ s ∈ (Json.object d).strings, s.isWellFormed = true) → WellFormedKeys d) ∧
      ∀ number t v, Json.parse t = .ok v →
        ((∃ r, ofLine number t = .ok r) ↔ ∃ e, v = .object e ∧ WellFormedKeys e ∧ Acceptable e) ∧
        ∀ r, ofLine number t = .ok r ↔ ∃ e, v = .object e ∧ WellFormedKeys e ∧ Describes e r := by
  refine ⟨accepted_iff, fun r => ofMapping_eq_ok_iff, wellFormedKeys_of_strings, ?_⟩
  intro number t v hparse
  constructor
  · simp only [ofLine_eq_ok_iff hparse, ← accepted_iff]
    constructor
    · rintro ⟨r, e, he, hread⟩
      exact ⟨e, he, r, hread⟩
    · rintro ⟨e, he, r, hread⟩
      exact ⟨r, e, he, hread⟩
  · intro r
    simp only [ofLine_eq_ok_iff hparse, ofMapping_eq_ok_iff]

/-- An output in capital letters that names an origin, which is no field of its kind. -/
def capitalEntries (spendable : Json) : Entries :=
  [("spendable", spendable), ("origin", .int 7),
    ("ref", .string (List.replicate 64 (.scalar 'A') ++ (":007" : Text))), ("type", .string "output")]

/-- The output that they describe if they say that it is spendable. -/
def capitalRecord : Record :=
  ⟨.output true, List.replicate 64 (.scalar 'a') ++ (":007" : Text), none, [("origin", .int 7)],
    by decide +kernel⟩

/-- A word says that the output is spendable, and a number that is neither 0 nor 1 does not. -/
theorem accepts_exactly_capitals : ofMapping (capitalEntries (.string "Yes")) = .ok capitalRecord ∧
    ¬ ∃ r, ofMapping (capitalEntries (.int 2)) = .ok r := by
  constructor
  · refine ((accepts_exactly _).2.1 _).mpr ⟨by unfold WellFormedKeys; decide, rfl, ⟨_, rfl, ?_, rfl⟩,
      .inl ⟨.inl rfl, rfl⟩, .inr ⟨_, rfl, .inr ⟨_, rfl, by decide⟩⟩, rfl⟩
    exact ⟨List.replicate 64 (.scalar 'A'), "007", rfl, ⟨rfl, by decide⟩, by decide, by decide⟩
  · rw [(accepts_exactly _).1]
    rintro ⟨-, k, s, hkind, -, -, -, -, hspendable⟩
    have hname : Kind.name .output = k.name := Json.string.inj (Option.some.inj hkind)
    obtain ⟨b, hmeans⟩ := hspendable (Kind.name_injective hname).symm (.int 2) rfl
    cases b <;> simp [Means, Json.asNumber?] at hmeans

end Record

end LabelBook
