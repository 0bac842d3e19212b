import LabelBook.Proofs.Text.LowerCase
import LabelBook.Reference

/-!
Identifiers. An identifier names an entity of a kind exactly if it has the form that the kind asks for,
and its canonical spelling names one exactly if it does itself: lower case makes no identifier of what is
none. A canonical spelling is its own canonical spelling.
-/

namespace LabelBook

/-- The hexadecimal digits, in either case. -/
def hexDigits : Text := "0123456789abcdefABCDEF"

/-- The decimal digits. -/
def decimalDigits : Text := "0123456789"

theorem CodePoint.mem_hexDigits {c : CodePoint} : c.isHex = true ↔ c ∈ hexDigits := by
  constructor
  · intro h
    rw [← c.ofNat_toNat]
    rcases isHex_iff.mp h with ⟨hfirst, hlast⟩ | ⟨hfirst, hlast⟩ | ⟨hfirst, hlast⟩
    all_goals
      generalize c.toNat = n at hfirst hlast
      interval_cases n <;> decide
  · revert c
    decide

theorem CodePoint.mem_decimalDigits {c : CodePoint} : c.isDigit = true ↔ c ∈ decimalDigits := by
  constructor
  · intro h
    obtain ⟨hfirst, hlast⟩ := isDigit_iff.mp h
    rw [← c.ofNat_toNat]
    generalize c.toNat = n at hfirst hlast
    interval_cases n <;> decide
  · revert c
    decide

namespace Kind

variable {k : Kind} {s t : Text}

/-- The form of a transaction id: 64 hexadecimal digits. -/
def IsId (s : Text) : Prop := s.length = 64 ∧ ∀ c ∈ s, c ∈ hexDigits

/-- The form of the identifiers of a kind. -/
def Names : Kind → Text → Prop
  | transaction, s => IsId s
  | input, s | output, s => ∃ id index, s = id ++ .scalar ':' :: index ∧ IsId id ∧ index ≠ [] ∧
      ∀ c ∈ index, c ∈ decimalDigits
  | address, s | publicKey, s | extendedKey, s => s ≠ []

theorem isTransactionId_iff : isTransactionId s = true ↔ IsId s := by
  simp only [isTransactionId, IsId, idLength, Bool.and_eq_true, beq_iff_eq, List.all_eq_true,
    CodePoint.mem_hexDigits]

theorem isOutpoint_iff : isOutpoint s = true ↔ ∃ id index, s = id ++ .scalar ':' :: index ∧
    IsId id ∧ index ≠ [] ∧ ∀ c ∈ index, c ∈ decimalDigits := by
  constructor
  · intro h
    unfold isOutpoint at h
    split at h
    · next index hdrop =>
      simp only [Bool.and_eq_true, Bool.not_eq_true', List.isEmpty_eq_false_iff, List.all_eq_true,
        CodePoint.mem_decimalDigits] at h
      refine ⟨s.take idLength, index, ?_, isTransactionId_iff.mp h.1.1, h.1.2, h.2⟩
      rw [← hdrop, List.take_append_drop]
    · cases h
  · rintro ⟨id, index, rfl, hid, hindex, hdigits⟩
    have hlength : id.length = idLength := hid.1
    rw [isOutpoint, List.drop_left' hlength, List.take_left' hlength, isTransactionId_iff.mpr hid]
    simp only [Bool.true_and, Bool.and_eq_true, Bool.not_eq_true', List.isEmpty_eq_false_iff,
      List.all_eq_true, CodePoint.mem_decimalDigits]
    exact ⟨hindex, hdigits⟩

/-- Nothing is wrong with an identifier exactly if it has the form that its kind asks for. -/
theorem defect?_eq_none_iff : k.defect? s = none ↔ k.Names s := by
  have hid : IsId s → s ≠ [] := by
    rintro ⟨hlength, -⟩ rfl
    cases hlength
  unfold defect?
  by_cases hempty : s = []
  · subst hempty
    cases k <;> simp [Names, IsId]
  · rw [if_neg (by simpa using hempty)]
    cases k with
    | transaction => simp [Names, ← isTransactionId_iff]
    | input | output => simp [Names, ← isOutpoint_iff]
    | address | publicKey | extendedKey => simp [Names, hempty]

theorem validate_eq_ok_iff : k.validate s = .ok t ↔ t = s ∧ k.Names s := by
  rw [← defect?_eq_none_iff, validate]
  cases k.defect? s with
  | none => simp [eq_comm]
  | some d => simp

/-! ### Lower case -/

theorem isId_map (s : Text) : IsId (s.map CodePoint.lower) ↔ IsId s := by
  simp only [IsId, List.length_map, List.forall_mem_map, ← CodePoint.mem_hexDigits,
    CodePoint.isHex_lower]

/-- An identifier that starts with a transaction id has hexadecimal digits and a colon at most. -/
theorem names_alphabet (hid : k.hasTransactionId = true) (h : k.Names s) :
    ∀ c ∈ s, c.isHex = true ∨ c = .scalar ':' := by
  have hexadecimal : ∀ {s : Text}, IsId s → ∀ c ∈ s, c.isHex = true ∨ c = .scalar ':' :=
    fun h c hc => .inl (CodePoint.mem_hexDigits.mpr (h.2 c hc))
  cases k with
  | transaction => exact hexadecimal h
  | input | output =>
    obtain ⟨id, index, rfl, hid, -, hdigits⟩ := h
    intro c hc
    rcases List.mem_append.mp hc with hc | hc
    · exact hexadecimal hid c hc
    · rcases List.mem_cons.mp hc with rfl | hc
      · exact .inr rfl
      · exact .inl (CodePoint.isHex_of_isDigit (CodePoint.mem_decimalDigits.mpr (hdigits c hc)))
  | address | publicKey | extendedKey => cases hid

theorem le_of_alphabet {c : CodePoint} (h : c.isHex = true ∨ c = .scalar ':') : c.toNat ≤ 0x66 := by
  rcases h with h | rfl
  · exact CodePoint.le_of_isHex h
  · decide

theorem names_low (hid : k.hasTransactionId = true) (h : k.Names s) : ∀ c ∈ s, c.toNat ≤ 0x66 :=
  fun c hc => le_of_alphabet (names_alphabet hid h c hc)

/-- The lower case of an identifier that starts with a transaction id is that of its code points. -/
theorem lower_of_alphabet (h : ∀ c ∈ s, c.isHex = true ∨ c = .scalar ':') :
    s.lower = s.map CodePoint.lower :=
  Text.lower_eq_map fun c hc =>
    Text.isOdd_of_lt (Nat.lt_of_le_of_lt (le_of_alphabet (h c hc)) (by decide))

theorem normalize_eq_map (hid : k.hasTransactionId = true) (h : k.Names s) :
    k.normalize s = s.map CodePoint.lower := by
  rw [normalize, if_pos hid, lower_of_alphabet (names_alphabet hid h)]

theorem lower_colon {c : CodePoint} : c.lower = .scalar ':' ↔ c = .scalar ':' := by
  constructor
  · intro h
    rwa [CodePoint.lower_of_lt (.inr (by rw [h]; decide))] at h
  · rintro rfl
    decide

theorem names_map (hid : k.hasTransactionId = true) (s : Text) :
    k.Names (s.map CodePoint.lower) ↔ k.Names s := by
  cases k with
  | transaction => exact isId_map s
  | input | output =>
    constructor
    · rintro ⟨id, index, heq, hid, hindex, hdigits⟩
      obtain ⟨a, b, rfl, rfl, hb⟩ := List.map_eq_append_iff.mp heq
      obtain ⟨c, d, rfl, hc, rfl⟩ := List.map_eq_cons_iff.mp hb
      refine ⟨a, d, by rw [lower_colon.mp hc], (isId_map a).mp hid, by simpa using hindex, ?_⟩
      simpa only [List.forall_mem_map, ← CodePoint.mem_decimalDigits, CodePoint.isDigit_lower]
        using hdigits
    · rintro ⟨id, index, rfl, hid, hindex, hdigits⟩
      refine ⟨id.map .lower, index.map .lower, ?_, (isId_map id).mpr hid, by simpa using hindex, ?_⟩
      · rw [List.map_append, List.map_cons, lower_colon.mpr rfl]
      · simpa only [List.forall_mem_map, ← CodePoint.mem_decimalDigits, CodePoint.isDigit_lower]
          using hdigits
  | address | publicKey | extendedKey => cases hid

/-- The canonical spelling of an identifier names an entity exactly if the identifier does. -/
theorem names_normalize : k.Names (k.normalize s) ↔ k.Names s := by
  unfold normalize
  split
  · next hid => exact Text.lower_iff (fun _ h => names_low hid h) (names_map hid) s
  · exact Iff.rfl

/-- An identifier with small letters if it starts with a transaction id, and as it is otherwise. -/
def inSmallLetters : Kind → Text → Text
  | transaction, s | input, s | output, s => s.lowerAscii
  | address, s | publicKey, s | extendedKey, s => s

/-- The canonical spelling of an identifier that names an entity has small letters. -/
theorem normalize_of_names (h : k.Names s) : k.normalize s = k.inSmallLetters s := by
  unfold normalize
  split
  · next hid =>
    rw [Text.lower_eq_lowerAscii fun c hc => Nat.lt_of_le_of_lt (names_low hid h c hc) (by decide)]
    cases k with
    | transaction | input | output => rfl
    | address | publicKey | extendedKey => cases hid
  · next hid =>
    cases k with
    | transaction | input | output => exact absurd rfl hid
    | address | publicKey | extendedKey => rfl

/-- A canonical spelling is its own canonical spelling. -/
theorem normalize_normalize (k : Kind) (s : Text) :
    k.normalize (k.normalize s) = k.normalize s := by
  unfold normalize
  split
  · exact Text.lower_lower s
  · rfl

end Kind

end LabelBook
