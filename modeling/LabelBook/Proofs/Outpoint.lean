import LabelBook.Proofs.Reference

/-!
Inputs and outputs by their numbers. An identifier of an input or an output denotes a transaction, by its id
read as a hexadecimal number, and an index. Two of them have one canonical spelling exactly if they denote
the same and are equally long: lower case leaves nothing of the spelling of a number but how many zeros it
begins with, and ids are all of one length, so only zeros in front of the index tell spellings apart.
-/

namespace LabelBook

/-! ### Numbers -/

/-- The value of a hexadecimal digit; anything else counts as 0. -/
def CodePoint.digit (c : CodePoint) : Nat := c.hexValue?.getD 0

/-- The number that digits spell in a base. -/
def Text.number (base : Nat) (t : Text) : Nat := t.foldl (fun n c => n * base + c.digit) 0

namespace CodePoint

theorem digit_lower (c : CodePoint) : c.lower.digit = c.digit := by
  rw [digit, hexValue?_lower, digit]

/-- The small letter of a hexadecimal digit is known by its value. -/
theorem lower_of_digit {c : CodePoint} (h : c.isHex = true) :
    c.lower = .ofNat (if c.digit < 10 then 0x30 + c.digit else 0x57 + c.digit) := by
  obtain ⟨n, hn⟩ := Option.isSome_iff_exists.mp h
  rw [lower_of_hexValue? hn, digit, hn, Option.getD_some]

theorem digit_lt_sixteen (c : CodePoint) : c.digit < 16 := by
  unfold digit hexValue?
  dsimp only
  split_ifs <;> simp <;> omega

theorem digit_lt_ten {c : CodePoint} (h : c.isDigit = true) : c.digit < 10 := by
  have hbounds := isDigit_iff.mp h
  unfold digit hexValue?
  dsimp only
  rw [if_pos hbounds, Option.getD_some]
  omega

end CodePoint

namespace Text

variable {base : Nat} {s t : Text}

theorem number_eq_ofDigits (base : Nat) (t : Text) :
    t.number base = Nat.ofDigits base (t.map CodePoint.digit).reverse := by
  induction t using List.reverseRecOn with
  | nil => rfl
  | append_singleton t c ih =>
    rw [List.map_append, List.reverse_append, List.map_singleton, List.reverse_singleton,
      List.singleton_append, Nat.ofDigits_cons, ← ih, number, List.foldl_append]
    simp [number, Nat.mul_comm, Nat.add_comm]

/-- Digits in lower case are known by their number and by how many they are. -/
theorem map_lower_eq_iff (hbase : 1 < base) (hs : ∀ c ∈ s, c.isHex = true ∧ c.digit < base)
    (ht : ∀ c ∈ t, c.isHex = true ∧ c.digit < base) :
    s.map CodePoint.lower = t.map CodePoint.lower ↔
      s.number base = t.number base ∧ s.length = t.length := by
  constructor
  · intro h
    have hdigits : s.map CodePoint.digit = t.map CodePoint.digit := by
      simpa [Function.comp_def, CodePoint.digit_lower] using congrArg (List.map CodePoint.digit) h
    rw [number_eq_ofDigits, number_eq_ofDigits, hdigits]
    exact ⟨rfl, by simpa using congrArg List.length h⟩
  · rintro ⟨hnumber, hlength⟩
    rw [number_eq_ofDigits, number_eq_ofDigits] at hnumber
    have hdigits : s.map CodePoint.digit = t.map CodePoint.digit := by
      refine List.reverse_injective (Nat.ofDigits_inj_of_len_eq hbase (by simpa using hlength) ?_ ?_ hnumber)
      · simpa using fun c hc => (hs c hc).2
      · simpa using fun c hc => (ht c hc).2
    have hlower : ∀ {u : Text}, (∀ c ∈ u, c.isHex = true ∧ c.digit < base) →
        u.map CodePoint.lower = (u.map CodePoint.digit).map fun n =>
          .ofNat (if n < 10 then 0x30 + n else 0x57 + n) := by
      intro u hu
      rw [List.map_map]
      exact List.map_congr_left fun c hc => CodePoint.lower_of_digit (hu c hc).1
    rw [hlower hs, hlower ht, hdigits]

end Text

/-! ### Outpoints -/

/-- What an identifier of an input or an output denotes. -/
structure Outpoint where
  transaction : Nat
  index : Nat
  deriving DecidableEq

/-- What is denoted by a transaction id in hexadecimal, a colon, and an index in decimal. -/
def Outpoint.of (ref : Text) : Outpoint :=
  ⟨Text.number 16 (ref.take Kind.idLength), Text.number 10 (ref.drop (Kind.idLength + 1))⟩

theorem Outpoint.of_append {id index : Text} (h : Kind.IsId id) :
    Outpoint.of (id ++ .scalar ':' :: index) = ⟨id.number 16, index.number 10⟩ := by
  have hlength : id.length = Kind.idLength := h.1
  have htake : (id ++ .scalar ':' :: index).take Kind.idLength = id := List.take_left' hlength
  have hdrop : (id ++ .scalar ':' :: index).drop (Kind.idLength + 1) = index := by
    rw [← hlength, ← List.drop_drop, List.drop_left, List.drop_one, List.tail_cons]
  rw [Outpoint.of, htake, hdrop]

namespace Kind

variable {k : Kind} {s t : Text}

/-- The kinds whose identifiers denote a transaction and an index. -/
def HasIndex (k : Kind) : Prop := k = input ∨ k = output

theorem HasIndex.names (hk : k.HasIndex) (h : k.Names s) : ∃ id index,
    s = id ++ .scalar ':' :: index ∧ IsId id ∧ index ≠ [] ∧ ∀ c ∈ index, c ∈ decimalDigits := by
  obtain rfl | rfl := hk <;> exact h

theorem HasIndex.hasTransactionId (hk : k.HasIndex) : k.hasTransactionId = true := by
  obtain rfl | rfl := hk <;> rfl

/-- Two identifiers have one canonical spelling exactly if they denote the same and are equally long. -/
theorem HasIndex.normalize_eq_iff (hk : k.HasIndex) (hs : k.Names s) (ht : k.Names t) :
    k.normalize s = k.normalize t ↔ Outpoint.of s = Outpoint.of t ∧ s.length = t.length := by
  rw [normalize_eq_map hk.hasTransactionId hs, normalize_eq_map hk.hasTransactionId ht]
  obtain ⟨id, index, rfl, hid, -, hindex⟩ := hk.names hs
  obtain ⟨id', index', rfl, hid', -, hindex'⟩ := hk.names ht
  have hdigits : ∀ {u : Text}, IsId u → ∀ c ∈ u, c.isHex = true ∧ c.digit < 16 := fun hu c hc =>
    ⟨CodePoint.mem_hexDigits.mpr (hu.2 c hc), c.digit_lt_sixteen⟩
  have hdecimal : ∀ {u : Text}, (∀ c ∈ u, c ∈ decimalDigits) →
      ∀ c ∈ u, c.isHex = true ∧ c.digit < 10 := by
    intro u hu c hc
    have hc := CodePoint.mem_decimalDigits.mpr (hu c hc)
    exact ⟨CodePoint.isHex_of_isDigit hc, CodePoint.digit_lt_ten hc⟩
  have hids := Text.map_lower_eq_iff (by decide) (hdigits hid) (hdigits hid')
  have hindices := Text.map_lower_eq_iff (by decide) (hdecimal hindex) (hdecimal hindex')
  have hlength : id.length = id'.length := hid.1.trans hid'.1.symm
  have hsplit : ∀ {us vs : Text}, id.map CodePoint.lower ++ us = id'.map CodePoint.lower ++ vs ↔
      id.map CodePoint.lower = id'.map CodePoint.lower ∧ us = vs := by
    refine fun {us vs} => ⟨fun h => List.append_inj h (by simpa using hlength), ?_⟩
    rintro ⟨h, rfl⟩
    rw [h]
  rw [Outpoint.of_append hid, Outpoint.of_append hid', Outpoint.mk.injEq, List.map_append,
    List.map_append, List.map_cons, List.map_cons, hsplit, List.cons.injEq, hids, hindices,
    List.length_append, List.length_append, List.length_cons, List.length_cons, hlength]
  simp only [true_and, and_true, Nat.add_left_cancel_iff, Nat.add_right_cancel_iff]
  exact and_assoc.symm

end Kind

end LabelBook
