import LabelBook.Text.Utf8
import Mathlib

/-!
Reading back what has been written as UTF-8. A character in its octets is read as that character with
as many octets behind the first as it has; a text is encoded if it has no surrogates, and then its
octets are decoded to the same text. Nothing else is decoded: octets that are read are those of a string.
-/

namespace LabelBook

theorem CodePoint.scalar_toNat (c : Char) :
    c.toNat < 0xD800 ∨ 0xE000 ≤ c.toNat ∧ c.toNat < 0x110000 := by
  have h := c.valid
  simp only [UInt32.isValidChar, Nat.isValidChar] at h
  simp only [Char.toNat]
  omega

theorem CodePoint.ofNat_toNat (c : CodePoint) : ofNat c.toNat = c := by
  cases c with
  | scalar c =>
    have hrange := scalar_toNat c
    rw [ofNat, toNat, dif_neg (by omega), Char.ofNat_toNat]
  | lone n =>
    have hrange : 0xD800 ≤ 0xD800 + n.val ∧ 0xD800 + n.val < 0xE000 := by omega
    simp [ofNat, toNat, hrange]

namespace Utf8

variable {c : Char} {rest : Octets}

theorem toNat_octet {n : Nat} (h : n < 256) : (UInt8.ofNat n).toNat = n := by
  rw [UInt8.toNat_ofNat']
  exact Nat.mod_eq_of_lt h

/-- A continuation octet and the six bits that it carries. -/
theorem isContinuation_octet {n : Nat} (h : n < 0x40) :
    isContinuation (UInt8.ofNat (n + 0x80)) = true ∧ low (UInt8.ofNat (n + 0x80)) = n := by
  rw [isContinuation, low, toNat_octet (by omega)]
  exact ⟨by simp; omega, by omega⟩

theorem code_of_eq {n k : Nat} (h : n = c.toNat) :
    Reading.code (.ofNat n) k = .code (.scalar c) k := by
  rw [h]
  exact congrArg (Reading.code · k) (CodePoint.ofNat_toNat (.scalar c))

/-- The octets of a character are read as the character. -/
theorem readOne_ofChar (c : Char) (rest : Octets) : ∃ a more, ofChar c = a :: more ∧
    readOne false a (more ++ rest) = .code (.scalar c) more.length := by
  have hrange := CodePoint.scalar_toNat c
  have hvalue : c.val.toNat = c.toNat := rfl
  unfold ofChar String.utf8EncodeChar
  simp only [hvalue]
  split
  · next h =>
    refine ⟨_, _, rfl, ?_⟩
    simp only [readOne, toNat_octet (show c.toNat < 256 by omega)]
    rw [if_pos (by omega)]
    exact code_of_eq rfl
  split
  · next h₁ h₂ =>
    refine ⟨_, _, rfl, ?_⟩
    obtain ⟨hb, hlow⟩ := isContinuation_octet (show c.toNat % 0x40 < 0x40 by omega)
    simp only [readOne, toNat_octet (show c.toNat / 64 % 0x20 + 0xC0 < 256 by omega), List.cons_append]
    rw [if_neg (by omega), if_neg (by omega), if_pos (by omega), if_pos hb, hlow]
    exact code_of_eq (by omega)
  split
  · next h₁ h₂ h₃ =>
    refine ⟨_, _, rfl, ?_⟩
    obtain ⟨hb, hlow⟩ := isContinuation_octet (show c.toNat % 0x40 < 0x40 by omega)
    obtain ⟨hb', hlow'⟩ := isContinuation_octet (show c.toNat / 64 % 0x40 < 0x40 by omega)
    have hb'' := toNat_octet (show c.toNat / 64 % 0x40 + 0x80 < 256 by omega)
    simp only [readOne, toNat_octet (show c.toNat / 4096 % 0x10 + 0xE0 < 256 by omega),
      List.cons_append, readThree, hb, hb', hb'', hlow, hlow']
    rw [if_neg (by omega), if_neg (by omega), if_neg (by omega), if_pos (by omega), if_neg,
      if_pos trivial]
    · exact code_of_eq (by omega)
    · simp; omega
  · next h₁ h₂ h₃ =>
    refine ⟨_, _, rfl, ?_⟩
    obtain ⟨hb, hlow⟩ := isContinuation_octet (show c.toNat % 0x40 < 0x40 by omega)
    obtain ⟨hb', hlow'⟩ := isContinuation_octet (show c.toNat / 64 % 0x40 < 0x40 by omega)
    obtain ⟨hc, hlow''⟩ := isContinuation_octet (show c.toNat / 4096 % 0x40 < 0x40 by omega)
    have hc' := toNat_octet (show c.toNat / 4096 % 0x40 + 0x80 < 256 by omega)
    simp only [readOne, toNat_octet (show c.toNat / 262144 % 0x08 + 0xF0 < 256 by omega),
      List.cons_append, readFour, hb, hb', hc, hc', hlow, hlow', hlow'']
    rw [if_neg (by omega), if_neg (by omega), if_neg (by omega), if_neg (by omega), if_pos (by omega),
      if_neg, if_neg (by simp), if_neg (by simp)]
    · exact code_of_eq (by omega)
    · simp; omega

theorem decodeFrom_ofChar (c : Char) (rest : Octets) (position : Nat) (done : Text) :
    decodeFrom false position done (ofChar c ++ rest) =
      decodeFrom false (position + (ofChar c).length) (.scalar c :: done) rest := by
  obtain ⟨a, more, hoctets, hread⟩ := readOne_ofChar c rest
  rw [hoctets, List.cons_append, decodeFrom, hread]
  simp only [List.drop_left, List.length_cons]
  rw [Nat.add_assoc, Nat.add_comm 1]

theorem decodeFrom_flatMap (cs : List Char) (position : Nat) (done : Text) :
    decodeFrom false position done (cs.flatMap ofChar) = .ok (done.reverse ++ Text.ofChars cs) := by
  induction cs generalizing position done with
  | nil => rw [List.flatMap_nil, decodeFrom]; simp [Text.ofChars]
  | cons c cs ih =>
    rw [List.flatMap_cons, decodeFrom_ofChar, ih]
    simp [Text.ofChars]

/-- Strictly encoded texts have no surrogates. -/
theorem encodeFrom_ok {t : Text} {position : Nat} {written octets : Octets}
    (h : encodeFrom false position written t = .ok octets) :
    ∃ cs, t = Text.ofChars cs ∧ octets = written.reverse ++ cs.flatMap ofChar := by
  induction t generalizing position written with
  | nil =>
    rw [encodeFrom] at h
    exact ⟨[], rfl, by simp [← Except.ok.inj h]⟩
  | cons c t ih =>
    cases c with
    | scalar c =>
      rw [encodeFrom] at h
      obtain ⟨cs, rfl, rfl⟩ := ih h
      exact ⟨c :: cs, rfl, by simp [List.reverseAux_eq]⟩
    | lone n =>
      rw [encodeFrom] at h
      cases h

/-- A text that is encoded is decoded again. -/
theorem decode_encode {t : Text} {octets : Octets} (h : encode t = .ok octets) :
    decode octets = .ok t := by
  obtain ⟨cs, rfl, rfl⟩ := encodeFrom_ok h
  exact decodeFrom_flatMap cs 0 []

/-! ### Nothing else is read -/

/-- A number in the range of the scalar values is that of a character. -/
theorem exists_char {n : Nat} (h : n < 0xD800 ∨ 0xE000 ≤ n ∧ n < 0x110000) :
    ∃ c : Char, c.toNat = n ∧ CodePoint.ofNat n = .scalar c := by
  have hvalid : n.isValidChar := by
    unfold Nat.isValidChar
    omega
  refine ⟨Char.ofNat n, ?_, ?_⟩
  · rw [Char.ofNat, dif_pos hvalid]
    rfl
  · rw [CodePoint.ofNat, dif_neg (by omega)]

/-- The octets of a character, by the size of its number. -/
theorem ofChar_eq (c : Char) : ofChar c =
    if c.toNat ≤ 0x7F then [.ofNat c.toNat]
    else if c.toNat ≤ 0x7FF then
      [.ofNat (c.toNat / 64 % 0x20 + 0xC0), .ofNat (c.toNat % 0x40 + 0x80)]
    else if c.toNat ≤ 0xFFFF then
      [.ofNat (c.toNat / 4096 % 0x10 + 0xE0), .ofNat (c.toNat / 64 % 0x40 + 0x80),
        .ofNat (c.toNat % 0x40 + 0x80)]
    else
      [.ofNat (c.toNat / 262144 % 0x08 + 0xF0), .ofNat (c.toNat / 4096 % 0x40 + 0x80),
        .ofNat (c.toNat / 64 % 0x40 + 0x80), .ofNat (c.toNat % 0x40 + 0x80)] := rfl

theorem octet_eq {b : UInt8} {n : Nat} (h : n = b.toNat) : UInt8.ofNat n = b := by
  rw [h, UInt8.ofNat_toNat]

theorem of_isContinuation {b : UInt8} (h : isContinuation b = true) :
    0x80 ≤ b.toNat ∧ b.toNat < 0xC0 ∧ low b = b.toNat - 0x80 := by
  simp only [isContinuation, Bool.and_eq_true, decide_eq_true_eq] at h
  exact ⟨h.1, h.2, by unfold low; omega⟩

/-- A sequence of three octets that is read is that of a character. -/
theorem readThree_code {a : UInt8} {p : CodePoint} {k : Nat} (ha : 0xE0 ≤ a.toNat)
    (ha' : a.toNat < 0xF0) (h : readThree false a.toNat rest = .code p k) :
    ∃ c, p = .scalar c ∧ ofChar c = a :: rest.take k := by
  unfold readThree at h
  dsimp only at h
  split at h
  · cases h
  · split at h <;> cases h
  · next b d tail =>
    split at h
    · cases h
    next hsecond =>
    split at h
    · next hd =>
      -- the second octet rules out a longer form than need be, and the surrogates
      obtain ⟨hb, hshort, hsurrogate⟩ : isContinuation b = true ∧
          (a.toNat = 0xE0 → 0xA0 ≤ b.toNat) ∧ (a.toNat = 0xED → b.toNat < 0xA0) := by
        simpa [and_assoc] using hsecond
      obtain ⟨hb₁, hb₂, hb₃⟩ := of_isContinuation hb
      obtain ⟨hd₁, hd₂, hd₃⟩ := of_isContinuation hd
      obtain ⟨c, hc, hcode⟩ := exists_char
        (n := a.toNat % 0x10 * 0x1000 + low b * 0x40 + low d) (by omega)
      obtain ⟨rfl, rfl⟩ := Reading.code.inj h
      refine ⟨c, hcode, ?_⟩
      rw [ofChar_eq, if_neg (by omega), if_neg (by omega), if_pos (by omega),
        octet_eq (b := a) (by omega), octet_eq (b := b) (by omega), octet_eq (b := d) (by omega)]
      rfl
    · split at h <;> cases h

/-- A sequence of four octets that is read is that of a character. -/
theorem readFour_code {a : UInt8} {p : CodePoint} {k : Nat} (ha : 0xF0 ≤ a.toNat)
    (ha' : a.toNat < 0xF5) (h : readFour a.toNat rest = .code p k) :
    ∃ c, p = .scalar c ∧ ofChar c = a :: rest.take k := by
  unfold readFour at h
  dsimp only at h
  split at h
  · cases h
  next b rest =>
  split at h
  · cases h
  next hsecond =>
  split at h
  · cases h
  next d rest =>
  split at h
  · cases h
  next hd =>
  split at h
  · cases h
  next e rest =>
  split at h
  · cases h
  next he =>
  -- the second octet rules out a longer form than need be, and what lies beyond the last code point
  obtain ⟨hb, hshort, hlast⟩ : isContinuation b = true ∧
      (a.toNat = 0xF0 → 0x90 ≤ b.toNat) ∧ (a.toNat = 0xF4 → b.toNat < 0x90) := by
    simpa [and_assoc] using hsecond
  obtain ⟨hb₁, hb₂, hb₃⟩ := of_isContinuation hb
  obtain ⟨hd₁, hd₂, hd₃⟩ := of_isContinuation (by simpa using hd)
  obtain ⟨he₁, he₂, he₃⟩ := of_isContinuation (by simpa using he)
  obtain ⟨c, hc, hcode⟩ := exists_char
    (n := a.toNat % 8 * 0x40000 + low b * 0x1000 + low d * 0x40 + low e) (by omega)
  obtain ⟨rfl, rfl⟩ := Reading.code.inj h
  refine ⟨c, hcode, ?_⟩
  rw [ofChar_eq, if_neg (by omega), if_neg (by omega), if_neg (by omega),
    octet_eq (b := a) (by omega), octet_eq (b := b) (by omega), octet_eq (b := d) (by omega),
    octet_eq (b := e) (by omega)]
  rfl

/-- Only the octets of a character are read as one. -/
theorem readOne_code {a : UInt8} {p : CodePoint} {k : Nat} (h : readOne false a rest = .code p k) :
    ∃ c, p = .scalar c ∧ ofChar c = a :: rest.take k := by
  unfold readOne at h
  dsimp only at h
  split at h
  · obtain ⟨c, hc, hcode⟩ := exists_char (n := a.toNat) (by omega)
    obtain ⟨rfl, rfl⟩ := Reading.code.inj h
    refine ⟨c, hcode, ?_⟩
    rw [ofChar_eq, if_pos (by omega), octet_eq hc]
    rfl
  split at h
  · cases h
  split at h
  · split at h
    · cases h
    next b rest =>
    split at h
    · next hb =>
      obtain ⟨hb₁, hb₂, hb₃⟩ := of_isContinuation hb
      obtain ⟨c, hc, hcode⟩ := exists_char (n := a.toNat % 0x20 * 0x40 + low b) (by omega)
      obtain ⟨rfl, rfl⟩ := Reading.code.inj h
      refine ⟨c, hcode, ?_⟩
      rw [ofChar_eq, if_neg (by omega), if_pos (by omega), octet_eq (b := a) (by omega),
        octet_eq (b := b) (by omega)]
      rfl
    · cases h
  split at h
  · exact readThree_code (by omega) (by omega) h
  split at h
  · exact readFour_code (by omega) (by omega) h
  · cases h

/-- What is decoded are the octets of characters. -/
theorem decodeFrom_ok {position : Nat} {done t : Text} {octets : Octets}
    (h : decodeFrom false position done octets = .ok t) :
    ∃ cs, t = done.reverse ++ Text.ofChars cs ∧ octets = cs.flatMap ofChar := by
  fun_induction decodeFrom false position done octets with
  | case1 position done => exact ⟨[], by simp [← Except.ok.inj h, Text.ofChars], rfl⟩
  | case2 position done a rest p k hread ih =>
    obtain ⟨c, rfl, hoctets⟩ := readOne_code hread
    obtain ⟨cs, rfl, hrest⟩ := ih h
    refine ⟨c :: cs, by simp [Text.ofChars], ?_⟩
    rw [List.flatMap_cons, hoctets, ← hrest, List.cons_append, List.take_append_drop]
  | case3 => cases h

/-- The octets of a string in UTF-8. -/
theorem octets_ofList (cs : List Char) :
    (String.ofList cs).toUTF8.data.toList = cs.flatMap ofChar := by
  rw [String.toUTF8, String.toByteArray_ofList, List.utf8Encode, List.data_toByteArray]
  rfl

/-- Octets are decoded exactly if they are those of a string, and then to that string. -/
theorem decode_eq_ok_iff {octets : Octets} {t : Text} :
    decode octets = .ok t ↔ ∃ s : String, t = s ∧ octets = s.toUTF8.data.toList := by
  constructor
  · intro h
    obtain ⟨cs, rfl, rfl⟩ := decodeFrom_ok h
    exact ⟨String.ofList cs, by simp [Text.ofString, Text.ofChars], (octets_ofList cs).symm⟩
  · rintro ⟨s, rfl, rfl⟩
    rw [← String.ofList_toList (s := s), octets_ofList, Text.ofString, String.toList_ofList]
    exact decodeFrom_flatMap s.toList 0 []

end Utf8

end LabelBook
