import LabelBook.Json.Parser
import LabelBook.Json.Printer
import LabelBook.Proofs.Number.Decimal

/-!
Reading the numbers that have been written. A number is read up to the first code point that cannot
go on with it; integers come back as they are, and the digits of a floating-point number denote a
decimal that is rounded back to the number.
-/

namespace LabelBook

@[simp] theorem Text.ofChars_nil : ofChars [] = [] := rfl

@[simp] theorem Text.ofChars_cons (c : Char) (cs : List Char) :
    ofChars (c :: cs) = .scalar c :: ofChars cs := rfl

@[simp] theorem Text.ofChars_append (cs ds : List Char) :
    ofChars (cs ++ ds) = ofChars cs ++ ofChars ds := by simp [ofChars]

@[simp] theorem Text.ofChars_isEmpty (cs : List Char) : (ofChars cs).isEmpty = cs.isEmpty := by
  cases cs <;> rfl

@[simp] theorem Text.length_ofChars (cs : List Char) : (ofChars cs).length = cs.length := by
  simp [ofChars]

namespace Json

/-- What may follow a number: nothing that could go on with it. -/
structure EndsNumber (rest : Text) : Prop where
  digit : ∀ c, rest.head? = some c → c.isDigit = false
  point : rest.head? ≠ some (.scalar '.')
  lower : rest.head? ≠ some (.scalar 'e')
  upper : rest.head? ≠ some (.scalar 'E')

theorem endsNumber_nil : EndsNumber [] := by constructor <;> simp

theorem endsNumber_cons {c : CodePoint} (h : c.isDigit = false) (hp : c ≠ .scalar '.')
    (hl : c ≠ .scalar 'e') (hu : c ≠ .scalar 'E') (rest : Text) : EndsNumber (c :: rest) := by
  constructor <;> simp_all

variable {negative : Bool} {ds fs : List Char} {rest : Text}

/-! ### Runs of digits -/

theorem takeWhile_isDigit (hd : ∀ c ∈ ds, c.isDigit = true)
    (h : ∀ c, rest.head? = some c → c.isDigit = false) :
    (Text.ofChars ds ++ rest).takeWhile CodePoint.isDigit = Text.ofChars ds ∧
      (Text.ofChars ds ++ rest).dropWhile CodePoint.isDigit = rest := by
  have hds : ∀ c ∈ Text.ofChars ds, c.isDigit = true := by
    intro c hc
    obtain ⟨d, hmem, rfl⟩ := List.mem_map.mp hc
    exact hd d hmem
  rw [List.takeWhile_append_of_pos hds, List.dropWhile_append_of_pos hds]
  cases rest with
  | nil => simp
  | cons c rest => simp [h c rfl]

/-- Digits as the whole part of a number has them. -/
structure Whole (ds : List Char) : Prop where
  nonempty : ds ≠ []
  decimal : ∀ c ∈ ds, c.isDigit = true
  head : ds = ['0'] ∨ ds.head? ≠ some '0'

theorem wholeDigits_append (hw : Whole ds) (h : ∀ c, rest.head? = some c → c.isDigit = false) :
    wholeDigits (Text.ofChars ds ++ rest) = (Text.ofChars ds, rest) := by
  rcases hw.head with rfl | hhead
  · simp [wholeDigits]
  · obtain - | ⟨c, cs⟩ := ds
    · exact absurd rfl hw.nonempty
    · have hc : c ≠ '0' := fun h0 => hhead (by rw [h0]; rfl)
      obtain ⟨htake, hdrop⟩ := takeWhile_isDigit hw.decimal h
      unfold wholeDigits
      split
      · next hs => simp_all
      · rw [htake, hdrop]

theorem fraction_append (hf : fs ≠ []) (hd : ∀ c ∈ fs, c.isDigit = true)
    (h : ∀ c, rest.head? = some c → c.isDigit = false) :
    fraction (.scalar '.' :: (Text.ofChars fs ++ rest)) = (Text.ofChars fs, rest) := by
  obtain ⟨htake, hdrop⟩ := takeWhile_isDigit hd h
  simp [fraction, htake, hdrop, hf]

theorem fraction_none (h : rest.head? ≠ some (.scalar '.')) : fraction rest = ([], rest) := by
  unfold fraction
  split
  · simp at h
  · rfl

theorem exponent?_none (h : EndsNumber rest) : exponent? rest = none := by
  have hl := h.lower
  have hu := h.upper
  unfold exponent?
  split <;> simp_all

/-- An exponent is read back. -/
theorem exponent?_exponentText (e : Int) (h : ∀ c, rest.head? = some c → c.isDigit = false) :
    exponent? (.scalar 'e' :: (Binary64.exponentText e ++ rest)) = some (e, rest) := by
  set n := e.natAbs with hn
  set ds := List.replicate (2 - (Nat.toDigits 10 n).length) '0' ++ Nat.toDigits 10 n with hds
  have hdigit : ∀ c ∈ ds, c.isDigit = true := by
    intro c hc
    rcases List.mem_append.mp hc with hz | hc
    · rw [List.eq_of_mem_replicate hz]; rfl
    · exact Nat.isDigit_of_mem_toDigits (by norm_num) (by norm_num) hc
  have hvalue : Text.digitsValue (Text.ofChars ds) = n := by
    rw [Text.digitsValue_ofChars, hds, ofDigitChars_append_zero, ofDigitChars_zeros,
      Nat.ofDigitChars_ten_toDigits, zero_mul, zero_add]
  have hne : ds ≠ [] := by simp [hds, Nat.toDigits_ne_nil]
  have htext : Binary64.exponentText e ++ rest =
      .scalar (if e < 0 then '-' else '+') :: (Text.ofChars ds ++ rest) := by
    unfold Binary64.exponentText Text.padded
    split <;> simp [Text.concat, Text.ofString, hds, hn]
  obtain ⟨htake, hdrop⟩ := takeWhile_isDigit hdigit h
  rw [htext]
  split
  · next hneg =>
    simp only [exponent?, exponentSign, htake, hdrop, hvalue, Text.ofChars_isEmpty,
      List.isEmpty_iff, hne, if_false, if_true]
    congr 2; omega
  · next hpos =>
    simp only [exponent?, exponentSign, htake, hdrop, hvalue, Text.ofChars_isEmpty,
      List.isEmpty_iff, hne, if_false]
    congr 2; simp; omega

/-! ### Numbers -/

theorem number?_int (negative : Bool) (hw : Whole ds) (hlen : ds.length ≤ maxDigits)
    (h : EndsNumber rest) :
    number? negative (Text.ofChars ds ++ rest) =
      .ok (some (.int (if negative then -(Nat.ofDigitChars 10 ds 0 : Int)
        else Nat.ofDigitChars 10 ds 0), rest)) := by
  simp only [number?, wholeDigits_append hw h.digit, fraction_none h.point, exponent?_none h,
    Text.ofChars_isEmpty, List.isEmpty_iff, hw.nonempty, if_false, List.isEmpty_nil, if_true,
    Text.length_ofChars, Nat.not_lt.mpr hlen, Text.digitsValue_ofChars]

theorem number?_fraction (negative : Bool) (fs : List Char) (hw : Whole ds) (hf : fs ≠ [])
    (hd : ∀ c ∈ fs, c.isDigit = true)
    (h : EndsNumber rest) :
    number? negative (Text.ofChars ds ++ .scalar '.' :: (Text.ofChars fs ++ rest)) =
      .ok (some (.float (.ofDecimal negative (Nat.ofDigitChars 10 (ds ++ fs) 0) (-fs.length)),
        rest)) := by
  have hpoint : ∀ c, (CodePoint.scalar '.' :: (Text.ofChars fs ++ rest)).head? = some c →
      c.isDigit = false := by
    rintro c ⟨⟩; rfl
  simp only [number?, wholeDigits_append hw hpoint, fraction_append hf hd h.digit,
    exponent?_none h, Text.ofChars_isEmpty, List.isEmpty_iff, hw.nonempty, hf, if_false,
    Text.length_ofChars, ← Text.ofChars_append, Text.digitsValue_ofChars]

/-- The digits behind the point of a number with an exponent, which may be none. -/
def pointed (fs : List Char) : Text := if fs.isEmpty then [] else Text.ofChars ('.' :: fs)

theorem number?_exponent (negative : Bool) (fs : List Char) (hw : Whole ds)
    (hd : ∀ c ∈ fs, c.isDigit = true) (e : Int)
    (h : EndsNumber rest) :
    number? negative
        (Text.ofChars ds ++ (pointed fs ++ .scalar 'e' :: (Binary64.exponentText e ++ rest))) =
      .ok (some (.float (.ofDecimal negative (Nat.ofDigitChars 10 (ds ++ fs) 0) (e - fs.length)),
        rest)) := by
  set tail : Text := .scalar 'e' :: (Binary64.exponentText e ++ rest) with htail
  have hexponent : exponent? tail = some (e, rest) := exponent?_exponentText e h.digit
  have hdigit : ∀ c, tail.head? = some c → c.isDigit = false := by rintro c ⟨⟩; rfl
  have hfraction : fraction (pointed fs ++ tail) = (Text.ofChars fs, tail) := by
    cases fs with
    | nil => exact fraction_none (by rintro ⟨⟩)
    | cons f fs => exact fraction_append (by simp) hd hdigit
  have hpoint : ∀ c, (pointed fs ++ tail).head? = some c → c.isDigit = false := by
    cases fs with
    | nil => exact hdigit
    | cons f fs => rintro c ⟨⟩; rfl
  simp only [number?, wholeDigits_append hw hpoint, hfraction, hexponent, Text.ofChars_isEmpty,
    List.isEmpty_iff, hw.nonempty, if_false, Text.length_ofChars, ← Text.ofChars_append,
    Text.digitsValue_ofChars]

/-! ### Floating-point numbers -/

theorem whole_zero : Whole ['0'] := ⟨by simp, by simp [Char.isDigit], Or.inl rfl⟩

/-- The start of proper digits is a whole part, whatever zeros follow. -/
theorem whole_of_proper {d : Binary64.Digits} (hd : d.Proper) {n : Nat} (hn : 0 < n) (z : Nat) :
    Whole (d.digits.take n ++ List.replicate z '0') := by
  obtain ⟨c, cs, hcs⟩ := List.exists_cons_of_ne_nil hd.nonempty
  obtain ⟨n, rfl⟩ := Nat.exists_eq_add_of_lt hn
  refine ⟨by simp [hcs], fun a ha => ?_, Or.inr ?_⟩
  · rcases List.mem_append.mp ha with ha | ha
    · exact hd.decimal a (List.mem_of_mem_take ha)
    · rw [List.eq_of_mem_replicate ha]; rfl
  · have := hd.head
    rw [hcs] at this
    simpa [hcs] using this

/-- A text that is read as a number which some digits denote, up to the rest behind it. -/
def ReadAs (negative : Bool) (d : Binary64.Digits) (s rest : Text) : Prop :=
  ∃ (n : Nat) (k : Int), (n : ℚ) * 10 ^ k = d.magnitude ∧
    number? negative s = .ok (some (.float (.ofDecimal negative n k), rest))

section

variable {d : Binary64.Digits}

/-- A zero, the point, zeros and the digits. -/
theorem readAs_behindPoint (hd : d.Proper) (h : EndsNumber rest) (hneg : d.exponent < 0) :
    ReadAs negative d (d.positional ++ rest) rest := by
  set z := (-d.exponent - 1).toNat with hz
  have htext : d.positional ++ rest = Text.ofChars ['0'] ++ .scalar '.' ::
      (Text.ofChars (List.replicate z '0' ++ d.digits) ++ rest) := by
    simp only [Binary64.Digits.positional]
    rw [if_pos hneg, ← hz]
    simp
  have hdecimal : ∀ c ∈ List.replicate z '0' ++ d.digits, c.isDigit = true := by
    intro c hc
    rcases List.mem_append.mp hc with hc | hc
    · rw [List.eq_of_mem_replicate hc]; rfl
    · exact hd.decimal c hc
  refine ⟨_, _, ?_, htext ▸ number?_fraction negative _ whole_zero (by simp [hd.nonempty]) hdecimal h⟩
  rw [← List.append_assoc, ofDigitChars_append_zero, ← List.replicate_one, ← List.replicate_add,
    ofDigitChars_zeros, zero_mul, zero_add, Binary64.Digits.magnitude]
  congr 2
  rw [List.length_append, List.length_replicate]
  omega

/-- The point stands between the digits. -/
theorem readAs_aroundPoint (hd : d.Proper) (h : EndsNumber rest) (hpos : 0 ≤ d.exponent)
    (hgt : d.exponent.toNat + 1 < d.digits.length) :
    ReadAs negative d (d.positional ++ rest) rest := by
  set whole := d.exponent.toNat + 1 with hwhole
  have htext : d.positional ++ rest = Text.ofChars (d.digits.take whole) ++ .scalar '.' ::
      (Text.ofChars (d.digits.drop whole) ++ rest) := by
    simp only [Binary64.Digits.positional]
    rw [if_neg (by omega), ← hwhole, if_neg (by omega)]
    simp
  have hw := whole_of_proper hd (by omega : 0 < whole) 0
  rw [List.replicate_zero, List.append_nil] at hw
  refine ⟨_, _, ?_, htext ▸ number?_fraction negative (d.digits.drop whole) hw (by simp; omega)
    (fun c hc => hd.decimal c (List.mem_of_mem_drop hc)) h⟩
  rw [List.take_append_drop, List.length_drop, Binary64.Digits.magnitude]
  congr 2
  omega

/-- Zeros bring the digits up to the point. -/
theorem readAs_beforePoint (hd : d.Proper) (h : EndsNumber rest) (hpos : 0 ≤ d.exponent)
    (hle : d.digits.length ≤ d.exponent.toNat + 1) :
    ReadAs negative d (d.positional ++ rest) rest := by
  set whole := d.exponent.toNat + 1 with hwhole
  have htext : d.positional ++ rest =
      Text.ofChars (d.digits ++ List.replicate (whole - d.digits.length) '0') ++ .scalar '.' ::
        (Text.ofChars ['0'] ++ rest) := by
    simp only [Binary64.Digits.positional]
    rw [if_neg (by omega), ← hwhole, if_pos hle]
    simp
  have hw := whole_of_proper hd (List.length_pos_of_ne_nil hd.nonempty) (whole - d.digits.length)
  rw [List.take_length] at hw
  refine ⟨_, _, ?_, htext ▸ number?_fraction negative ['0'] hw (by simp) whole_zero.decimal h⟩
  rw [ofDigitChars_append_zero, ofDigitChars_append_zero, ofDigitChars_zeros,
    Binary64.Digits.magnitude,
    show d.exponent + 1 - d.digits.length = ((whole - d.digits.length : Nat) : Int) by omega]
  simp [Nat.ofDigitChars_cons, pow_succ]

/-- Digits with a point in place are read as a number that they denote. -/
theorem readAs_positional (hd : d.Proper) (h : EndsNumber rest) :
    ReadAs negative d (d.positional ++ rest) rest := by
  rcases lt_or_ge d.exponent 0 with hneg | hpos
  · exact readAs_behindPoint hd h hneg
  · rcases Nat.lt_or_ge (d.exponent.toNat + 1) d.digits.length with hgt | hle
    · exact readAs_aroundPoint hd h hpos hgt
    · exact readAs_beforePoint hd h hpos hle

/-- Digits with an exponent are read as a number that they denote. -/
theorem readAs_scientific (hd : d.Proper) (h : EndsNumber rest) :
    ReadAs negative d (d.scientific ++ rest) rest := by
  have hw := whole_of_proper hd Nat.one_pos 0
  rw [List.replicate_zero, List.append_nil] at hw
  have htext : d.scientific ++ rest = Text.ofChars (d.digits.take 1) ++ (pointed (d.digits.drop 1) ++
      .scalar 'e' :: (Binary64.exponentText d.exponent ++ rest)) := by
    simp [Binary64.Digits.scientific, Text.concat, pointed, Text.ofString]
  refine ⟨_, _, ?_, htext ▸ number?_exponent negative (d.digits.drop 1) hw
    (fun c hc => hd.decimal c (List.mem_of_mem_drop hc)) d.exponent h⟩
  have hlen : 0 < d.digits.length := List.length_pos_of_ne_nil hd.nonempty
  rw [List.take_append_drop, Binary64.Digits.magnitude, List.length_drop]
  congr 2
  omega

theorem readAs_text (hd : d.Proper) (h : EndsNumber rest) :
    ReadAs negative d (d.text ++ rest) rest := by
  unfold Binary64.Digits.text
  split
  · exact readAs_positional hd h
  · exact readAs_scientific hd h

end

/-- A finite number is read back from its text without the sign. -/
theorem number?_magnitude (negative : Bool) {m : Nat} {e : Int} (fits : FitsBinary64 m e)
    (h : EndsNumber rest) :
    number? negative ((if m = 0 then ("0.0" : Text) else (Binary64.shortest m e).text) ++ rest) =
      .ok (some (.float (.finite negative m e fits), rest)) := by
  split
  · next hm =>
    obtain rfl : e = -1074 := by have := fits.normal_or_least; omega
    subst hm
    exact number?_fraction negative ['0'] whole_zero (by simp) whole_zero.decimal h
  · next hm =>
    obtain ⟨c, g, hs, hc, hreach⟩ := Binary64.shortest_reaches fits (Nat.pos_of_ne_zero hm)
    have hd := Binary64.Digits.ofScaled_proper hc g
    rw [← Binary64.Digits.ofScaled_magnitude] at hreach
    rw [hs]
    obtain ⟨n, k, hk, hread⟩ := readAs_text hd h
    rw [hread, Binary64.ofDecimal_eq_finite fits (Nat.pos_of_ne_zero hm) hreach hk]

end Json

end LabelBook
