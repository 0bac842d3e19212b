import LabelBook.Proofs.Number.Shortest

/-!
Digits and the decimals they denote. Taking the zeros off the end of a number's digits changes the
exponent of the first digit and not the decimal, and a decimal within reach of a binary64 number is
rounded to that number, whatever digits and exponent spell it.
-/

namespace LabelBook

theorem Text.digitsValue_ofChars (ds : List Char) :
    digitsValue (ofChars ds) = Nat.ofDigitChars 10 ds 0 := by
  simp [digitsValue, ofChars, Nat.ofDigitChars_eq_foldl, List.foldl_map, CodePoint.toNat, mul_comm]

/-- Digits denote a number with no more digits than there are. -/
theorem Text.digitsValue_lt {t : Text} (h : ∀ c ∈ t, c.isDigit = true) :
    digitsValue t < 10 ^ t.length := by
  induction t using List.reverseRecOn with
  | nil => decide
  | append_singleton t c ih =>
    have hc : c.toNat - 0x30 ≤ 9 := by
      have hdigit := h c (by simp)
      cases c with
      | lone n => cases hdigit
      | scalar c =>
        simp only [CodePoint.isDigit, Char.isDigit, Bool.and_eq_true, decide_eq_true_eq, ge_iff_le,
          UInt32.le_iff_toNat_le] at hdigit
        have : c.toNat ≤ 57 := hdigit.2
        simp only [CodePoint.toNat]
        omega
    have hvalue : digitsValue (t ++ [c]) = digitsValue t * 10 + (c.toNat - 0x30) := by
      rw [digitsValue, List.foldl_append]
      rfl
    have hlt := ih fun d hd => h d (List.mem_append_left _ hd)
    rw [hvalue, List.length_append, List.length_singleton, pow_succ]
    omega

theorem digitCount_digitsValue {t : Text} (h : ∀ c ∈ t, c.isDigit = true) (ht : t ≠ []) :
    digitCount (Text.digitsValue t) ≤ t.length :=
  (Nat.length_toDigits_le_iff (by norm_num) (List.length_pos_iff.mpr ht)).mpr (Text.digitsValue_lt h)

theorem ofDigitChars_append_zero (as bs : List Char) :
    Nat.ofDigitChars 10 (as ++ bs) 0 =
      Nat.ofDigitChars 10 as 0 * 10 ^ bs.length + Nat.ofDigitChars 10 bs 0 := by
  rw [Nat.ofDigitChars_append, Nat.ofDigitChars_eq_ofDigitChars_zero, mul_comm]

theorem ofDigitChars_zeros (n : Nat) : Nat.ofDigitChars 10 (List.replicate n '0') 0 = 0 := by
  rw [Nat.ofDigitChars_replicate_zero, mul_zero]

/-- The digits of a positive number do not start with a zero. -/
theorem toDigits_head {n : Nat} (hn : 0 < n) : (Nat.toDigits 10 n).head? ≠ some '0' := by
  induction n using Nat.strongRecOn with
  | ind n ih =>
    rcases Nat.lt_or_ge n 10 with h | h
    · rw [Nat.toDigits_of_lt_base h]
      interval_cases n <;> decide
    · have hdiv : 0 < n / 10 := Nat.div_pos h (by norm_num)
      rw [Nat.toDigits_of_base_le (by norm_num) h,
        List.head?_append_of_ne_nil _ Nat.toDigits_ne_nil]
      exact ih _ (Nat.div_lt_self hn (by norm_num)) hdiv

namespace Binary64

variable {m : Nat} {e : Int}

/-! ### Digits -/

/-- Digits as a number has them: there is one, and the first of them is no zero. -/
structure Digits.Proper (d : Digits) : Prop where
  nonempty : d.digits ≠ []
  decimal : ∀ c ∈ d.digits, c.isDigit = true
  head : d.digits.head? ≠ some '0'

/-- The decimal that digits denote. -/
def Digits.magnitude (d : Digits) : ℚ :=
  Nat.ofDigitChars 10 d.digits 0 * 10 ^ (d.exponent + 1 - d.digits.length)

/-- The digits of a scaled number are those of the number up to zeros at their end. -/
theorem Digits.ofScaled_zeros (c : Nat) (g : Int) : ∃ z : Nat,
    Nat.toDigits 10 c = (ofScaled c g).digits ++ List.replicate z '0' ∧
      (ofScaled c g).exponent = g + (ofScaled c g).digits.length + z - 1 := by
  set ds := Nat.toDigits 10 c with hds
  have hzeros : ds.reverse.takeWhile (· == '0') =
      List.replicate (ds.reverse.takeWhile (· == '0')).length '0' :=
    List.eq_replicate_of_mem fun a ha => by simpa using List.mem_takeWhile_imp ha
  have hsplit : ds = (ofScaled c g).digits ++
      List.replicate (ds.reverse.takeWhile (· == '0')).length '0' := by
    have h := congrArg List.reverse (List.takeWhile_append_dropWhile (p := (· == '0')) (l := ds.reverse))
    rw [List.reverse_append, List.reverse_reverse, hzeros, List.reverse_replicate] at h
    exact h.symm
  refine ⟨_, hsplit, ?_⟩
  have hlength := congrArg List.length hsplit
  rw [List.length_append, List.length_replicate] at hlength
  rw [show (ofScaled c g).exponent = g + ds.length - 1 from rfl]
  omega

theorem Digits.ofScaled_proper {c : Nat} (hc : 0 < c) (g : Int) : (ofScaled c g).Proper := by
  obtain ⟨z, hz, -⟩ := ofScaled_zeros c g
  have hhead := toDigits_head hc
  have hne : (ofScaled c g).digits ≠ [] := by
    intro h
    rw [hz, h, List.nil_append] at hhead
    cases z with
    | zero => exact Nat.toDigits_ne_nil (by rw [hz, h]; rfl)
    | succ z => simp [List.replicate_succ] at hhead
  refine ⟨hne, fun d hd => ?_, ?_⟩
  · have hmem : d ∈ Nat.toDigits 10 c := by rw [hz]; exact List.mem_append_left _ hd
    exact Nat.isDigit_of_mem_toDigits (by norm_num) (by norm_num) hmem
  · rwa [hz, List.head?_append_of_ne_nil _ hne] at hhead

theorem Digits.ofScaled_magnitude (c : Nat) (g : Int) : (ofScaled c g).magnitude = c * 10 ^ g := by
  obtain ⟨z, hz, he⟩ := ofScaled_zeros c g
  have hvalue : c = Nat.ofDigitChars 10 (ofScaled c g).digits 0 * 10 ^ z := by
    have h := ofDigitChars_append_zero (ofScaled c g).digits (List.replicate z '0')
    rwa [← hz, Nat.ofDigitChars_ten_toDigits, ofDigitChars_zeros, List.length_replicate,
      add_zero] at h
  rw [magnitude, he, show g + (ofScaled c g).digits.length + z - 1 + 1 - (ofScaled c g).digits.length =
    z + g by ring, zpow_add₀ (by norm_num), zpow_natCast, ← mul_assoc]
  congr 1
  exact_mod_cast hvalue.symm

/-! ### Rounding a decimal -/

/-- No decimal within reach of a binary64 number is as large as 10^309. -/
theorem Reaches.lt_large {x : ℚ} (h : Reaches m e x) (fits : FitsBinary64 m e) :
    x < 10 ^ (309 : Int) := by
  have hm : (m : ℚ) + 1 ≤ 2 ^ 53 := by exact_mod_cast fits.lt
  have hp : (0 : ℚ) < 2 ^ e := zpow_pos (by norm_num) e
  have he : (2 : ℚ) ^ e ≤ 2 ^ (971 : Int) := zpow_le_zpow_right₀ (by norm_num) fits.2.2.1
  calc x ≤ m * 2 ^ e + 2 ^ e / 2 := h.upper
    _ ≤ 2 ^ 53 * 2 ^ e := by nlinarith
    _ ≤ 2 ^ 53 * 2 ^ (971 : Int) := by linarith
    _ < 10 ^ (309 : Int) := by
        have h₀ : 2 ^ 53 * 2 ^ 971 < 10 ^ 309 := by decide +kernel
        exact_mod_cast h₀

/-- No decimal within reach of a positive binary64 number is as small as 10^-324. -/
theorem Reaches.small_lt {x : ℚ} (h : Reaches m e x) (hm : 0 < m) (fits : FitsBinary64 m e) :
    10 ^ (-325 : Int) < x := by
  have hm' : (1 : ℚ) ≤ m := by exact_mod_cast hm
  have hp : (0 : ℚ) < 2 ^ e := zpow_pos (by norm_num) e
  have he : (2 : ℚ) ^ (-1074 : Int) ≤ 2 ^ e := zpow_le_zpow_right₀ (by norm_num) fits.2.1
  have hlow := stepBelow_le m e
  calc (10 : ℚ) ^ (-325 : Int) < 2 ^ (-1074 : Int) / 2 := by
        have h₀ : 2 ^ 1074 * 2 < 10 ^ 325 := by decide +kernel
        have h₁ : (2 : ℚ) ^ 1074 * 2 < 10 ^ 325 := by exact_mod_cast h₀
        rw [zpow_neg, zpow_neg, div_eq_mul_inv, ← mul_inv]
        exact inv_strictAnti₀ (by positivity) h₁
    _ ≤ 2 ^ e / 2 := by linarith
    _ ≤ m * 2 ^ e - stepBelow m e := by nlinarith
    _ ≤ x := h.lower

/-- A decimal within reach of a positive number is rounded to it. -/
theorem ofDecimal_eq_finite {negative : Bool} {digits : Nat} {exponent : Int} {x : ℚ}
    (fits : FitsBinary64 m e) (hm : 0 < m) (h : Reaches m e x)
    (hx : (digits : ℚ) * 10 ^ exponent = x) :
    ofDecimal negative digits exponent = finite negative m e fits := by
  have hten : (0 : ℚ) < 10 ^ exponent := zpow_pos (by norm_num) exponent
  have hdigits : digits ≠ 0 := by
    rintro rfl
    have := h.pos hm
    rw [← hx] at this
    simp at this
  have hcount : 0 < digitCount digits := Nat.length_toDigits_pos
  have hlarge : ¬ 310 < (digitCount digits : Int) + exponent := by
    intro hgt
    have hle : (10 : ℚ) ^ (digitCount digits - 1) ≤ digits := by
      exact_mod_cast pow_digitCount_le (Nat.pos_of_ne_zero hdigits)
    have : (10 : ℚ) ^ (309 : Int) ≤ x := by
      calc (10 : ℚ) ^ (309 : Int) ≤ 10 ^ (((digitCount digits - 1 : Nat) : Int) + exponent) :=
            zpow_le_zpow_right₀ (by norm_num) (by omega)
        _ = 10 ^ (digitCount digits - 1) * 10 ^ exponent := by
            rw [zpow_add₀ (by norm_num), zpow_natCast]
        _ ≤ digits * 10 ^ exponent := by gcongr
        _ = x := hx
    linarith [h.lt_large fits]
  have hsmall : ¬ (digitCount digits : Int) + exponent < -330 := by
    intro hlt
    have hle : (digits : ℚ) ≤ 10 ^ digitCount digits := by
      exact_mod_cast (lt_pow_digitCount digits).le
    have : x ≤ (10 : ℚ) ^ (-325 : Int) := by
      calc x = digits * 10 ^ exponent := hx.symm
        _ ≤ 10 ^ digitCount digits * 10 ^ exponent := by gcongr
        _ = 10 ^ ((digitCount digits : Int) + exponent) := by
            rw [zpow_add₀ (by norm_num), zpow_natCast]
        _ ≤ 10 ^ (-325 : Int) := zpow_le_zpow_right₀ (by norm_num) (by omega)
    linarith [h.small_lt hm fits]
  rw [ofDecimal, if_neg hdigits, if_neg hlarge, if_neg hsmall]
  apply ofRatio_eq_finite fits hm (scaleDown_den_pos _ _ (by norm_num) (by norm_num))
  have hq := quotient_scaleDown digits 1 (-exponent) (by norm_num : 0 < 10)
  rw [quotient] at hq
  rw [hq]
  push_cast
  rwa [zpow_neg, div_inv_eq_mul, div_one, hx]

end Binary64

end LabelBook
