import LabelBook.Number.Binary64
import Mathlib

/-!
Rounding a quotient to a binary64 number. Quotients are read as rationals, so that a quotient scaled
by a power of a base is the product with that power whichever side of the fraction took it. The main
statement is `ofRatio_eq_finite`: a rational within reach of a finite number, that is, no further from
it than half the way to its neighbours, is rounded to that number.
-/

namespace LabelBook

theorem FitsBinary64.lt {m : Nat} {e : Int} (fits : FitsBinary64 m e) : m < 2 ^ 53 := fits.1

theorem FitsBinary64.normal_or_least {m : Nat} {e : Int} (fits : FitsBinary64 m e) :
    2 ^ 52 ≤ m ∨ e = -1074 := fits.2.2.2

/-- What `num / den` means. -/
def quotient (s : Nat × Nat) : ℚ := s.1 / s.2

/-! ### Scaling -/

theorem scaleDown_den_pos {base den : Nat} (num : Nat) (e : Int) (hb : 0 < base) (hd : 0 < den) :
    0 < (scaleDown base num den e).2 := by
  unfold scaleDown
  split
  · exact Nat.mul_pos hd (Nat.pow_pos hb)
  · exact hd

theorem quotient_scaleDown {base : Nat} (num den : Nat) (e : Int) (hb : 0 < base) :
    quotient (scaleDown base num den e) = num / den / (base : ℚ) ^ e := by
  have hb' : (base : ℚ) ≠ 0 := by exact_mod_cast hb.ne'
  unfold scaleDown quotient
  split
  · next h =>
    obtain ⟨n, rfl⟩ := Int.eq_ofNat_of_zero_le h
    simp [div_div]
  · next h =>
    obtain ⟨n, hn⟩ := Int.eq_ofNat_of_zero_le (by omega : 0 ≤ -e)
    obtain rfl : e = -(n : Int) := by omega
    simp [zpow_neg, div_eq_mul_inv, mul_right_comm]

/-- One quotient is at most another when the cross products are. -/
theorem one_le_quotient {s : Nat × Nat} (h : 0 < s.2) : s.2 ≤ s.1 ↔ 1 ≤ quotient s := by
  have hd : (0 : ℚ) < s.2 := by exact_mod_cast h
  rw [quotient, le_div_iff₀ hd, one_mul, Nat.cast_le]

/-! ### Logarithms -/

/-- The logarithm is exact if the guess is the right one or one more. -/
theorem floorLog_spec {base num den : Nat} {upper : Int} (hb : 1 < base) (hd : 0 < den)
    (lo : (base : ℚ) ^ (upper - 1) ≤ num / den) (hi : (num : ℚ) / den < (base : ℚ) ^ (upper + 1)) :
    (base : ℚ) ^ floorLog base num den upper ≤ num / den ∧
      (num : ℚ) / den < (base : ℚ) ^ (floorLog base num den upper + 1) := by
  have hpos : (0 : ℚ) < (base : ℚ) ^ upper := zpow_pos (by exact_mod_cast (by omega : 0 < base)) _
  have hs := one_le_quotient (scaleDown_den_pos num upper (by omega : 0 < base) hd)
  rw [quotient_scaleDown num den upper (by omega), le_div_iff₀ hpos, one_mul] at hs
  rw [show floorLog base num den upper = if (scaleDown base num den upper).2 ≤
    (scaleDown base num den upper).1 then upper else upper - 1 from rfl]
  split
  · next h => exact ⟨hs.mp h, hi⟩
  · next h =>
    refine ⟨lo, ?_⟩
    rw [sub_add_cancel]
    exact lt_of_not_ge fun h' => h (hs.mpr h')

/-- The logarithm of a quotient of numbers between powers of the base. -/
theorem floorLog_bounds {base num den a b : Nat} (hb : 1 < base) (hd : 0 < den)
    (ha₁ : base ^ a ≤ num) (ha₂ : num < base ^ (a + 1)) (hb₁ : base ^ b ≤ den)
    (hb₂ : den < base ^ (b + 1)) :
    (base : ℚ) ^ floorLog base num den ((a : Int) - b) ≤ num / den ∧
      (num : ℚ) / den < (base : ℚ) ^ (floorLog base num den ((a : Int) - b) + 1) := by
  have hB : (0 : ℚ) < base := by exact_mod_cast (by omega : 0 < base)
  have hD : (0 : ℚ) < den := by exact_mod_cast hd
  have ha₁' : (base : ℚ) ^ (a : Int) ≤ num := by rw [zpow_natCast]; exact_mod_cast ha₁
  have ha₂' : (num : ℚ) < (base : ℚ) ^ ((a : Int) + 1) := by exact_mod_cast ha₂
  have hb₁' : (base : ℚ) ^ (b : Int) ≤ den := by rw [zpow_natCast]; exact_mod_cast hb₁
  have hb₂' : (den : ℚ) < (base : ℚ) ^ ((b : Int) + 1) := by exact_mod_cast hb₂
  apply floorLog_spec hb hd
  · rw [le_div_iff₀ hD]
    calc (base : ℚ) ^ ((a : Int) - b - 1) * den
        ≤ (base : ℚ) ^ ((a : Int) - b - 1) * (base : ℚ) ^ ((b : Int) + 1) := by gcongr
      _ = (base : ℚ) ^ (a : Int) := by rw [← zpow_add₀ hB.ne']; congr 1; omega
      _ ≤ num := ha₁'
  · rw [div_lt_iff₀ hD]
    calc (num : ℚ) < (base : ℚ) ^ ((a : Int) + 1) := ha₂'
      _ = (base : ℚ) ^ ((a : Int) - b + 1) * (base : ℚ) ^ (b : Int) := by
        rw [← zpow_add₀ hB.ne']; congr 1; omega
      _ ≤ (base : ℚ) ^ ((a : Int) - b + 1) * den := by gcongr

/-- A rational lies between consecutive powers of a base in one place only. -/
theorem zpow_place_unique {base : ℚ} {x : ℚ} {k l : Int} (hb : 1 < base) (hk₁ : base ^ k ≤ x)
    (hk₂ : x < base ^ (k + 1)) (hl₁ : base ^ l ≤ x) (hl₂ : x < base ^ (l + 1)) : k = l := by
  have h₁ : k < l + 1 := (zpow_lt_zpow_iff_right₀ hb).mp (lt_of_le_of_lt hk₁ hl₂)
  have h₂ : l < k + 1 := (zpow_lt_zpow_iff_right₀ hb).mp (lt_of_le_of_lt hl₁ hk₂)
  omega

/-! ### Nearest natural numbers -/

/-- A natural number no further than one half from a quotient, and even if just that far, is what the
quotient is rounded to. -/
theorem roundHalfEven_eq {num den m : Nat} (hd : 0 < den) (lo : 2 * m * den ≤ 2 * num + den)
    (hi : 2 * num ≤ 2 * m * den + den)
    (tie : 2 * num = 2 * m * den + den ∨ 2 * m * den = 2 * num + den → m % 2 = 0) :
    roundHalfEven num den = m := by
  have hnum : den * (num / den) + num % den = num := Nat.div_add_mod num den
  have hlt : num % den < den := Nat.mod_lt _ hd
  set q := num / den with hq
  set r := num % den with hr
  -- the quotient is the number itself or one less
  have hm : m = q ∨ m = q + 1 := by
    have h₁ : q ≤ m := by
      by_contra h
      have : den * (m + 1) ≤ den * q := Nat.mul_le_mul_left _ (by omega)
      have hmd : 2 * m * den = 2 * (den * m) := by ring
      have : den * (m + 1) = den * m + den := by ring
      omega
    have h₂ : m ≤ q + 1 := by
      by_contra h
      have : den * (q + 2) ≤ den * m := Nat.mul_le_mul_left _ (by omega)
      have hmd : 2 * m * den = 2 * (den * m) := by ring
      have : den * (q + 2) = den * q + 2 * den := by ring
      omega
    omega
  unfold roundHalfEven
  simp only [← hq, ← hr]
  rcases hm with hm | hm <;> rw [hm] at lo hi tie ⊢
  · have hmd : 2 * q * den = 2 * (den * q) := by ring
    split
    · rfl
    · split
      · omega
      · have := tie (Or.inl (by omega)); omega
  · have hmd : 2 * (q + 1) * den = 2 * (den * q) + 2 * den := by ring
    split
    · omega
    · split
      · rfl
      · have := tie (Or.inr (by omega)); omega

/-- The same about the rational. -/
theorem roundHalfEven_of_quotient {s : Nat × Nat} {m : Nat} (hd : 0 < s.2)
    (lo : (m : ℚ) - 1 / 2 ≤ quotient s) (hi : quotient s ≤ m + 1 / 2)
    (tie : quotient s = m + 1 / 2 ∨ quotient s = m - 1 / 2 → m % 2 = 0) :
    roundHalfEven s.1 s.2 = m := by
  have hD : (0 : ℚ) < s.2 := by exact_mod_cast hd
  have hq : (s.1 : ℚ) = quotient s * s.2 := by rw [quotient, div_mul_cancel₀ _ hD.ne']
  apply roundHalfEven_eq hd
  · have : (2 * m * s.2 : ℚ) ≤ 2 * s.1 + s.2 := by rw [hq]; nlinarith
    exact_mod_cast this
  · have : (2 * s.1 : ℚ) ≤ 2 * m * s.2 + s.2 := by rw [hq]; nlinarith
    exact_mod_cast this
  · intro h
    apply tie
    rcases h with h | h
    · left
      have h' : (2 * s.1 : ℚ) = 2 * m * s.2 + s.2 := by exact_mod_cast h
      rw [quotient, div_eq_iff hD.ne']; linarith
    · right
      have h' : (2 * m * s.2 : ℚ) = 2 * s.1 + s.2 := by exact_mod_cast h
      rw [quotient, div_eq_iff hD.ne']; linarith

namespace Binary64

/-! ### Nearest binary64 numbers -/

/-- How far below m · 2^e a rational may lie to be rounded to it; the neighbour below a power of two is
only half as far away as the one above. -/
def stepBelow (m : Nat) (e : Int) : ℚ := if m = 2 ^ 52 ∧ -1074 < e then 2 ^ e / 4 else 2 ^ e / 2

/-- The rationals that are rounded to m · 2^e; those halfway to a neighbour only if m is even. -/
structure Reaches (m : Nat) (e : Int) (x : ℚ) : Prop where
  lower : m * 2 ^ e - stepBelow m e ≤ x
  upper : x ≤ m * 2 ^ e + 2 ^ e / 2
  lower_tie : x = m * 2 ^ e - stepBelow m e → m % 2 = 0
  upper_tie : x = m * 2 ^ e + 2 ^ e / 2 → m % 2 = 0

theorem stepBelow_le (m : Nat) (e : Int) : stepBelow m e ≤ 2 ^ e / 2 := by
  have : (0 : ℚ) < 2 ^ e := zpow_pos (by norm_num) e
  unfold stepBelow
  split <;> linarith

theorem Reaches.pos {m : Nat} {e : Int} {x : ℚ} (h : Reaches m e x) (hm : 0 < m) : 0 < x := by
  have hp : (0 : ℚ) < 2 ^ e := zpow_pos (by norm_num) e
  have h₁ : (1 : ℚ) ≤ m := by exact_mod_cast hm
  have := h.lower
  have := stepBelow_le m e
  nlinarith

/-- The logarithm that rounding starts with is exact. -/
theorem floorLog_two_spec {num den : Nat} (hn : num ≠ 0) (hd : den ≠ 0) :
    (2 : ℚ) ^ floorLog 2 num den ((num.log2 : Int) - den.log2) ≤ num / den ∧
      (num : ℚ) / den < 2 ^ (floorLog 2 num den ((num.log2 : Int) - den.log2) + 1) :=
  floorLog_bounds (by norm_num) (Nat.pos_of_ne_zero hd) (Nat.log2_self_le hn) Nat.lt_log2_self
    (Nat.log2_self_le hd) Nat.lt_log2_self

/-- Rounding, given the logarithm and the significand that it meets. -/
theorem ofRatio_of_round {negative : Bool} {num den m : Nat} {k e : Int} (hn : num ≠ 0)
    (hd : den ≠ 0) (hk₁ : (2 : ℚ) ^ k ≤ num / den) (hk₂ : (num : ℚ) / den < 2 ^ (k + 1))
    (he : max (k - 52) (-1074) = e)
    (hm : roundHalfEven (scaleDown 2 num den e).1 (scaleDown 2 num den e).2 = m) :
    ofRatio negative num den =
      if m = 2 ^ 53 then
        if fits : FitsBinary64 (2 ^ 52) (e + 1) then finite negative (2 ^ 52) (e + 1) fits
        else infinite negative
      else if fits : FitsBinary64 m e then finite negative m e fits else infinite negative := by
  have hlog := floorLog_two_spec hn hd
  have hkk : floorLog 2 num den ((num.log2 : Int) - den.log2) = k :=
    zpow_place_unique (by norm_num) hlog.1 hlog.2 hk₁ hk₂
  rw [ofRatio, if_neg (by simp [hn, hd])]
  simp only [hkk, he, hm]
  by_cases h : m = 2 ^ 53
  · simp only [h, Nat.pow_eq, if_true]
  · simp only [h, Nat.pow_eq, if_false]

theorem two_zpow (k e : Int) (n : Nat) (h : k = e + n) : (2 : ℚ) ^ k = 2 ^ n * 2 ^ e := by
  rw [h, zpow_add₀ (by norm_num), zpow_natCast, mul_comm]

section

variable {negative : Bool} {num den m : Nat} {e : Int}

/-- With the exponent of the number itself, rounding meets its significand, unless the rational lies
just below a power of two. -/
theorem roundHalfEven_of_reaches (hd : 0 < den) (h : Reaches m e (num / den))
    (hlow : stepBelow m e = 2 ^ e / 2 ∨ (m : ℚ) * 2 ^ e ≤ num / den) :
    roundHalfEven (scaleDown 2 num den e).1 (scaleDown 2 num den e).2 = m := by
  have hp : (0 : ℚ) < 2 ^ e := zpow_pos (by norm_num) e
  have hq := quotient_scaleDown num den e (by norm_num : 0 < 2)
  push_cast at hq
  have upper := h.upper
  apply roundHalfEven_of_quotient (scaleDown_den_pos _ _ (by norm_num) hd)
  · rw [hq, le_div_iff₀ hp]
    rcases hlow with hlow | hlow
    · have lower := h.lower
      rw [hlow] at lower; linarith
    · linarith
  · rw [hq, div_le_iff₀ hp]; linarith
  · rw [hq, div_eq_iff hp.ne', div_eq_iff hp.ne']
    rintro (ht | ht)
    · exact h.upper_tie (by linarith)
    · rcases hlow with hlow | hlow
      · exact h.lower_tie (by rw [hlow]; linarith)
      · exfalso; linarith

/-- A rational that is rounded with the exponent of the number itself. -/
theorem ofRatio_of_exponent {k : Int} (fits : FitsBinary64 m e) (hn : num ≠ 0) (hd : 0 < den)
    (h : Reaches m e (num / den)) (hk₁ : (2 : ℚ) ^ k ≤ num / den)
    (hk₂ : (num : ℚ) / den < 2 ^ (k + 1)) (he : max (k - 52) (-1074) = e)
    (hlow : stepBelow m e = 2 ^ e / 2 ∨ (m : ℚ) * 2 ^ e ≤ num / den) :
    ofRatio negative num den = finite negative m e fits := by
  rw [ofRatio_of_round hn hd.ne' hk₁ hk₂ he (roundHalfEven_of_reaches hd h hlow),
    if_neg (by have := fits.lt; omega), dif_pos fits]

/-- A rational just below a power of two is rounded with the next smaller exponent, up to that power. -/
theorem ofRatio_below_power (fits : FitsBinary64 (2 ^ 52) e) (hd : 0 < den) (hmin : -1074 < e)
    (lower : ((2 ^ 52 : ℚ) - 1 / 4) * 2 ^ e ≤ num / den) (upper : (num : ℚ) / den < 2 ^ 52 * 2 ^ e) :
    ofRatio negative num den = finite negative (2 ^ 52) e fits := by
  have hp : (0 : ℚ) < 2 ^ e := zpow_pos (by norm_num) e
  have hn : num ≠ 0 := by rintro rfl; norm_num at lower; linarith
  have hp' : (2 : ℚ) ^ (e - 1) = 2 ^ e / 2 := by rw [zpow_sub₀ (by norm_num), zpow_one]
  have hround : roundHalfEven (scaleDown 2 num den (e - 1)).1 (scaleDown 2 num den (e - 1)).2 =
      2 ^ 53 := by
    have hq := quotient_scaleDown num den (e - 1) (by norm_num : 0 < 2)
    push_cast at hq
    rw [hp'] at hq
    apply roundHalfEven_of_quotient (scaleDown_den_pos _ _ (by norm_num) hd)
    · rw [hq, le_div_iff₀ (by linarith)]; push_cast; linarith
    · rw [hq, div_le_iff₀ (by linarith)]; push_cast; linarith
    · intro; decide
  rw [ofRatio_of_round (k := e + 51) hn hd.ne' (by rw [two_zpow (e + 51) e 51 (by norm_num)]; linarith)
    (by rw [two_zpow (e + 51 + 1) e 52 (by push_cast; ring)]; exact upper) (e := e - 1) (by omega)
    hround, if_pos rfl]
  simp only [sub_add_cancel]
  rw [dif_pos fits]

/-- A rational within reach of a finite number is rounded to it. -/
theorem ofRatio_eq_finite (fits : FitsBinary64 m e) (hm : 0 < m) (hd : 0 < den)
    (h : Reaches m e (num / den)) : ofRatio negative num den = finite negative m e fits := by
  have hx := h.pos hm
  have hn : num ≠ 0 := by rintro rfl; simp at hx
  have hp : (0 : ℚ) < 2 ^ e := zpow_pos (by norm_num) e
  have hm53 : (m : ℚ) + 1 ≤ 2 ^ 53 := by exact_mod_cast fits.lt
  have lower := h.lower
  have upper := h.upper
  have hbelow := stepBelow_le m e
  have hlt : (num : ℚ) / den < 2 ^ 53 * 2 ^ e := by nlinarith
  have hmin := fits.2.1
  rcases fits.normal_or_least with hnormal | hsub
  · have hm52 : (2 : ℚ) ^ 52 ≤ m := by exact_mod_cast hnormal
    rcases le_or_gt ((2 : ℚ) ^ 52 * 2 ^ e) ((num : ℚ) / den) with hge | hless
    · -- the rational lies between the same powers of two as the number
      apply ofRatio_of_exponent (k := e + 52) fits hn hd h
        (by rw [two_zpow (e + 52) e 52 (by norm_num)]; exact hge)
        (by rw [two_zpow (e + 52 + 1) e 53 (by push_cast; ring)]; exact hlt) (by omega)
      by_cases hpow : m = 2 ^ 52 ∧ -1074 < e
      · right; rw [hpow.1]; push_cast; exact hge
      · left; rw [stepBelow, if_neg hpow]
    · -- it lies just below a power of two, and the number is that power
      obtain rfl : m = 2 ^ 52 := by
        by_contra hne
        have : (2 : ℚ) ^ 52 + 1 ≤ m := by exact_mod_cast (by omega : 2 ^ 52 + 1 ≤ m)
        nlinarith
      push_cast at lower
      by_cases hmin' : -1074 < e
      · rw [stepBelow, if_pos ⟨rfl, hmin'⟩] at lower
        exact ofRatio_below_power fits hd hmin' (by linarith) hless
      · exact ofRatio_of_exponent (k := e + 51) fits hn hd h
          (by rw [two_zpow (e + 51) e 51 (by norm_num)]; linarith)
          (by rw [two_zpow (e + 51 + 1) e 52 (by push_cast; ring)]; exact hless) (by omega)
          (Or.inl (by rw [stepBelow, if_neg (by simp [hmin'])]))
  · -- the least exponent: that of the rational cannot be less
    have hlog := floorLog_two_spec hn hd.ne'
    set k := floorLog 2 num den ((num.log2 : Int) - den.log2)
    have hk : k < e + 53 := by
      apply (zpow_lt_zpow_iff_right₀ (by norm_num : (1 : ℚ) < 2)).mp
      rw [two_zpow (e + 53) e 53 (by norm_num)]
      exact lt_of_le_of_lt hlog.1 hlt
    exact ofRatio_of_exponent fits hn hd h hlog.1 hlog.2 (by omega)
      (Or.inl (by rw [stepBelow, if_neg (by simp [hsub])]))

end

end Binary64

end LabelBook
