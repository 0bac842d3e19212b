import LabelBook.Number.Shortest
import LabelBook.Proofs.Number.Rounding

/-!
The shortest digits of a binary64 number denote a decimal that is rounded back to the number. A grid
point that the search accepts is within reach of the number; eighteen grids are tried, and the last of
them is so fine that its point nearest to the number is within reach.
-/

namespace LabelBook

namespace Binary64

variable {m : Nat} {e : Int}

/-! ### The interval -/

/-- One unit in the last place, over the denominator of the number. -/
theorem unit_eq (m : Nat) (e : Int) :
    (((if 0 ≤ e then Nat.pow 2 e.toNat else 1 : Nat) : ℕ) : ℚ) = 2 ^ e * (ratio m e).2 ∧
      (ratio m e).1 = m * (if 0 ≤ e then Nat.pow 2 e.toNat else 1) := by
  unfold ratio scaleDown
  rcases lt_trichotomy e 0 with h | rfl | h
  · obtain ⟨n, hn⟩ := Int.eq_ofNat_of_zero_le (by omega : 0 ≤ -e)
    obtain rfl : e = -(n : Int) := by omega
    rw [if_neg (by omega), if_pos (by omega)]
    simp [zpow_neg]
  · simp
  · obtain ⟨n, rfl⟩ := Int.eq_ofNat_of_zero_le h.le
    rw [if_pos (by omega), if_neg (by omega)]
    simp

theorem ratio_den_pos (m : Nat) (e : Int) : 0 < (ratio m e).2 :=
  scaleDown_den_pos _ _ (by norm_num) (by norm_num)

/-- A decimal on the grid 10^g and the side of the comparison that holds it. -/
theorem holds_scale (c den : Nat) (g : Int) :
    ((if 0 ≤ g then c * Nat.pow 10 g.toNat * den else c * den : Nat) : ℚ) =
      c * 10 ^ g * den * (if 0 ≤ g then 1 else Nat.pow 10 (-g).toNat : Nat) := by
  split
  · next h =>
    obtain ⟨n, rfl⟩ := Int.eq_ofNat_of_zero_le h
    simp
  · next h =>
    obtain ⟨n, hn⟩ := Int.eq_ofNat_of_zero_le (by omega : 0 ≤ -g)
    obtain rfl : g = -(n : Int) := by omega
    simp [zpow_neg]
    field_simp

/-- The parts of the interval, as multiples of the number and of its unit. -/
structure IntervalSpec (i : Interval) (m : Nat) (e : Int) : Prop where
  den_pos : 0 < i.den
  value : (i.value : ℚ) = m * 2 ^ e * i.den
  lower : (i.lower : ℚ) = (m * 2 ^ e - stepBelow m e) * i.den
  upper : (i.upper : ℚ) = (m * 2 ^ e + 2 ^ e / 2) * i.den
  closed : i.closed = decide (m % 2 = 0)

theorem interval_spec (hm : 0 < m) : IntervalSpec (interval m e) m e := by
  obtain ⟨hunit, hnum⟩ := unit_eq m e
  have hden := ratio_den_pos m e
  set unit := if 0 ≤ e then Nat.pow 2 e.toNat else 1 with hu
  have hle : unit ≤ m * unit := Nat.le_mul_of_pos_left _ hm
  have hcast : ((ratio m e).1 : ℚ) = m * (2 ^ e * (ratio m e).2) := by
    rw [hnum, ← hunit]; push_cast; rfl
  refine ⟨by simp [interval, hden], ?_, ?_, ?_, rfl⟩
  · simp only [interval]; push_cast; rw [hcast]; ring
  · simp only [interval, ← hu]
    have h52 : Nat.pow 2 52 = 2 ^ 52 := rfl
    rw [h52, stepBelow]
    split
    · rw [Nat.cast_sub (by omega)]; push_cast; rw [hcast, hunit]; ring
    · rw [Nat.cast_sub (by omega)]; push_cast; rw [hcast, hunit]; ring
  · simp only [interval, ← hu]; push_cast; rw [hcast, hunit]; ring

/-- The search accepts a grid point exactly if it is within reach of the number. -/
theorem holds_iff {i : Interval} (hi : IntervalSpec i m e) (c : Nat) (g : Int) :
    i.holds c g = true ↔ Reaches m e (c * 10 ^ g) := by
  have hden : (0 : ℚ) < i.den := by exact_mod_cast hi.den_pos
  have hleft := holds_scale c i.den g
  unfold Interval.holds
  set left := if 0 ≤ g then c * Nat.pow 10 g.toNat * i.den else c * i.den
  set scale := if 0 ≤ g then 1 else Nat.pow 10 (-g).toNat with hsc
  have hscale : (0 : ℚ) < scale := by
    rw [hsc]; split
    · norm_num
    · exact_mod_cast Nat.pow_pos (by norm_num)
  set x : ℚ := c * 10 ^ g
  have hpos : (0 : ℚ) < i.den * scale := mul_pos hden hscale
  have cmp : ∀ (n : Nat) (a : ℚ), (n : ℚ) = a * i.den →
      (n * scale ≤ left ↔ a ≤ x) ∧ (left ≤ n * scale ↔ x ≤ a) := fun n a h => by
    rw [← Nat.cast_le (α := ℚ), ← Nat.cast_le (α := ℚ), hleft, Nat.cast_mul, h, mul_assoc,
      mul_assoc x, mul_le_mul_iff_of_pos_right hpos, mul_le_mul_iff_of_pos_right hpos]
    exact ⟨Iff.rfl, Iff.rfl⟩
  obtain ⟨lower_le, le_lower⟩ := cmp _ _ hi.lower
  obtain ⟨upper_le, le_upper⟩ := cmp _ _ hi.upper
  by_cases heven : m % 2 = 0
  · simp only [hi.closed, heven, decide_true, if_true, Bool.and_eq_true, decide_eq_true_eq,
      lower_le, le_upper]
    exact ⟨fun h => ⟨h.1, h.2, fun _ => heven, fun _ => heven⟩, fun h => ⟨h.lower, h.upper⟩⟩
  · simp only [hi.closed, heven, decide_false, Bool.false_eq_true, if_false, Bool.and_eq_true,
      decide_eq_true_eq, ← not_le, le_lower, upper_le]
    simp only [not_le]
    constructor
    · intro h
      exact ⟨h.1.le, h.2.le, fun he => absurd he h.1.ne', fun he => absurd he h.2.ne⟩
    · intro h
      exact ⟨lt_of_le_of_ne h.lower fun he => heven (h.lower_tie he.symm),
        lt_of_le_of_ne h.upper fun he => heven (h.upper_tie he)⟩

/-! ### The search -/

theorem nearest?_holds {i : Interval} {g : Int} {c : Nat} (h : i.nearest? g = some c) :
    i.holds c g = true := by
  unfold Interval.nearest? at h
  grind

/-- The point of a grid that is tried first is no further than half a step from the value. -/
theorem nearest?_isSome {i : Interval} (hi : IntervalSpec i m e) (g : Int)
    (hfine : ∀ x : ℚ, |x - m * 2 ^ e| ≤ 10 ^ g / 2 → Reaches m e x) : (i.nearest? g).isSome := by
  set s := scaleDown 10 i.value i.den g with hs
  have hden : 0 < s.2 := scaleDown_den_pos _ _ (by norm_num) hi.den_pos
  have hg : (0 : ℚ) < 10 ^ g := zpow_pos (by norm_num) g
  have hq : quotient s * 10 ^ g = m * 2 ^ e := by
    have hd : (i.den : ℚ) ≠ 0 := by exact_mod_cast hi.den_pos.ne'
    have := quotient_scaleDown i.value i.den g (by norm_num : 0 < 10)
    push_cast at this
    rw [this, hi.value, mul_div_cancel_right₀ _ hd, div_mul_cancel₀ _ hg.ne']
  set c := s.1 / s.2 with hc
  set r := s.1 % s.2 with hr
  set first := if 2 * r < s.2 ∨ 2 * r = s.2 ∧ c % 2 = 0 then c else c + 1 with hfirst
  have hnear : |(first : ℚ) - quotient s| ≤ 1 / 2 := by
    have hD : (0 : ℚ) < s.2 := by exact_mod_cast hden
    have hsum : (s.1 : ℚ) = s.2 * c + r := by exact_mod_cast (Nat.div_add_mod s.1 s.2).symm
    have hsplit : quotient s = c + r / s.2 := by rw [quotient, hsum]; field_simp
    have hr0 : (0 : ℚ) ≤ r / s.2 := by positivity
    have hr1 : (r : ℚ) / s.2 < 1 := by
      rw [div_lt_one hD]; exact_mod_cast Nat.mod_lt s.1 hden
    rw [hsplit, abs_le, hfirst]
    split
    · next h =>
      have : (r : ℚ) / s.2 ≤ 1 / 2 := by
        rw [div_le_iff₀ hD]
        have : (2 * r : ℚ) ≤ s.2 := by exact_mod_cast (by omega : 2 * r ≤ s.2)
        linarith
      constructor <;> linarith
    · next h =>
      have : 1 / 2 ≤ (r : ℚ) / s.2 := by
        rw [le_div_iff₀ hD]
        have : (s.2 : ℚ) ≤ 2 * r := by exact_mod_cast (by omega : s.2 ≤ 2 * r)
        linarith
      push_cast
      constructor <;> linarith
  have hholds : i.holds first g = true := by
    rw [holds_iff hi]
    apply hfine
    rw [← hq, ← sub_mul, abs_mul, abs_of_pos hg]
    calc |(first : ℚ) - quotient s| * 10 ^ g ≤ 1 / 2 * 10 ^ g := by gcongr
      _ = 10 ^ g / 2 := by ring
  simp only [Interval.nearest?, ← hs, ← hc, ← hr, ← hfirst, hholds, if_true, Option.isSome_some]

theorem coarsest_found {i : Interval} {tries : Nat} {g : Int} {j : Nat} (hj : j < tries)
    (h : (i.nearest? (g - j)).isSome) :
    ∃ c g', i.coarsest g tries = .ofScaled c g' ∧ i.nearest? g' = some c := by
  induction tries generalizing g j with
  | zero => omega
  | succ tries ih =>
    rw [Interval.coarsest]
    cases hc : i.nearest? g with
    | some c => exact ⟨c, g, rfl, hc⟩
    | none =>
      obtain - | j := j
      · simp [hc] at h
      · exact ih (j := j) (by omega) (by rw [sub_sub, add_comm (1 : Int)]; exact_mod_cast h)

/-! ### Digits of a number -/

theorem pow_digitCount_le {n : Nat} (hn : 0 < n) : 10 ^ (digitCount n - 1) ≤ n := by
  by_contra h
  have hpos : 0 < digitCount n := Nat.length_toDigits_pos
  rcases Nat.lt_or_ge 1 (digitCount n) with h1 | h1
  · have : digitCount n ≤ digitCount n - 1 :=
      (Nat.length_toDigits_le_iff (by norm_num) (by omega)).mpr (by omega)
    omega
  · rw [show digitCount n - 1 = 0 by omega] at h; omega

theorem lt_pow_digitCount (n : Nat) : n < 10 ^ digitCount n :=
  (Nat.length_toDigits_le_iff (by norm_num) Nat.length_toDigits_pos).mp le_rfl

/-- The logarithm that the search starts with is exact. -/
theorem floorLog_ten_spec {num den : Nat} (hn : 0 < num) (hd : 0 < den) :
    (10 : ℚ) ^ floorLog 10 num den ((digitCount num : Int) - digitCount den) ≤ num / den ∧
      (num : ℚ) / den < 10 ^ (floorLog 10 num den ((digitCount num : Int) - digitCount den) + 1) := by
  have h₁ : 0 < digitCount num := Nat.length_toDigits_pos
  have h₂ : 0 < digitCount den := Nat.length_toDigits_pos
  have h := floorLog_bounds (by norm_num : 1 < 10) hd (pow_digitCount_le hn)
    (by rw [Nat.sub_add_cancel h₁]; exact lt_pow_digitCount num) (pow_digitCount_le hd)
    (by rw [Nat.sub_add_cancel h₂]; exact lt_pow_digitCount den)
  rw [show ((digitCount num - 1 : Nat) : Int) - (digitCount den - 1 : Nat) =
    (digitCount num : Int) - digitCount den by omega] at h
  exact h

/-! ### What the shortest digits denote -/

/-- The shortest digits are those of a decimal within reach of the number. -/
theorem shortest_reaches (fits : FitsBinary64 m e) (hm : 0 < m) :
    ∃ (c : Nat) (g : Int), shortest m e = .ofScaled c g ∧ 0 < c ∧ Reaches m e (c * 10 ^ g) := by
  have hi := interval_spec (e := e) hm
  have hp : (0 : ℚ) < 2 ^ e := zpow_pos (by norm_num) e
  have hratio : ((ratio m e).1 : ℚ) / (ratio m e).2 = m * 2 ^ e := by
    have h := quotient_scaleDown m 1 (-e) (by norm_num : 0 < 2)
    rw [zpow_neg, div_inv_eq_mul] at h
    simpa [quotient, ratio] using h
  have hnum : 0 < (ratio m e).1 := by
    have h1 : (0 : ℚ) < m * 2 ^ e := mul_pos (by exact_mod_cast hm) hp
    rw [← hratio] at h1
    by_contra h0
    rw [show (ratio m e).1 = 0 by omega] at h1
    simp at h1
  obtain ⟨hk, -⟩ := floorLog_ten_spec hnum (ratio_den_pos m e)
  set k := floorLog 10 (ratio m e).1 (ratio m e).2
    ((digitCount (ratio m e).1 : Int) - digitCount (ratio m e).2) with hkdef
  rw [hratio] at hk
  -- the finest grid has steps of less than half a unit
  have hstep : (10 : ℚ) ^ (k - (17 : Nat)) < 2 ^ e / 2 := by
    have hm53 : (m : ℚ) < 2 ^ 53 := by exact_mod_cast fits.lt
    rw [zpow_sub₀ (by norm_num), zpow_natCast, div_lt_iff₀ (by positivity)]
    nlinarith
  have hbelow : 2 ^ e / 4 ≤ stepBelow m e := by unfold stepBelow; split <;> linarith
  have hfine : ∀ x : ℚ, |x - m * 2 ^ e| ≤ 10 ^ (k - (17 : Nat)) / 2 → Reaches m e x := by
    intro x hx
    obtain ⟨h₁, h₂⟩ := abs_le.mp hx
    exact ⟨by linarith, by linarith, fun h => absurd h (by linarith [hbelow]),
      fun h => absurd h (by linarith)⟩
  obtain ⟨c, g, hc, hg⟩ := coarsest_found (by norm_num : 17 < 18)
    (nearest?_isSome hi (k - (17 : Nat)) hfine)
  have hreach := (holds_iff hi c g).mp (nearest?_holds hg)
  refine ⟨c, g, hc, ?_, hreach⟩
  by_contra h0
  have := hreach.pos hm
  rw [show c = 0 by omega] at this
  simp at this

end Binary64

end LabelBook
