import LabelBook.Proofs.Text.Utf8
import LabelBook.Text.LowerCase

/-!
Lower case. No small letter is a capital, so what is in lower case stays as it is, however odd the text
was: a dotted capital I gives two code points, and a capital sigma one of two, but none of these has a
small letter. The capitals beyond ASCII lead to no hexadecimal digit, so a text that lower case turns
into digits has been one of digits before, code point by code point.

    kelvin sign  ↦  "k"      dotted I  ↦  "i" and a dot      neither is a digit
-/

namespace LabelBook

namespace CodePoint

/-- The number of a code point that comes from a number. -/
theorem toNat_ofNat {n : Nat} (h : n < 0x110000) : (ofNat n).toNat = n := by
  unfold ofNat
  split
  · rw [toNat]
    dsimp only
    omega
  · rw [toNat, Char.toNat_ofNat, if_pos (by unfold Nat.isValidChar; omega)]

/-- A run of capitals has a number. -/
def InRun (n : Nat) (run : Nat × Nat × Nat × Int) : Prop :=
  run.1 ≤ n ∧ n ≤ run.2.1 ∧ (n - run.1) % run.2.2.1 = 0

/-- Whether no small letter of a run is a capital of another: it lies in front of that or behind it, or
falls between its capitals, which are every other number. -/
def misses (run other : Nat × Nat × Nat × Int) : Bool :=
  Nat.blt (run.2.1 + run.2.2.2).toNat other.1 || Nat.blt other.2.1 (run.1 + run.2.2.2).toNat ||
    (other.2.2.1 == 2 && (run.2.2.1 == 2 || run.1 == run.2.1) &&
      ((run.1 + run.2.2.2).toNat - other.1) % 2 == 1)

/-- The dotted capital I as a run. -/
def dottedRun : Nat × Nat × Nat × Int := (0x130, 0x130, 1, 0)

theorem lowerRuns_miss :
    (lowerRuns.all fun run => (dottedRun :: lowerRuns).all fun other => misses run other) = true := by
  decide +kernel

/-- The capitals beyond ASCII have small letters behind the hexadecimal digits. -/
theorem lowerRuns_bounds : ∀ run ∈ lowerRuns, run = (0x41, 0x5A, 1, 0x20) ∨
    0x80 ≤ run.1 ∧ 0x67 ≤ run.1 + run.2.2.2 ∧ run.2.1 + run.2.2.2 < 0x110000 := by
  decide +kernel

/-- A number in a run leads to none in a run that is missed. -/
theorem not_inRun_of_misses {run other : Nat × Nat × Nat × Int} {n m : Nat}
    (h : misses run other = true) (hn : InRun n run) (hm : (m : Int) = n + run.2.2.2) :
    ¬ InRun m other := by
  obtain ⟨first, last, step, distance⟩ := run
  obtain ⟨otherFirst, otherLast, otherStep, otherDistance⟩ := other
  simp only [misses, Bool.or_eq_true, Bool.and_eq_true, beq_iff_eq, Nat.blt_eq] at h
  simp only [InRun] at hn ⊢
  dsimp only at hm
  rintro ⟨hfirst, hlast, hstep⟩
  rcases h with (h | h) | ⟨⟨rfl, h⟩, hodd⟩
  · omega
  · omega
  · rcases h with rfl | rfl
    · omega
    · omega

/-- A code point is its own small letter, or a capital of some run. -/
theorem lower_cases (c : CodePoint) : c.lower = c ∨
    ∃ run ∈ lowerRuns, InRun c.toNat run ∧ (c.lower.toNat : Int) = c.toNat + run.2.2.2 := by
  unfold lower
  dsimp only
  split_ifs with hascii hcapital
  · refine Or.inr ⟨(0x41, 0x5A, 1, 0x20), List.mem_cons_self, ⟨hcapital.1, hcapital.2, Nat.mod_one _⟩, ?_⟩
    rw [toNat_ofNat (by omega)]
    rfl
  · exact Or.inl rfl
  · split
    · next run hrun =>
      have hmem := List.mem_of_find?_eq_some hrun
      have hfound := List.find?_some hrun
      simp only [Bool.and_eq_true, decide_eq_true_eq, beq_iff_eq] at hfound
      refine Or.inr ⟨run, hmem, ⟨hfound.1.1, hfound.1.2, hfound.2⟩, ?_⟩
      rcases lowerRuns_bounds run hmem with rfl | ⟨-, hlow, hhigh⟩
      · exact absurd hfound.1.2 (by dsimp only; omega)
      · rw [toNat_ofNat (by omega)]
        omega
    · exact Or.inl rfl

/-- What is in no run is its own small letter. -/
theorem lower_eq_self {c : CodePoint} (h : ∀ run ∈ lowerRuns, ¬ InRun c.toNat run) : c.lower = c :=
  (lower_cases c).resolve_right fun ⟨run, hmem, hin, _⟩ => h run hmem hin

/-- Where the small letter of a code point that is not its own does not lie. -/
theorem not_inRun_lower {c : CodePoint} {run other : Nat × Nat × Nat × Int} (hmem : run ∈ lowerRuns)
    (hin : InRun c.toNat run) (hlower : (c.lower.toNat : Int) = c.toNat + run.2.2.2)
    (hother : other ∈ dottedRun :: lowerRuns) : ¬ InRun c.lower.toNat other :=
  not_inRun_of_misses
    (List.all_eq_true.mp (List.all_eq_true.mp lowerRuns_miss run hmem) other hother) hin hlower

/-- A small letter is its own small letter. -/
theorem lower_lower (c : CodePoint) : c.lower.lower = c.lower := by
  rcases lower_cases c with hsame | ⟨run, hmem, hin, hlower⟩
  · rw [hsame, hsame]
  · exact lower_eq_self fun other hother =>
      not_inRun_lower hmem hin hlower (List.mem_cons_of_mem _ hother)

/-! ### Digits -/

theorem isDigit_iff {c : CodePoint} : c.isDigit = true ↔ 0x30 ≤ c.toNat ∧ c.toNat ≤ 0x39 := by
  cases c with
  | lone n =>
    rw [isDigit, toNat]
    simp
    omega
  | scalar c =>
    simp only [isDigit, Char.isDigit, Bool.and_eq_true, decide_eq_true_eq, ge_iff_le,
      UInt32.le_iff_toNat_le, toNat]
    rfl

theorem isHex_iff {c : CodePoint} : c.isHex = true ↔ (0x30 ≤ c.toNat ∧ c.toNat ≤ 0x39) ∨
    (0x61 ≤ c.toNat ∧ c.toNat ≤ 0x66) ∨ (0x41 ≤ c.toNat ∧ c.toNat ≤ 0x46) := by
  unfold isHex hexValue?
  dsimp only
  split_ifs with h₁ h₂ h₃ <;> simp [*]

theorem isHex_of_isDigit {c : CodePoint} (h : c.isDigit = true) : c.isHex = true :=
  isHex_iff.mpr (.inl (isDigit_iff.mp h))

theorem le_of_isHex {c : CodePoint} (h : c.isHex = true) : c.toNat ≤ 0x66 := by
  rcases isHex_iff.mp h with h | h | h <;> omega

/-- The small letter of a hexadecimal digit is known by its value. -/
theorem lower_of_hexValue? {c : CodePoint} {n : Nat} (h : c.hexValue? = some n) :
    c.lower = .ofNat (if n < 10 then 0x30 + n else 0x57 + n) := by
  unfold hexValue? at h
  dsimp only at h
  unfold lower
  dsimp only
  split_ifs at h with hdigit hsmall hcapital
  · rw [if_pos (by omega), if_neg (by omega), ← Option.some.inj h, if_pos (by omega),
      Nat.add_sub_cancel' hdigit.1, ofNat_toNat]
  · rw [if_pos (by omega), if_neg (by omega), ← Option.some.inj h, if_neg (by omega),
      show 0x57 + (c.toNat - 0x61 + 10) = c.toNat by omega, ofNat_toNat]
  · rw [if_pos (by omega), if_pos (by omega), ← Option.some.inj h, if_neg (by omega),
      show 0x57 + (c.toNat - 0x41 + 10) = c.toNat + 0x20 by omega]

/-- Lower case does not change the value of a digit, and makes none. -/
theorem hexValue?_lower (c : CodePoint) : c.lower.hexValue? = c.hexValue? := by
  rcases lower_cases c with hsame | ⟨run, hmem, ⟨hfirst, hlast, -⟩, hlower⟩
  · rw [hsame]
  · unfold hexValue?
    dsimp only
    rcases lowerRuns_bounds run hmem with rfl | ⟨hbeyond, hlow, -⟩
    · dsimp only at hfirst hlast hlower
      by_cases hdigit : c.toNat ≤ 0x46
      · rw [if_neg (by omega), if_pos (by omega), if_neg (by omega), if_neg (by omega),
          if_pos (by omega)]
        exact congrArg some (by omega)
      · rw [if_neg (by omega), if_neg (by omega), if_neg (by omega), if_neg (by omega),
          if_neg (by omega), if_neg (by omega)]
    · rw [if_neg (by omega), if_neg (by omega), if_neg (by omega), if_neg (by omega),
        if_neg (by omega), if_neg (by omega)]

theorem isHex_lower (c : CodePoint) : c.lower.isHex = c.isHex := by
  rw [isHex, isHex, hexValue?_lower]

/-- Lower case makes no code point in front of the letters. -/
theorem lower_of_lt {c : CodePoint} (h : c.toNat < 0x41 ∨ c.lower.toNat < 0x41) : c.lower = c := by
  rcases lower_cases c with hsame | ⟨run, hmem, ⟨hfirst, hlast, -⟩, hlower⟩
  · exact hsame
  · rcases lowerRuns_bounds run hmem with rfl | ⟨hbeyond, hlow, -⟩
    · dsimp only at hfirst hlast hlower
      omega
    · omega

theorem isDigit_lower (c : CodePoint) : c.lower.isDigit = c.isDigit := by
  rw [Bool.eq_iff_iff, isDigit_iff, isDigit_iff]
  constructor
  · intro h
    rwa [lower_of_lt (.inr (by omega))] at h
  · intro h
    rwa [lower_of_lt (.inl (by omega))]

end CodePoint

namespace Text

/-- A code point whose lower case hangs on more than itself: a dotted capital I or a capital sigma. -/
def isOdd (c : CodePoint) : Bool := c.toNat == 0x130 || c.toNat == 0x3A3

theorem isOdd_iff {c : CodePoint} : isOdd c = true ↔ c.toNat = 0x130 ∨ c.toNat = 0x3A3 := by
  rw [isOdd, Bool.or_eq_true, beq_iff_eq, beq_iff_eq]

theorem isOdd_eq_false_iff {c : CodePoint} :
    isOdd c = false ↔ c.toNat ≠ 0x130 ∧ c.toNat ≠ 0x3A3 := by
  rw [← Bool.not_eq_true, isOdd_iff, not_or]

theorem isOdd_of_lt {c : CodePoint} (h : c.toNat < 0x80) : isOdd c = false :=
  isOdd_eq_false_iff.mpr ⟨by omega, by omega⟩

theorem lowerAfter_eq_map : ∀ (t before : Text), (∀ c ∈ t, isOdd c = false) →
    lowerAfter before t = t.map CodePoint.lower
  | [], _, _ => rfl
  | c :: t, before, h => by
    have hodd := isOdd_eq_false_iff.mp (h c List.mem_cons_self)
    rw [lowerAfter, if_neg hodd.1, if_neg hodd.2,
      lowerAfter_eq_map t _ fun d hd => h d (List.mem_cons_of_mem c hd)]
    rfl

/-- A text without odd code points is in lower case when each of its code points is. -/
theorem lower_eq_map {t : Text} (h : ∀ c ∈ t, isOdd c = false) : t.lower = t.map CodePoint.lower :=
  lowerAfter_eq_map t [] h

/-- On a text of ASCII, lower case is that of ASCII. -/
theorem lower_eq_lowerAscii {t : Text} (h : ∀ c ∈ t, c.toNat < 0x80) : t.lower = t.lowerAscii := by
  have hascii : ∀ n < 0x80, lowerAscii [CodePoint.ofNat n] = [(CodePoint.ofNat n).lower] := by
    decide +kernel
  rw [lower_eq_map fun c hc => isOdd_of_lt (h c hc)]
  refine List.map_congr_left fun c hc => ?_
  have hc := hascii c.toNat (h c hc)
  rw [CodePoint.ofNat_toNat] at hc
  exact (List.head_eq_of_cons_eq hc).symm

/-- What a code point of the lower case of a text comes from: the small letter of a code point that is
not odd, or one of the four that odd ones give. -/
theorem mem_lowerAfter : ∀ {t before : Text} {c : CodePoint}, c ∈ lowerAfter before t →
    (∃ d ∈ t, isOdd d = false ∧ c = d.lower) ∨ c ∈ [0x69, 0x307, 0x3C2, 0x3C3].map CodePoint.ofNat
  | [], _, _, h => absurd h List.not_mem_nil
  | d :: t, before, c, h => by
    rw [lowerAfter] at h
    rcases List.mem_append.mp h with h | h
    · split_ifs at h with hdotted hsigma hfinal
      · exact Or.inr (List.mem_append_left [_, _] h)
      · exact Or.inr (by rw [List.mem_singleton.mp h]; simp)
      · exact Or.inr (by rw [List.mem_singleton.mp h]; simp)
      · exact Or.inl ⟨d, List.mem_cons_self, isOdd_eq_false_iff.mpr ⟨hdotted, hsigma⟩,
          List.mem_singleton.mp h⟩
    · rcases mem_lowerAfter h with ⟨e, he, hodd⟩ | h
      · exact Or.inl ⟨e, List.mem_cons_of_mem d he, hodd⟩
      · exact Or.inr h

/-- An odd code point leaves one behind the hexadecimal digits. -/
theorem exists_mem_lowerAfter : ∀ {t before : Text} {c : CodePoint}, c ∈ t → isOdd c = true →
    ∃ d ∈ lowerAfter before t, 0x66 < d.toNat
  | d :: t, before, c, hc, hodd => by
    rw [lowerAfter]
    rcases List.mem_cons.mp hc with rfl | hc
    · split_ifs with hdotted hsigma
      · exact ⟨.ofNat 0x69, List.mem_append_left _ List.mem_cons_self, by decide⟩
      · exact ⟨.ofNat 0x3C2, List.mem_append_left _ List.mem_cons_self, by decide⟩
      · exact ⟨.ofNat 0x3C3, List.mem_append_left _ List.mem_cons_self, by decide⟩
      · exact absurd (isOdd_iff.mp hodd) (not_or.mpr ⟨hdotted, hsigma⟩)
    · obtain ⟨e, he, hlow⟩ : ∃ e ∈ lowerAfter (d :: before) t, 0x66 < e.toNat :=
        exists_mem_lowerAfter hc hodd
      exact ⟨e, List.mem_append_right _ he, hlow⟩

/-- A property of texts without letters behind the hexadecimal digits does not change with lower case if
it does not change with the lower case of each code point. -/
theorem lower_iff {p : Text → Prop} (low : ∀ t, p t → ∀ c ∈ t, c.toNat ≤ 0x66)
    (map : ∀ t, p (t.map CodePoint.lower) ↔ p t) (t : Text) : p t.lower ↔ p t := by
  by_cases hodd : ∃ c ∈ t, isOdd c = true
  · obtain ⟨c, hc, hodd⟩ := hodd
    obtain ⟨d, hd, hbehind⟩ : ∃ d ∈ t.lower, 0x66 < d.toNat := exists_mem_lowerAfter hc hodd
    refine iff_of_false (fun h => absurd (low _ h d hd) (by omega)) fun h => ?_
    have hlow := low t h c hc
    have hodd := isOdd_iff.mp hodd
    omega
  · rw [lower_eq_map fun c hc => Bool.eq_false_iff.mpr fun h => hodd ⟨c, hc, h⟩]
    exact map t

theorem settled_of_odd : ∀ c ∈ [0x69, 0x307, 0x3C2, 0x3C3].map CodePoint.ofNat,
    isOdd c = false ∧ c.lower = c := by
  decide +kernel

/-- The lower case of a text has no odd code point and none with another small letter. -/
theorem settled_of_mem_lower {t : Text} {c : CodePoint} (h : c ∈ t.lower) :
    isOdd c = false ∧ c.lower = c := by
  rcases mem_lowerAfter h with ⟨d, -, hodd, rfl⟩ | h
  · refine ⟨?_, d.lower_lower⟩
    rcases d.lower_cases with hsame | ⟨run, hmem, hin, hlower⟩
    · rwa [hsame]
    · have hdotted := CodePoint.not_inRun_lower hmem hin hlower List.mem_cons_self
      have hsigma : ¬ CodePoint.InRun d.lower.toNat (0x3A3, 0x3AB, 1, 32) :=
        CodePoint.not_inRun_lower hmem hin hlower (by decide +kernel)
      refine isOdd_eq_false_iff.mpr ⟨?_, ?_⟩
      · exact fun heq => hdotted (by rw [heq]; exact ⟨le_rfl, le_rfl, rfl⟩)
      · exact fun heq => hsigma (by rw [heq]; exact ⟨le_rfl, by decide, rfl⟩)
  · exact settled_of_odd c h

/-- The lower case of a text is in lower case. -/
theorem lower_lower (t : Text) : t.lower.lower = t.lower := by
  rw [lower_eq_map fun c hc => (settled_of_mem_lower hc).1]
  exact (List.map_congr_left fun c hc => (settled_of_mem_lower hc).2).trans (List.map_id _)

end Text

end LabelBook
