import LabelBook.Files.Refusal
import Mathlib

/-!
Paths and their texts. A path that a text spells has proper names, and its own text spells it again.
Whether a path can be handed to the system depends on the code points in its text, apart from its
length; so a path beside another one, under a plain name, can be handed over as well if it is not too
long.
-/

namespace LabelBook

/-! ### Names between slashes -/

namespace Text

theorem mem_joinWith {separator : Text} {c : CodePoint} : ∀ {ts : List Text},
    c ∈ joinWith separator ts → c ∈ separator ∨ ∃ t ∈ ts, c ∈ t
  | [], h => absurd h List.not_mem_nil
  | [t], h => Or.inr ⟨t, List.mem_singleton_self t, h⟩
  | t :: u :: us, h => by
    rw [joinWith_cons_cons, List.append_assoc] at h
    rcases List.mem_append.mp h with h | h
    · exact Or.inr ⟨t, List.mem_cons_self, h⟩
    · rcases List.mem_append.mp h with h | h
      · exact Or.inl h
      · rcases mem_joinWith h with h | ⟨v, hv, h⟩
        · exact Or.inl h
        · exact Or.inr ⟨v, List.mem_cons_of_mem t hv, h⟩

theorem mem_joinWith_of_mem {separator t : Text} {c : CodePoint} (hc : c ∈ t) :
    ∀ {ts : List Text}, t ∈ ts → c ∈ joinWith separator ts
  | [u], h => by rwa [← List.mem_singleton.mp h]
  | u :: v :: vs, h => by
    rw [joinWith_cons_cons, List.append_assoc]
    rcases List.mem_cons.mp h with rfl | h
    · exact List.mem_append_left _ hc
    · exact List.mem_append_right _ (List.mem_append_right _ (mem_joinWith_of_mem hc h))

variable {p : CodePoint → Bool}

theorem splitOn_cons_of_pos {c : CodePoint} (h : p c = true) (t : Text) :
    splitOn p (c :: t) = [] :: splitOn p t := by rw [splitOn, if_pos h]

theorem splitOn_ne_nil (t : Text) : splitOn p t ≠ [] := by
  cases t with
  | nil => simp [splitOn]
  | cons c t =>
    rw [splitOn]
    split
    · simp
    · split <;> simp

/-- A part without a separator in it is the first part. -/
theorem splitOn_append {t : Text} (h : ∀ c ∈ t, p c = false) (rest : Text) :
    ∃ u us, splitOn p rest = u :: us ∧ splitOn p (t ++ rest) = (t ++ u) :: us := by
  induction t with
  | nil =>
    obtain ⟨u, us, hu⟩ := List.exists_cons_of_ne_nil (splitOn_ne_nil (p := p) rest)
    exact ⟨u, us, hu, hu⟩
  | cons c t ih =>
    obtain ⟨u, us, hu, ht⟩ := ih fun d hd => h d (List.mem_cons_of_mem c hd)
    refine ⟨u, us, hu, ?_⟩
    rw [List.cons_append, splitOn, if_neg (by simp [h c List.mem_cons_self]), ht]
    rfl

theorem not_mem_of_mem_splitOn {t part : Text} (h : part ∈ splitOn p t) : ∀ c ∈ part, p c = false := by
  induction t generalizing part with
  | nil =>
    rw [splitOn, List.mem_singleton] at h
    rw [h]
    exact fun c hc => absurd hc List.not_mem_nil
  | cons d t ih =>
    by_cases hd : p d = true
    · rw [splitOn_cons_of_pos hd] at h
      rcases List.mem_cons.mp h with rfl | h
      · exact fun c hc => absurd hc List.not_mem_nil
      · exact ih h
    · rw [Bool.not_eq_true] at hd
      obtain ⟨u, us, hu, hsplit⟩ := splitOn_append (t := [d]) (by simpa using hd) t
      rw [List.singleton_append] at hsplit
      rw [hsplit] at h
      rcases List.mem_cons.mp h with rfl | h
      · intro c hc
        rcases List.mem_cons.mp hc with rfl | hc
        · exact hd
        · exact ih (by rw [hu]; exact List.mem_cons_self) c hc
      · exact ih (by rw [hu]; exact List.mem_cons_of_mem u h)

end Text

namespace Path

/-- A name that can stand on a path: neither empty nor a single dot, and without a slash. -/
structure ProperName (n : Text) : Prop where
  nonempty : n ≠ []
  dot : n ≠ "."
  slash : ∀ c ∈ n, (c == slash) = false

theorem ProperName.kept {n : Text} (h : ProperName n) : (!List.isEmpty n && n != ".") = true := by
  simp [h.nonempty, h.dot]

/-- A path as a text spells it. -/
def Proper (p : Path) : Prop := ∀ n ∈ p.names, ProperName n

theorem namesOf_proper {t n : Text} (h : n ∈ namesOf t) : ProperName n := by
  obtain ⟨hmem, hn⟩ := List.mem_filter.mp h
  rw [Bool.and_eq_true] at hn
  exact ⟨by simpa using hn.1, by simpa using hn.2, Text.not_mem_of_mem_splitOn hmem⟩

theorem ofText_proper (t : Text) : (ofText t).Proper := fun _ h => namesOf_proper h

/-! ### The text of a path spells the path -/

theorem namesOf_slash (t : Text) : namesOf (slash :: t) = namesOf t := by
  rw [namesOf, Text.splitOn_cons_of_pos (by simp)]
  rfl

theorem namesOf_joinWith : ∀ {names : List Text}, (∀ n ∈ names, ProperName n) →
    namesOf (Text.joinWith "/" names) = names
  | [], _ => rfl
  | [n], h => by
    have hn := h n List.mem_cons_self
    obtain ⟨u, us, hu, hsplit⟩ := Text.splitOn_append hn.slash []
    obtain ⟨rfl, rfl⟩ : [] = u ∧ [] = us := List.cons.inj hu
    rw [List.append_nil] at hsplit
    rw [Text.joinWith, namesOf, hsplit, List.filter_cons, if_pos hn.kept]
    rfl
  | n :: m :: names, h => by
    have hn := h n List.mem_cons_self
    have ih := namesOf_joinWith fun k hk => h k (List.mem_cons_of_mem n hk)
    obtain ⟨u, us, hu, hsplit⟩ :=
      Text.splitOn_append hn.slash (slash :: Text.joinWith "/" (m :: names))
    rw [Text.splitOn_cons_of_pos (by simp)] at hu
    obtain ⟨rfl, rfl⟩ := List.cons.inj hu
    rw [List.append_nil] at hsplit
    rw [Text.joinWith_cons_cons, List.append_assoc]
    rw [namesOf] at ih ⊢
    rw [show Text.ofString "/" ++ Text.joinWith "/" (m :: names) =
      slash :: Text.joinWith "/" (m :: names) from rfl, hsplit, List.filter_cons, if_pos hn.kept, ih]

theorem takeWhile_slash_cons (t : Text) :
    (slash :: t).takeWhile (· == slash) = slash :: t.takeWhile (· == slash) := by simp

theorem takeWhile_slash {names : List Text} (h : ∀ n ∈ names, ProperName n) :
    (Text.joinWith "/" names).takeWhile (· == slash) = [] := by
  cases names with
  | nil => rfl
  | cons n names =>
    have hn := h n List.mem_cons_self
    obtain ⟨c, t, rfl⟩ := List.exists_cons_of_ne_nil hn.nonempty
    have hc := hn.slash c List.mem_cons_self
    cases names with
    | nil => rw [Text.joinWith, List.takeWhile_cons_of_neg (by simp [hc])]
    | cons m names =>
      rw [Text.joinWith_cons_cons, List.append_assoc, List.cons_append,
        List.takeWhile_cons_of_neg (by simp [hc])]

/-- The text of a proper path spells the path. -/
theorem ofText_text {p : Path} (h : p.Proper) : ofText p.text = p := by
  obtain ⟨anchor, names⟩ := p
  have hnames := namesOf_joinWith h
  have htake := takeWhile_slash h
  cases anchor with
  | here =>
    unfold text
    dsimp only
    split
    · next hempty =>
      have hnil : namesOf [] = names := by rw [← List.isEmpty_iff.mp hempty]; exact hnames
      rw [← hnil]
      rfl
    · rw [ofText, hnames, anchorOf, htake]
      rfl
  | root =>
    have htext : text ⟨.root, names⟩ = slash :: Text.joinWith "/" names := rfl
    rw [htext, ofText, namesOf_slash, hnames, anchorOf, takeWhile_slash_cons, htake]
    rfl
  | doubleRoot =>
    have htext : text ⟨.doubleRoot, names⟩ = slash :: slash :: Text.joinWith "/" names := rfl
    rw [htext, ofText, namesOf_slash, namesOf_slash, hnames, anchorOf, takeWhile_slash_cons,
      takeWhile_slash_cons, htake]
    rfl

/-! ### Handing a path over -/

theorem mem_text {p : Path} {c : CodePoint} (h : c ∈ p.text) :
    c = slash ∨ c = .scalar '.' ∨ ∃ n ∈ p.names, c ∈ n := by
  have hjoin : c ∈ Text.joinWith "/" p.names → c = slash ∨ c = .scalar '.' ∨ ∃ n ∈ p.names, c ∈ n := by
    intro h
    rcases Text.mem_joinWith h with h | h
    · exact Or.inl (List.mem_singleton.mp h)
    · exact Or.inr (Or.inr h)
  unfold text at h
  dsimp only at h
  split at h
  · split at h
    · exact Or.inr (Or.inl (List.mem_singleton.mp h))
    · exact hjoin h
  · rcases List.mem_append.mp h with h | h
    · exact Or.inl (List.mem_singleton.mp h)
    · exact hjoin h
  · rcases List.mem_append.mp h with h | h
    · rcases List.mem_pair.mp h with h | h <;> exact Or.inl h
    · exact hjoin h

theorem mem_text_of_mem {p : Path} {n : Text} {c : CodePoint} (hn : n ∈ p.names) (hc : c ∈ n) :
    c ∈ p.text := by
  have hjoin : c ∈ Text.joinWith "/" p.names := Text.mem_joinWith_of_mem hc hn
  unfold text
  dsimp only
  split
  · split
    · next h => rw [List.isEmpty_iff.mp h] at hjoin; exact absurd hjoin List.not_mem_nil
    · exact hjoin
  · exact List.mem_append_right _ hjoin
  · exact List.mem_append_right _ hjoin

/-- A code point that can stand in a path that is handed over. -/
def Passes : CodePoint → Prop
  | .scalar c => c ≠ '\x00'
  | .lone n => (Utf8.escapedOctet? n).isSome = true

theorem encodeFrom_lenient (t : Text) (position : Nat) (written : Octets) :
    (∃ o, Utf8.encodeFrom true position written t = .ok o) ↔
      ∀ n, .lone n ∈ t → (Utf8.escapedOctet? n).isSome = true := by
  induction t generalizing position written with
  | nil => simp [Utf8.encodeFrom]
  | cons c t ih =>
    cases c with
    | scalar c => rw [Utf8.encodeFrom, ih]; simp
    | lone n =>
      rw [Utf8.encodeFrom]
      cases h : Utf8.escapedOctet? n with
      | none => simp only [if_true]; simp [h]
      | some b => simp only [if_true]; rw [ih]; simp [h]

/-- What is handed over is the text of the path. -/
theorem handedOver_eq {p : Path} {t : Text} (h : p.handedOver = .ok t) : t = p.text := by
  unfold handedOver at h
  split at h
  · cases h
  · split at h
    · cases h
    · split at h
      · cases h
      · exact (Except.ok.inj h).symm

/-- The system takes no part in it but for paths that are too long. -/
theorem handedOver_refusal {p : Path} {why : Reason} {path : Text} {target : Option Text}
    (h : p.handedOver = .error (.system why path target)) :
    why = .nameTooLong ∧ path = p.text ∧ target = none := by
  unfold handedOver at h
  split at h
  · cases h
  · split at h
    · cases h
    · split at h
      · cases h
        exact ⟨rfl, rfl, rfl⟩
      · cases h

theorem handedOver_system {p : Path} {why : Reason} {path : Text} {target : Option Text}
    (h : p.handedOver = .error (.system why path target)) : why = .nameTooLong :=
  (handedOver_refusal h).1

/-- A path that can be handed over has nothing but code points that can stand in one. -/
theorem passes_of_handedOver {p : Path} {t : Text} (h : p.handedOver = .ok t) :
    ∀ c ∈ p.text, Passes c := by
  unfold handedOver at h
  split at h
  · cases h
  · next o ho =>
    have hlone := (encodeFrom_lenient p.text 0 []).mp ⟨o, ho⟩
    split at h
    · cases h
    · next hnull =>
      intro c hc
      cases c with
      | scalar c =>
        rintro rfl
        exact hnull (List.contains_iff_mem.mpr hc)
      | lone n => exact hlone n hc

/-- A path with nothing but code points that can stand in one is handed over if it is not too long. -/
theorem handedOver_of_passes {p : Path} (h : ∀ c ∈ p.text, Passes c) :
    p.handedOver = .ok p.text ∨ p.handedOver = .error (.system .nameTooLong p.text none) := by
  obtain ⟨o, ho⟩ := (encodeFrom_lenient p.text 0 []).mpr fun n hn => h _ hn
  have hnull : ¬ p.text.contains (.scalar '\x00') = true := by
    rw [List.contains_iff_mem]
    exact fun hmem => h _ hmem rfl
  unfold handedOver
  rw [show Utf8.encodeName p.text = .ok o from ho]
  dsimp only
  rw [if_neg hnull]
  split
  · exact Or.inr rfl
  · exact Or.inl rfl

/-- A path beside one that can be handed over, under a name of code points that can stand in a path, is
refused for its length only. -/
theorem handedOver_child {p : Path} {t name : Text} (h : p.handedOver = .ok t)
    (hname : ∀ c ∈ name, Passes c) :
    (p.parent.child name).handedOver = .ok (p.parent.child name).text ∨
      (p.parent.child name).handedOver =
        .error (.system .nameTooLong (p.parent.child name).text none) := by
  apply handedOver_of_passes
  intro c hc
  rcases mem_text hc with rfl | rfl | ⟨n, hn, hcn⟩
  · simp [slash, Passes]
  · simp [Passes]
  · rcases List.mem_append.mp hn with hn | hn
    · exact passes_of_handedOver h c (mem_text_of_mem (List.mem_of_mem_dropLast hn) hcn)
    · rw [List.mem_singleton.mp hn] at hcn
      exact hname c hcn

end Path

end LabelBook
