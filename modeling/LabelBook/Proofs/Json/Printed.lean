import LabelBook.Proofs.Json.Values

/-!
What the text of a value is made of: printable characters of ASCII, and the strings in the value as they
are written. So a property that no printable character of ASCII has is found in the text of a value
only if it is found in a string as it is written.
-/

namespace LabelBook

/-- A property that no printable character of ASCII has. -/
def CodePoint.Unprintable (p : CodePoint → Bool) : Prop :=
  ∀ c : Char, 0x20 ≤ c.toNat → c.toNat < 0x7F → p (.scalar c) = false

/-! ### Plain texts -/

namespace Text

theorem any_joinWith {p : CodePoint → Bool} {separator : Text} (h : separator.any p = false) :
    ∀ ts : List Text, (joinWith separator ts).any p = ts.any fun t => t.any p
  | [] => rfl
  | [t] => by simp [joinWith]
  | t :: u :: ts => by
    rw [joinWith_cons_cons, List.any_append, List.any_append, h, Bool.or_false,
      any_joinWith h, List.any_cons (l := u :: ts)]

end Text

section Unprintable

variable {p : CodePoint → Bool} (hp : CodePoint.Unprintable p)

include hp

namespace Text

theorem any_ofChars {cs : List Char} (h : ∀ c ∈ cs, 0x20 ≤ c.toNat ∧ c.toNat < 0x7F) :
    (ofChars cs).any p = false := by
  rw [List.any_eq_false]
  intro c hc
  obtain ⟨d, hd, rfl⟩ := List.mem_map.mp hc
  rw [hp d (h d hd).1 (h d hd).2]
  exact Bool.false_ne_true

theorem any_ofString {s : String}
    (h : (s.toList.all fun c => 0x20 ≤ c.toNat && c.toNat < 0x7F) = true) :
    (ofString s).any p = false := by
  refine any_ofChars hp fun c hc => ?_
  simpa using List.all_eq_true.mp h c hc

theorem any_digits {cs : List Char} (h : ∀ c ∈ cs, c.isDigit = true) : (ofChars cs).any p = false := by
  refine any_ofChars hp fun c hc => ?_
  have hdigit := h c hc
  simp only [Char.isDigit, Bool.and_eq_true, decide_eq_true_eq, ge_iff_le, UInt32.le_iff_toNat_le]
    at hdigit
  exact ⟨Nat.le_trans (by decide) hdigit.1, Nat.lt_of_le_of_lt hdigit.2 (by decide)⟩

theorem any_ofNat (n : Nat) : (ofNat n).any p = false :=
  any_digits hp fun _ hc => Nat.isDigit_of_mem_toDigits (by norm_num) (by norm_num) hc

theorem any_ofInt (n : Int) : (ofInt n).any p = false := by
  cases n with
  | ofNat n => exact any_ofNat hp n
  | negSucc n => rw [ofInt, List.any_cons, any_ofNat hp, hp '-' (by decide) (by decide)]; rfl

theorem any_zeros (n : Nat) : (ofChars (List.replicate n '0')).any p = false :=
  any_digits hp fun _ hc => by rw [List.eq_of_mem_replicate hc]; rfl

end Text

namespace Binary64

theorem Digits.any_text {d : Digits} (h : ∀ c ∈ d.digits, c.isDigit = true) :
    d.text.any p = false := by
  have htake := fun n => Text.any_digits hp fun c hc => h c (List.mem_of_mem_take (i := n) hc)
  have hdrop := fun n => Text.any_digits hp fun c hc => h c (List.mem_of_mem_drop (i := n) hc)
  have hpoint := hp '.' (by decide) (by decide)
  have hzero := hp '0' (by decide) (by decide)
  have hexponent : (exponentText d.exponent).any p = false := by
    have hsign : List.any (if d.exponent < 0 then "-" else "+" : Text) p = false := by
      split <;> exact Text.any_ofString hp (by decide)
    have hdigits : (Text.padded 2 d.exponent.natAbs).any p = false := by
      rw [Text.padded, Text.ofChars_append, List.any_append, Text.any_zeros hp]
      exact Text.any_ofNat hp _
    simp [exponentText, Text.concat, hsign, hdigits]
  unfold text
  split
  · dsimp only [positional]
    split_ifs <;> simp [Text.any_digits hp h, Text.any_zeros hp, htake, hdrop, hpoint, hzero]
  · have hpointed : List.any (if (d.digits.drop 1).isEmpty then []
        else Text.ofChars ('.' :: d.digits.drop 1)) p = false := by
      split
      · rfl
      · rw [Text.ofChars_cons, List.any_cons, hdrop, hpoint]; rfl
    have he : (Text.ofString "e").any p = false := Text.any_ofString hp (by decide)
    simp only [scientific, Text.concat, List.flatten_cons, List.flatten_nil, List.any_append,
      htake, hpointed, he, hexponent, List.any_nil, Bool.or_false]

theorem any_text (x : Binary64) : (x.text "Infinity" "NaN").any p = false := by
  have hsign : ∀ negative, (signText negative).any p = false := by
    intro negative
    cases negative
    · rfl
    · exact Text.any_ofString hp (by decide)
  obtain ⟨negative, m, e, fits⟩ | negative | _ := x
  · have hmagnitude : List.any (if m = 0 then ("0.0" : Text) else (shortest m e).text) p = false := by
      split
      · exact Text.any_ofString hp (by decide)
      · next hm =>
        obtain ⟨c, g, hs, hc, -⟩ := shortest_reaches fits (Nat.pos_of_ne_zero hm)
        rw [hs]
        exact Digits.any_text hp (Digits.ofScaled_proper hc g).decimal
    rw [text, List.any_append, hsign, hmagnitude]
    rfl
  · rw [text, List.any_append, hsign, Text.any_ofString hp (by decide)]
    rfl
  · exact Text.any_ofString hp (by decide)

end Binary64

end Unprintable

namespace Json

/-! ### The strings of a value -/

mutual

/-- The strings in a value, keys among them, in their order. -/
def strings : Json → List Text
  | string s => [s]
  | array vs => itemStrings vs
  | object es => entryStrings es
  | _ => []

/-- The strings in some items. -/
def itemStrings : List Json → List Text
  | [] => []
  | v :: vs => strings v ++ itemStrings vs

/-- The strings in some entries. -/
def entryStrings : Entries → List Text
  | [] => []
  | (k, v) :: es => k :: (strings v ++ entryStrings es)

end

/-- Whether a property is found in a string as it is written. -/
def foundIn (p : CodePoint → Bool) (s : Text) : Bool := (s.flatMap (escaped false)).any p

variable {p : CodePoint → Bool}

theorem any_quoted (hp : CodePoint.Unprintable p) (s : Text) :
    (quoted false s).any p = foundIn p s := by
  have hquote := hp '"' (by decide) (by decide)
  simp [quoted, Text.concat, Text.ofString, hquote, foundIn]

mutual

/-- A property is found in the text of a value if it is found in a string in the value. -/
theorem any_print (hp : CodePoint.Unprintable p) : ∀ v : Json,
    (print false v).any p = (strings v).any (foundIn p)
  | null => Text.any_ofString hp (by decide)
  | bool b => by cases b <;> exact Text.any_ofString hp (by decide)
  | int n => Text.any_ofInt hp n
  | float x => x.any_text hp
  | string s => by
    rw [print, any_quoted hp, strings, List.any_cons, List.any_nil, Bool.or_false]
  | array vs => by
    have hitems := any_printItems hp vs
    have hopen := hp '[' (by decide) (by decide)
    have hclose := hp ']' (by decide) (by decide)
    have hcomma : (Text.ofString ", ").any p = false := Text.any_ofString hp (by decide)
    rw [print, Text.concat, List.flatten_cons, List.flatten_cons, List.any_append, List.any_append,
      Text.any_joinWith hcomma, hitems]
    simp [Text.ofString, hopen, hclose, strings]
  | object es => by
    have hentries := any_printEntries hp es
    have hopen := hp '\x7b' (by decide) (by decide)
    have hclose := hp '\x7d' (by decide) (by decide)
    have hcomma : (Text.ofString ", ").any p = false := Text.any_ofString hp (by decide)
    rw [print, Text.concat, List.flatten_cons, List.flatten_cons, List.any_append, List.any_append,
      Text.any_joinWith hcomma, hentries]
    simp [Text.ofString, hopen, hclose, strings]

theorem any_printItems (hp : CodePoint.Unprintable p) : ∀ vs : List Json,
    ((printItems false vs).any fun t => t.any p) = (itemStrings vs).any (foundIn p)
  | [] => rfl
  | v :: vs => by
    rw [printItems, itemStrings, List.any_cons, List.any_append, any_print hp v, any_printItems hp vs]

theorem any_printEntries (hp : CodePoint.Unprintable p) : ∀ es : Entries,
    ((printEntries false es).any fun t => t.any p) = (entryStrings es).any (foundIn p)
  | [] => rfl
  | (k, v) :: es => by
    have hcolon : (Text.ofString ": ").any p = false := Text.any_ofString hp (by decide)
    rw [printEntries, entryStrings, List.any_cons, List.any_cons, List.any_append,
      any_printEntries hp es]
    simp [Text.concat, any_quoted hp, hcolon, any_print hp v, Bool.or_assoc]

end

end Json

end LabelBook
