import LabelBook.Proofs.Json.Printed

/-!
Values cut at a line end. The text of a value has a line end exactly when a string in it, be it a key,
has a break; and if it has one, its first line stops inside that string, so that reading the line ends
in a complaint. The induction follows the value: what stands before the string is read as usual.
-/

namespace LabelBook

/-! ### Line ends in the text of a value -/

theorem CodePoint.endsLine_unprintable : Unprintable endsLine := by
  intro c hlow hhigh
  have hbreak : (CodePoint.scalar c).isBreak = false := by
    simp only [isBreak, toNat, Bool.or_eq_false_iff, beq_eq_false_iff_ne]
    omega
  rw [endsLine_of_le (show 0x20 ≤ (CodePoint.scalar c).toNat from hlow), hbreak]

/-- Joined by commas, texts have a line end if one of them has. -/
theorem Text.hasLineEnd_joinWith (ts : List Text) :
    hasLineEnd (joinWith ", " ts) = ts.any hasLineEnd := any_joinWith rfl ts

namespace Json

/-- A control below U+0020 is escaped wherever it stands in a string. -/
theorem foundIn_control (s : Text) : foundIn (fun c => decide (c.toNat < 0x20)) s = false := by
  have hescaped : ∀ c : CodePoint, (escaped false c).any (fun d => decide (d.toNat < 0x20)) = false := by
    intro c
    unfold escaped
    split_ifs with h₁ h₂ h₃ h₄ h₅ h₆ h₇ h₈
    · rfl
    · rfl
    · rfl
    · rfl
    · rfl
    · rfl
    · rfl
    · have hc : c.toNat < 0x20 := by simpa using h₈
      rw [CodePoint.utf16Units, if_pos (by omega)]
      generalize c.toNat = n at hc
      interval_cases n <;> rfl
    · simpa using h₈
  rw [foundIn, List.any_flatMap]
  simp [hescaped]

/-- The text of a value has no control below U+0020. -/
theorem le_of_mem_print (v : Json) : ∀ c ∈ print false v, 0x20 ≤ c.toNat := by
  have hunprintable : CodePoint.Unprintable fun c => decide (c.toNat < 0x20) := fun c hlow _ =>
    decide_eq_false (Nat.not_lt.mpr hlow)
  have hnone : (print false v).any (fun c => decide (c.toNat < 0x20)) = false := by
    rw [any_print hunprintable, List.any_eq_false]
    exact fun s _ => by simp [foundIn_control s]
  intro c hc
  simpa using List.any_eq_false.mp hnone c hc

theorem foundIn_endsLine : foundIn CodePoint.endsLine = Text.hasBreak := funext hasLineEnd_flatMap

theorem hasLineEnd_quoted (s : Text) : Text.hasLineEnd (quoted false s) = s.hasBreak :=
  (any_quoted CodePoint.endsLine_unprintable s).trans (hasLineEnd_flatMap s)

/-- A value has a line end in its text if a string in it has a break. -/
theorem hasLineEnd_print (v : Json) :
    Text.hasLineEnd (print false v) = (strings v).any Text.hasBreak :=
  (any_print CodePoint.endsLine_unprintable v).trans (by rw [foundIn_endsLine])

theorem hasLineEnd_items (vs : List Json) :
    (printItems false vs).any Text.hasLineEnd = (itemStrings vs).any Text.hasBreak :=
  (any_printItems CodePoint.endsLine_unprintable vs).trans (by rw [foundIn_endsLine])

theorem hasLineEnd_entries (es : Entries) :
    (printEntries false es).any Text.hasLineEnd = (entryStrings es).any Text.hasBreak :=
  (any_printEntries CodePoint.endsLine_unprintable es).trans (by rw [foundIn_endsLine])

theorem hasBreak_escaped (c : CodePoint) : Text.hasBreak (escaped false c) = c.isBreak := by
  by_cases hc : c.isBreak = true
  · simp [escaped_of_isBreak hc]
  · have hend := hasLineEnd_escaped c
    rw [Bool.not_eq_true] at hc
    rw [hc, Text.hasLineEnd, List.any_eq_false] at hend
    rw [hc, Text.hasBreak, List.any_eq_false]
    intro d hd hbreak
    exact hend d hd (by rw [CodePoint.endsLine_of_le (CodePoint.le_of_isBreak hbreak), hbreak])

theorem foundIn_isBreak : foundIn CodePoint.isBreak = Text.hasBreak := by
  funext s
  rw [foundIn, List.any_flatMap]
  exact congrArg s.any (funext hasBreak_escaped)

/-- A value has a break in its text if a string in it has one. -/
theorem hasBreak_print (v : Json) :
    Text.hasBreak (print false v) = (strings v).any Text.hasBreak := by
  have hunprintable : CodePoint.Unprintable CodePoint.isBreak := by
    intro c hlow hhigh
    rw [← CodePoint.endsLine_of_le (show 0x20 ≤ (CodePoint.scalar c).toNat from hlow)]
    exact CodePoint.endsLine_unprintable c hlow hhigh
  exact (any_print hunprintable v).trans (by rw [foundIn_isBreak])

/-- The text of a value has no carriage return. -/
theorem return_not_mem_print (v : Json) : .scalar '\r' ∉ print false v := fun h =>
  absurd (le_of_mem_print v _ h) (by decide)

/-! ### Cutting at a line end -/

theorem items_error {item : Text → Except Fault (Json × Text)} {fuel : Nat} {done : List Json}
    {s : Text} {e : Fault} (h : item s = .error e) : items item (fuel + 1) done s = .error e := by
  rw [items, h]

theorem members_badKey {item : Text → Except Fault (Json × Text)} {fuel : Nat} {done : Entries}
    {s : Text} {e : Fault} (h : string? s = .error e) :
    members item (fuel + 1) done (.scalar '"' :: s) = .error e := by
  rw [members, h]

theorem members_badValue {item : Text → Except Fault (Json × Text)} {fuel : Nat} {done : Entries}
    {k tail : Text} {e : Fault} (h : item tail = .error e) (htail : skipGap tail = tail) :
    members item (fuel + 1) done (.scalar '"' :: (k.flatMap (escaped false) ++
        .scalar '"' :: .scalar ':' :: .scalar ' ' :: tail)) = .error e := by
  rw [members, string?_flatMap]
  simp only [skipGap_cons (by decide : isGap (.scalar ':') = false), skipGap_blank htail, h]

theorem firstLine_plain {c : Char} (h : (CodePoint.scalar c).endsLine = false) (t : Text) :
    Text.firstLine (.scalar c :: t) = .scalar c :: Text.firstLine t := Text.firstLine_cons h t

/-- The first line of a value's text has the same start. -/
theorem skipGap_firstLine {depth : Nat} {v : Json} (h : Readable depth v) (rest : Text) :
    skipGap (Text.firstLine (print false v ++ rest)) = Text.firstLine (print false v ++ rest) := by
  obtain ⟨c, t, ht, hc⟩ := print_starts h
  rw [ht, List.cons_append, Text.firstLine_cons hc.lineEnd, skipGap_cons hc.gap]

/-- The text of an entry is cut behind its key. -/
theorem firstLine_entry {k : Text} (hkey : k.hasBreak = false) (v : Json) (rest : Text) :
    Text.firstLine (Text.concat [quoted false k, ": ", print false v] ++ rest) =
      .scalar '"' :: (k.flatMap (escaped false) ++ .scalar '"' :: .scalar ':' :: .scalar ' ' ::
        Text.firstLine (print false v ++ rest)) := by
  have hquoted : Text.hasLineEnd (k.flatMap (escaped false)) = false := by
    rw [hasLineEnd_flatMap, hkey]
  rw [entry_text, firstLine_plain rfl, Text.firstLine_append hquoted, firstLine_plain rfl,
    firstLine_plain rfl, firstLine_plain rfl]

theorem hasLineEnd_entry (k : Text) (v : Json) :
    Text.hasLineEnd (Text.concat [quoted false k, ": ", print false v]) =
      (k.hasBreak || Text.hasLineEnd (print false v)) := by
  have hcolon : Text.hasLineEnd (Text.ofString ": ") = false := rfl
  simp [Text.concat, hasLineEnd_quoted, hcolon]

mutual

/-- A value whose text has a line end is cut inside a string. -/
theorem value_firstLine : ∀ (v : Json) {depth : Nat} (rest : Text), Readable depth v →
    Text.hasLineEnd (print false v) = true →
    ∃ what left, value depth (Text.firstLine (print false v ++ rest)) = .error (.complaint what left)
  | null, _, _, _, h => absurd h (by decide)
  | bool b, _, _, _, h => absurd h (by cases b <;> decide)
  | int n, _, _, _, h => absurd h (by simp [hasLineEnd_print, strings])
  | float x, _, _, _, h => absurd h (by simp [hasLineEnd_print, strings])
  | string s, depth, rest, _, h => by
    rw [print, hasLineEnd_quoted] at h
    obtain ⟨what, left, hs⟩ := string?_firstLine h (.scalar '"' :: rest)
    refine ⟨what, left, ?_⟩
    rw [print_string, firstLine_plain rfl]
    simp only [value, hs]
  | array [], _, _, _, h => absurd h (by decide)
  | array (v :: vs), depth, rest, hv, h => by
    obtain ⟨depth, rfl⟩ := Nat.exists_eq_succ_of_ne_zero hv.1.ne'
    obtain ⟨c, t, ht, hc⟩ := joined_starts hv.2
    have hline : Text.hasLineEnd (Text.joinWith ", " (printItems false (v :: vs))) = true := by
      rwa [hasLineEnd_print, strings, ← hasLineEnd_items, ← Text.hasLineEnd_joinWith] at h
    rw [print_array, firstLine_plain rfl]
    have hitems := fun fuel => items_firstLine (v :: vs) fuel [] (.scalar ']' :: rest) hv.2 hline
    rw [Nat.succ_sub_one] at hitems
    rw [ht, List.cons_append, Text.firstLine_cons hc.lineEnd] at hitems ⊢
    obtain ⟨what, left, h'⟩ := hitems ((Text.firstLine (t ++ .scalar ']' :: rest)).length + 2)
    simp only [value, arrayBody_items hc]
    exact ⟨what, left, by rw [h']; rfl⟩
  | object [], _, _, _, h => absurd h (by decide)
  | object ((k, v) :: es), depth, rest, hv, h => by
    obtain ⟨depth, rfl⟩ := Nat.exists_eq_succ_of_ne_zero hv.1.ne'
    obtain ⟨t, ht⟩ := joined_entries_start (k, v) es
    have hline : Text.hasLineEnd (Text.joinWith ", " (printEntries false ((k, v) :: es))) = true := by
      rwa [hasLineEnd_print, strings, ← hasLineEnd_entries, ← Text.hasLineEnd_joinWith] at h
    rw [print_object, firstLine_plain rfl]
    have hmembers := fun fuel =>
      members_firstLine ((k, v) :: es) fuel [] (.scalar '}' :: rest) hv.2.2
        (by simpa using hv.2.1) hline
    rw [Nat.succ_sub_one] at hmembers
    rw [ht, List.cons_append, firstLine_plain rfl] at hmembers ⊢
    obtain ⟨what, left, h'⟩ := hmembers ((Text.firstLine (t ++ .scalar '}' :: rest)).length + 2)
    simp only [value, objectBody_members]
    exact ⟨what, left, by rw [h']; rfl⟩

/-- Items whose texts have a line end are cut inside a string. -/
theorem items_firstLine : ∀ (vs : List Json) {depth : Nat} (fuel : Nat) (done : List Json)
    (rest : Text), ItemsReadable depth vs →
    Text.hasLineEnd (Text.joinWith ", " (printItems false vs)) = true →
    ∃ what left, items (value depth) fuel done
      (Text.firstLine (Text.joinWith ", " (printItems false vs) ++ rest)) =
        .error (.complaint what left)
  | _, _, 0, _, _, _, _ => ⟨_, _, rfl⟩
  | [], _, _ + 1, _, _, _, h => absurd h (by decide)
  | [v], depth, fuel + 1, done, rest, hv, h => by
    obtain ⟨what, left, h'⟩ := value_firstLine v rest hv.1 h
    exact ⟨what, left, items_error h'⟩
  | v :: w :: vs, depth, fuel + 1, done, rest, hv, h => by
    rw [joined_items] at h
    rw [joined_items, List.append_assoc]
    by_cases hline : Text.hasLineEnd (print false v) = true
    · obtain ⟨what, left, h'⟩ := value_firstLine v _ hv.1 hline
      exact ⟨what, left, items_error h'⟩
    · rw [Bool.not_eq_true] at hline
      rw [Text.hasLineEnd_append, hline, Bool.false_or] at h
      obtain ⟨what, left, h'⟩ := items_firstLine (w :: vs) fuel (v :: done) rest hv.2 h
      obtain ⟨c, t, ht, hc⟩ := joined_starts hv.2
      rw [Text.firstLine_append hline, List.cons_append, List.cons_append, firstLine_plain rfl,
        firstLine_plain rfl, items_cons (value_print v hv.1 (endsNumber_comma _))]
      · exact ⟨what, left, h'⟩
      · rw [ht, List.cons_append, Text.firstLine_cons hc.lineEnd, skipGap_cons hc.gap]

/-- Entries whose texts have a line end are cut inside a string. -/
theorem members_firstLine : ∀ (es : Entries) {depth : Nat} (fuel : Nat) (done : Entries)
    (rest : Text), EntriesReadable depth es → ((done ++ es).map Prod.fst).Nodup →
    Text.hasLineEnd (Text.joinWith ", " (printEntries false es)) = true →
    ∃ what left, members (value depth) fuel done
      (Text.firstLine (Text.joinWith ", " (printEntries false es) ++ rest)) =
        .error (.complaint what left)
  | _, _, 0, _, _, _, _, _ => ⟨_, _, rfl⟩
  | [], _, _ + 1, _, _, _, _, h => absurd h (by decide)
  | (k, v) :: es, depth, fuel + 1, done, rest, hv, hkeys, h => by
    obtain ⟨more, hmore⟩ : ∃ more, Text.joinWith ", " (printEntries false ((k, v) :: es)) =
        Text.concat [quoted false k, ": ", print false v] ++ more := by
      cases es with
      | nil => exact ⟨[], (List.append_nil _).symm⟩
      | cons e es => exact ⟨_, List.append_assoc _ _ _⟩
    by_cases hkey : k.hasBreak = true
    · obtain ⟨what, left, h'⟩ := string?_firstLine hkey
        (.scalar '"' :: .scalar ':' :: .scalar ' ' :: (print false v ++ (more ++ rest)))
      rw [hmore, List.append_assoc, entry_text, firstLine_plain rfl]
      exact ⟨what, left, members_badKey h'⟩
    · rw [Bool.not_eq_true] at hkey
      by_cases hline : Text.hasLineEnd (print false v) = true
      · obtain ⟨what, left, h'⟩ := value_firstLine v (more ++ rest) hv.1 hline
        rw [hmore, List.append_assoc, firstLine_entry hkey]
        exact ⟨what, left, members_badValue h' (skipGap_firstLine hv.1 _)⟩
      · rw [Bool.not_eq_true] at hline
        have hentry : Text.hasLineEnd (Text.concat [quoted false k, ": ", print false v]) = false := by
          rw [hasLineEnd_entry, hkey, hline, Bool.or_false]
        cases es with
        | nil =>
          rw [printEntries, printEntries, Text.joinWith, hentry] at h
          exact absurd h (by decide)
        | cons e es =>
          obtain ⟨t, ht⟩ := joined_entries_start e es
          rw [joined_entries, Text.hasLineEnd_append, hentry, Bool.false_or] at h
          obtain ⟨what, left, h'⟩ := members_firstLine (e :: es) fuel (done ++ [(k, v)]) rest hv.2
            (by simpa using hkeys) h
          have hgap : skipGap (Text.firstLine (Text.joinWith ", " (printEntries false (e :: es)) ++
              rest)) = Text.firstLine (Text.joinWith ", " (printEntries false (e :: es)) ++ rest) := by
            rw [ht, List.cons_append, firstLine_plain rfl, skipGap_cons (by decide)]
          rw [joined_entries, List.append_assoc, firstLine_entry hkey, Text.firstLine_append hline,
            List.cons_append,
            List.cons_append, firstLine_plain rfl, firstLine_plain rfl,
            members_cons (value_print v hv.1 (endsNumber_comma _)) (skipGap_print hv.1 _) hgap,
            put_of_not_mem (key_not_mem hkeys)]
          exact ⟨what, left, h'⟩

end

/-! ### Whole texts -/

/-- A text that starts as a value does has no byte order mark. -/
theorem ofUnmarkedText_starts {c : CodePoint} (hc : Starts c) (t : Text) :
    ofUnmarkedText (c :: t) = ofText (c :: t) := by
  unfold ofUnmarkedText
  split
  · next heq => exact absurd (List.cons.inj heq).1 hc.mark
  · rfl

/-- A value is read back from its text. -/
theorem parse_print {v : Json} (h : Readable maxDepth v) : parse (print false v) = .ok v := by
  have hvalue := value_print v h endsNumber_nil
  obtain ⟨c, t, ht, hc⟩ := print_starts h
  rw [List.append_nil, ht] at hvalue
  rw [ht, parse, ofUnmarkedText_starts hc, ofText, skipGap_cons hc.gap, hvalue]
  rfl

/-- The first line of a value's text is malformed if it is not the whole text. -/
theorem parse_firstLine {v : Json} (h : Readable maxDepth v)
    (hline : Text.hasLineEnd (print false v) = true) :
    ∃ what position line column, parse (Text.firstLine (print false v)) =
      .error (.malformed what position line column) := by
  obtain ⟨what, left, hvalue⟩ := value_firstLine v [] h hline
  obtain ⟨c, t, ht, hc⟩ := print_starts h
  rw [List.append_nil, ht, Text.firstLine_cons hc.lineEnd] at hvalue
  rw [ht, Text.firstLine_cons hc.lineEnd, parse, ofUnmarkedText_starts hc, ofText,
    skipGap_cons hc.gap, hvalue]
  exact ⟨_, _, _, _, rfl⟩

end Json

end LabelBook
