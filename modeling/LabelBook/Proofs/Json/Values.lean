import LabelBook.Proofs.Json.Numbers
import LabelBook.Proofs.Json.Strings

/-!
Reading the values that have been written. A value is read back from its text, with whatever follows
it left over, if its numbers have a spelling, the keys of each of its objects differ, and it is not
nested too deep. The induction is on the value; the items of an array and the entries of an object are
read one by one from the texts that are joined.
-/

namespace LabelBook.Json

mutual

/-- Whether a value is read back from its text when it may be nested `depth` levels deep. -/
def Readable (depth : Nat) : Json → Prop
  | int n => digitCount n.natAbs ≤ maxDigits
  | float x => x.isFinite = true
  | array vs => 0 < depth ∧ ItemsReadable (depth - 1) vs
  | object es => 0 < depth ∧ (es.map Prod.fst).Nodup ∧ EntriesReadable (depth - 1) es
  | _ => True

/-- Whether all items are read back from their texts. -/
def ItemsReadable (depth : Nat) : List Json → Prop
  | [] => True
  | v :: vs => Readable depth v ∧ ItemsReadable depth vs

/-- Whether the values of all entries are read back from their texts. -/
def EntriesReadable (depth : Nat) : Entries → Prop
  | [] => True
  | (_, v) :: es => Readable depth v ∧ EntriesReadable depth es

end

/-! ### Words and numbers -/

theorem number?_head {negative : Bool} {s : Text} {r : Json × Text}
    (h : number? negative s = .ok (some r)) : ∃ c t, s = c :: t ∧ c.isDigit = true := by
  have hne : (wholeDigits s).1 ≠ [] := by
    intro h0
    unfold number? at h
    simp only [h0, List.isEmpty_nil, if_true] at h
    simp at h
  unfold wholeDigits at hne
  split at hne
  · exact ⟨_, _, rfl, rfl⟩
  · cases s with
    | nil => simp at hne
    | cons c t =>
      refine ⟨c, t, rfl, ?_⟩
      by_contra hc
      simp [hc] at hne

theorem ne_of_isDigit {c : CodePoint} {d : Char} (hc : c.isDigit = true) (hd : d.isDigit = false) :
    CodePoint.scalar d ≠ c := by
  rintro rfl
  rw [CodePoint.isDigit, hd] at hc
  exact absurd hc (by decide)

/-- No word starts with a digit, or with a minus in front of one. -/
theorem noWord {c : CodePoint} (hc : c.isDigit = true) (t : Text) :
    (words.findSome? fun w => (Text.dropStart? (c :: t) w.1).map fun rest => (w.2, rest)) = none ∧
      (words.findSome? fun w =>
        (Text.dropStart? (.scalar '-' :: c :: t) w.1).map fun rest => (w.2, rest)) = none := by
  have hne := fun d hd => ne_of_isDigit (d := d) hc hd
  constructor <;>
    simp [words, Text.ofString, Text.dropStart?, hne 'n' rfl, hne 't' rfl, hne 'f' rfl, hne 'N' rfl,
      hne 'I' rfl, hne '-' rfl]

theorem scalar_number {s : Text} {r : Json × Text} (h : number? false s = .ok (some r)) :
    scalar s = .ok r := by
  obtain ⟨c, t, rfl, hc⟩ := number?_head h
  have hminus : ∀ rest, c :: t = .scalar '-' :: rest → False := by
    intro rest heq
    exact ne_of_isDigit (d := '-') hc rfl (List.cons.inj heq).1.symm
  simp only [scalar, (noWord hc t).1, h]

theorem scalar_negative {s : Text} {r : Json × Text} (h : number? true s = .ok (some r)) :
    scalar (.scalar '-' :: s) = .ok r := by
  obtain ⟨c, t, rfl, hc⟩ := number?_head h
  simp only [scalar, (noWord hc t).2, h]

/-- A number is read where a value is asked for. -/
theorem value_number {depth : Nat} {s : Text} {r : Json × Text} (h : number? false s = .ok (some r)) :
    value depth s = .ok r := by
  obtain ⟨c, t, rfl, hc⟩ := number?_head h
  rw [← scalar_number h]
  have hne := fun d hd => ne_of_isDigit (d := d) hc hd
  unfold value
  split
  · next heq => exact absurd (List.cons.inj heq).1.symm (hne '"' rfl)
  · next heq => exact absurd (List.cons.inj heq).1.symm (hne '[' rfl)
  · next heq => exact absurd (List.cons.inj heq).1.symm (hne '{' rfl)
  · rfl

theorem value_negative {depth : Nat} {s : Text} {r : Json × Text}
    (h : number? true s = .ok (some r)) : value depth (.scalar '-' :: s) = .ok r := by
  rw [← scalar_negative h]
  unfold value
  rfl

/-- The digits of a natural number are a whole part. -/
theorem whole_toDigits (n : Nat) : Whole (Nat.toDigits 10 n) := by
  refine ⟨Nat.toDigits_ne_nil, fun c hc => ?_, ?_⟩
  · exact Nat.isDigit_of_mem_toDigits (by norm_num) (by norm_num) hc
  · rcases Nat.eq_zero_or_pos n with rfl | hn
    · exact Or.inl rfl
    · exact Or.inr (toDigits_head hn)

theorem value_int {depth : Nat} {n : Int} {rest : Text} (hn : digitCount n.natAbs ≤ maxDigits)
    (h : EndsNumber rest) : value depth (Text.ofInt n ++ rest) = .ok (.int n, rest) := by
  have hread : ∀ negative, number? negative (Text.ofChars (Nat.toDigits 10 n.natAbs) ++ rest) = _ :=
    fun negative => number?_int negative (whole_toDigits n.natAbs) hn h
  rw [Nat.ofDigitChars_ten_toDigits] at hread
  cases n with
  | ofNat n => exact value_number (hread false)
  | negSucc n => exact value_negative (hread true)

theorem value_float {depth : Nat} {x : Binary64} {rest : Text} (hx : x.isFinite = true)
    (h : EndsNumber rest) :
    value depth (x.text "Infinity" "NaN" ++ rest) = .ok (.float x, rest) := by
  obtain ⟨negative, m, e, fits⟩ | _ | _ := x
  · cases negative with
    | false => exact value_number (number?_magnitude _ fits h)
    | true => exact value_negative (number?_magnitude _ fits h)
  · exact absurd hx (by simp [Binary64.isFinite])
  · exact absurd hx (by simp [Binary64.isFinite])

/-! ### Starts of texts -/

/-- What the text of a value starts with. -/
structure Starts (c : CodePoint) : Prop where
  gap : isGap c = false
  bracket : c ≠ .scalar ']'
  mark : c ≠ .scalar '\uFEFF'
  lineEnd : c.endsLine = false

theorem starts_digit {c : CodePoint} (hc : c.isDigit = true) : Starts c := by
  have hne := fun d hd => (ne_of_isDigit (d := d) hc hd).symm
  refine ⟨by simp [isGap, hne ' ' rfl, hne '\n' rfl, hne '\t' rfl, hne '\r' rfl], hne ']' rfl,
    hne '\uFEFF' rfl, ?_⟩
  cases c with
  | lone n => exact absurd hc (by simp [CodePoint.isDigit])
  | scalar c =>
    simp only [CodePoint.isDigit, Char.isDigit, Bool.and_eq_true, decide_eq_true_eq, ge_iff_le,
      UInt32.le_iff_toNat_le] at hc
    have low : 0x30 ≤ c.toNat := hc.1
    have high : c.toNat ≤ 0x39 := hc.2
    rw [CodePoint.endsLine_of_le (by rw [CodePoint.toNat]; omega)]
    simp [CodePoint.isBreak, CodePoint.toNat]
    omega

theorem starts_of_number? {negative : Bool} {s : Text} {r : Json × Text}
    (h : number? negative (s ++ []) = .ok (some r)) : ∃ c t, s = c :: t ∧ Starts c := by
  rw [List.append_nil] at h
  obtain ⟨c, t, rfl, hc⟩ := number?_head h
  exact ⟨c, t, rfl, starts_digit hc⟩

theorem starts_char {c : Char} (h : c ∈ ['n', 't', 'f', '-', '"', '[', '{']) : Starts (.scalar c) := by
  simp only [List.mem_cons, List.not_mem_nil, or_false] at h
  rcases h with rfl | rfl | rfl | rfl | rfl | rfl | rfl <;> constructor <;> decide

/-- The text of a value that is read back has a start. -/
theorem print_starts {depth : Nat} {v : Json} (h : Readable depth v) :
    ∃ c t, print false v = c :: t ∧ Starts c := by
  cases v with
  | null => exact ⟨_, _, rfl, starts_char (by decide)⟩
  | bool b => cases b <;> exact ⟨_, _, rfl, starts_char (by decide)⟩
  | int n =>
    have hread := number?_int false (whole_toDigits n.natAbs) h endsNumber_nil
    cases n with
    | ofNat n => exact starts_of_number? hread
    | negSucc n => exact ⟨_, _, rfl, starts_char (by decide)⟩
  | float x =>
    obtain ⟨negative, m, e, fits⟩ | _ | _ := x
    · cases negative with
      | false => exact starts_of_number? (number?_magnitude false fits endsNumber_nil)
      | true => exact ⟨_, _, rfl, starts_char (by decide)⟩
    · exact absurd h (by simp [Readable, Binary64.isFinite])
    · exact absurd h (by simp [Readable, Binary64.isFinite])
  | string s => exact ⟨_, _, rfl, starts_char (by decide)⟩
  | array vs => exact ⟨_, _, rfl, starts_char (by decide)⟩
  | object es => exact ⟨_, _, rfl, starts_char (by decide)⟩

theorem skipGap_cons {c : CodePoint} (h : isGap c = false) (t : Text) : skipGap (c :: t) = c :: t := by
  simp [skipGap, h]

theorem skipGap_print {depth : Nat} {v : Json} (h : Readable depth v) (rest : Text) :
    skipGap (print false v ++ rest) = print false v ++ rest := by
  obtain ⟨c, t, ht, hc⟩ := print_starts h
  rw [ht, List.cons_append, skipGap_cons hc.gap]

/-! ### Texts of arrays and objects -/

theorem print_string (s rest : Text) :
    print false (string s) ++ rest =
      .scalar '"' :: (s.flatMap (escaped false) ++ .scalar '"' :: rest) := by
  simp [print, quoted, Text.concat, Text.ofString]

theorem print_array (vs : List Json) (rest : Text) :
    print false (array vs) ++ rest =
      .scalar '[' :: (Text.joinWith ", " (printItems false vs) ++ .scalar ']' :: rest) := by
  simp [print, Text.concat, Text.ofString]

theorem print_object (es : Entries) (rest : Text) :
    print false (object es) ++ rest =
      .scalar '{' :: (Text.joinWith ", " (printEntries false es) ++ .scalar '}' :: rest) := by
  simp [print, Text.concat, Text.ofString]

/-- The text of an entry. -/
theorem entry_text (k : Text) (v : Json) (rest : Text) :
    Text.concat [quoted false k, ": ", print false v] ++ rest =
      .scalar '"' :: (k.flatMap (escaped false) ++
        .scalar '"' :: .scalar ':' :: .scalar ' ' :: (print false v ++ rest)) := by
  simp [quoted, Text.concat, Text.ofString]

theorem joined_items (v w : Json) (vs : List Json) :
    Text.joinWith ", " (printItems false (v :: w :: vs)) = print false v ++
      .scalar ',' :: .scalar ' ' :: Text.joinWith ", " (printItems false (w :: vs)) := by
  rw [printItems, printItems, Text.joinWith_cons_cons, List.append_assoc]
  rfl

theorem joined_entries (k : Text) (v : Json) (e : Text × Json) (es : Entries) :
    Text.joinWith ", " (printEntries false ((k, v) :: e :: es)) =
      Text.concat [quoted false k, ": ", print false v] ++
        .scalar ',' :: .scalar ' ' :: Text.joinWith ", " (printEntries false (e :: es)) := by
  rw [printEntries, printEntries, Text.joinWith_cons_cons, List.append_assoc]
  rfl

/-- The text of entries starts with the quote of a key. -/
theorem joined_entries_start (e : Text × Json) (es : Entries) :
    ∃ t, Text.joinWith ", " (printEntries false (e :: es)) = .scalar '"' :: t := by
  cases es <;> exact ⟨_, rfl⟩

theorem endsNumber_comma (rest : Text) : EndsNumber (.scalar ',' :: rest) :=
  endsNumber_cons rfl (by decide) (by decide) (by decide) rest

theorem endsNumber_bracket (rest : Text) : EndsNumber (.scalar ']' :: rest) :=
  endsNumber_cons rfl (by decide) (by decide) (by decide) rest

theorem endsNumber_brace (rest : Text) : EndsNumber (.scalar '}' :: rest) :=
  endsNumber_cons rfl (by decide) (by decide) (by decide) rest

/-! ### Values -/

/-- Putting a key that is not there appends it. -/
theorem put_of_not_mem {k : Text} {v : Json} : ∀ {es : Entries}, k ∉ es.map Prod.fst →
    es.put k v = es ++ [(k, v)]
  | [], _ => rfl
  | (l, w) :: es, h => by
    obtain ⟨hl, hes⟩ : k ≠ l ∧ k ∉ es.map Prod.fst := by simpa using h
    rw [Entries.put, if_neg hl.symm, put_of_not_mem hes, List.cons_append]

theorem key_not_mem {done es : Entries} {k : Text} {v : Json}
    (h : ((done ++ (k, v) :: es).map Prod.fst).Nodup) : k ∉ done.map Prod.fst := by
  rw [List.map_append, List.map_cons, List.nodup_append] at h
  exact fun hk => h.2.2 k hk k List.mem_cons_self rfl

theorem skipGap_blank {s : Text} (h : skipGap s = s) : skipGap (.scalar ' ' :: s) = s := by
  simpa [skipGap, isGap] using h

/-- Reads one item with what follows it. -/
theorem items_cons {item : Text → Except Fault (Json × Text)} {fuel : Nat} {done : List Json}
    {s rest : Text} {v : Json} (h : item s = .ok (v, .scalar ',' :: .scalar ' ' :: rest))
    (hrest : skipGap rest = rest) :
    items item (fuel + 1) done s = items item fuel (v :: done) rest := by
  rw [items, h]
  simp only [skipGap_cons (by decide : isGap (.scalar ',') = false), skipGap_blank hrest]

theorem items_last {item : Text → Except Fault (Json × Text)} {fuel : Nat} {done : List Json}
    {s rest : Text} {v : Json} (h : item s = .ok (v, .scalar ']' :: rest)) :
    items item (fuel + 1) done s = .ok ((v :: done).reverse, rest) := by
  rw [items, h]
  simp only [skipGap_cons (by decide : isGap (.scalar ']') = false)]

/-- Reads one entry with what follows it. -/
theorem members_cons {item : Text → Except Fault (Json × Text)} {fuel : Nat} {done : Entries}
    {k tail rest : Text} {v : Json} (hitem : item tail = .ok (v, .scalar ',' :: .scalar ' ' :: rest))
    (htail : skipGap tail = tail) (hrest : skipGap rest = rest) :
    members item (fuel + 1) done (.scalar '"' :: (k.flatMap (escaped false) ++
        .scalar '"' :: .scalar ':' :: .scalar ' ' :: tail)) =
      members item fuel (done.put k v) rest := by
  rw [members, string?_flatMap]
  simp only [skipGap_cons (by decide : isGap (.scalar ':') = false), skipGap_blank htail, hitem,
    skipGap_cons (by decide : isGap (.scalar ',') = false), skipGap_blank hrest]

theorem members_last {item : Text → Except Fault (Json × Text)} {fuel : Nat} {done : Entries}
    {k tail rest : Text} {v : Json} (hitem : item tail = .ok (v, .scalar '}' :: rest))
    (htail : skipGap tail = tail) :
    members item (fuel + 1) done (.scalar '"' :: (k.flatMap (escaped false) ++
        .scalar '"' :: .scalar ':' :: .scalar ' ' :: tail)) = .ok (done.put k v, rest) := by
  rw [members, string?_flatMap]
  simp only [skipGap_cons (by decide : isGap (.scalar ':') = false), skipGap_blank htail, hitem,
    skipGap_cons (by decide : isGap (.scalar '}') = false)]

theorem length_le_joinWith (separator : Text) : ∀ {ts : List Text}, (∀ t ∈ ts, t ≠ []) →
    ts.length ≤ (Text.joinWith separator ts).length
  | [], _ => Nat.zero_le _
  | [t], h => List.length_pos_of_ne_nil (h t List.mem_cons_self)
  | t :: u :: ts, h => by
    have ht := List.length_pos_of_ne_nil (h t List.mem_cons_self)
    have hts := length_le_joinWith separator fun s hs => h s (List.mem_cons_of_mem t hs)
    rw [Text.joinWith_cons_cons]
    simp only [List.length_append, List.length_cons] at hts ⊢
    omega

theorem length_printItems (vs : List Json) : (printItems false vs).length = vs.length := by
  induction vs with
  | nil => rfl
  | cons v vs ih => rw [printItems, List.length_cons, List.length_cons, ih]

theorem length_printEntries (es : Entries) : (printEntries false es).length = es.length := by
  induction es with
  | nil => rfl
  | cons e es ih => rw [printEntries, List.length_cons, List.length_cons, ih]

theorem length_items {depth : Nat} {vs : List Json} (h : ItemsReadable depth vs) :
    vs.length ≤ (Text.joinWith ", " (printItems false vs)).length := by
  have hne : ∀ t ∈ printItems false vs, t ≠ [] := by
    intro t ht
    induction vs with
    | nil => simp [printItems] at ht
    | cons v vs ih =>
      rcases List.mem_cons.mp ht with rfl | ht
      · obtain ⟨c, s, hs, -⟩ := print_starts h.1
        rw [hs]
        exact List.cons_ne_nil c s
      · exact ih h.2 ht
  exact length_printItems vs ▸ length_le_joinWith _ hne

theorem length_entries (es : Entries) :
    es.length ≤ (Text.joinWith ", " (printEntries false es)).length := by
  have hne : ∀ t ∈ printEntries false es, t ≠ [] := by
    intro t ht
    induction es with
    | nil => simp [printEntries] at ht
    | cons e es ih =>
      rcases List.mem_cons.mp ht with rfl | ht
      · simp [quoted, Text.concat, Text.ofString]
      · exact ih ht
  exact length_printEntries es ▸ length_le_joinWith _ hne

theorem joined_starts {depth : Nat} {v : Json} {vs : List Json} (h : ItemsReadable depth (v :: vs)) :
    ∃ c t, Text.joinWith ", " (printItems false (v :: vs)) = c :: t ∧ Starts c := by
  obtain ⟨c, t, ht, hc⟩ := print_starts h.1
  cases vs with
  | nil => exact ⟨c, t, by rw [printItems, printItems, Text.joinWith, ht], hc⟩
  | cons w vs => exact ⟨c, _, by rw [joined_items, ht]; rfl, hc⟩

theorem arrayBody_items {c : CodePoint} (hc : Starts c) (item : Text → Except Fault (Json × Text))
    (t : Text) : arrayBody item (c :: t) =
      (items item (t.length + 2) [] (c :: t)).map fun r => (array r.1, r.2) := by
  have hne : ∀ rest, c :: t = .scalar ']' :: rest → False := fun _ h => hc.bracket (List.cons.inj h).1
  simp only [arrayBody, skipGap_cons hc.gap, List.length_cons]
  cases items item (t.length + 2) [] (c :: t) <;> rfl

theorem objectBody_members (item : Text → Except Fault (Json × Text)) (t : Text) :
    objectBody item (.scalar '"' :: t) =
      (members item (t.length + 2) [] (.scalar '"' :: t)).map fun r => (object r.1, r.2) := by
  have hne : ∀ rest, CodePoint.scalar '"' :: t = .scalar '}' :: rest → False := by
    intro rest h
    exact absurd (List.cons.inj h).1 (by decide)
  simp only [objectBody, skipGap_cons (by decide : isGap (.scalar '"') = false), List.length_cons]
  cases members item (t.length + 2) [] (.scalar '"' :: t) <;> rfl

mutual

/-- A value is read back from its text, and what follows is left over. -/
theorem value_print : ∀ (v : Json) {depth : Nat} {rest : Text}, Readable depth v → EndsNumber rest →
    value depth (print false v ++ rest) = .ok (v, rest)
  | null, _, _, _, _ => by
    simp [print, value, scalar, words, Text.ofString, Text.dropStart?]
  | bool b, _, _, _, _ => by
    cases b <;> simp [print, value, scalar, words, Text.ofString, Text.dropStart?]
  | int _, _, _, h, hrest => value_int h hrest
  | float _, _, _, h, hrest => value_float h hrest
  | string s, _, rest, _, _ => by
    rw [print_string]
    unfold value
    simp only [string?_flatMap]
  | array [], depth, rest, h, _ => by
    obtain ⟨depth, rfl⟩ := Nat.exists_eq_succ_of_ne_zero h.1.ne'
    rfl
  | array (v :: vs), depth, rest, h, _ => by
    obtain ⟨depth, rfl⟩ := Nat.exists_eq_succ_of_ne_zero h.1.ne'
    obtain ⟨c, t, ht, hc⟩ := joined_starts h.2
    have hfuel := length_items h.2
    have hitems := items_print (v :: vs) ((t ++ .scalar ']' :: rest).length + 2) [] rest
      (List.cons_ne_nil v vs) h.2 (by rw [ht] at hfuel; simp at hfuel ⊢; omega)
    rw [print_array]
    rw [Nat.succ_sub_one] at hitems
    rw [ht, List.cons_append] at hitems ⊢
    simp only [value, arrayBody_items hc, hitems]
    rfl
  | object [], depth, rest, h, _ => by
    obtain ⟨depth, rfl⟩ := Nat.exists_eq_succ_of_ne_zero h.1.ne'
    rfl
  | object ((k, v) :: es), depth, rest, h, _ => by
    obtain ⟨depth, rfl⟩ := Nat.exists_eq_succ_of_ne_zero h.1.ne'
    have hfuel := length_entries ((k, v) :: es)
    obtain ⟨t, ht⟩ : ∃ t, Text.joinWith ", " (printEntries false ((k, v) :: es)) =
        .scalar '"' :: t := by
      cases es <;> exact ⟨_, rfl⟩
    have hmembers := members_print ((k, v) :: es) ((t ++ .scalar '}' :: rest).length + 2) [] rest
      (List.cons_ne_nil _ es) h.2.2 (by simpa using h.2.1)
      (by rw [ht] at hfuel; simp at hfuel ⊢; omega)
    rw [print_object]
    rw [Nat.succ_sub_one] at hmembers
    rw [ht, List.cons_append] at hmembers ⊢
    simp only [value, objectBody_members, hmembers]
    rfl

/-- The items of an array are read back one by one. -/
theorem items_print : ∀ (vs : List Json) {depth : Nat} (fuel : Nat) (done : List Json) (rest : Text),
    vs ≠ [] → ItemsReadable depth vs → vs.length ≤ fuel →
    items (value depth) fuel done (Text.joinWith ", " (printItems false vs) ++ .scalar ']' :: rest) =
      .ok (done.reverse ++ vs, rest)
  | [], _, _, _, _, hne, _, _ => absurd rfl hne
  | _ :: _, _, 0, _, _, _, _, hfuel => absurd hfuel (Nat.not_succ_le_zero _)
  | [v], depth, fuel + 1, done, rest, _, h, _ => by
    have hv := value_print v h.1 (endsNumber_bracket rest)
    rw [printItems, printItems, Text.joinWith, items_last hv, List.reverse_cons]
  | v :: w :: vs, depth, fuel + 1, done, rest, _, h, hfuel => by
    obtain ⟨c, t, ht, hc⟩ := joined_starts h.2
    have hrest := items_print (w :: vs) fuel (v :: done) rest (List.cons_ne_nil w vs) h.2
      (Nat.le_of_succ_le_succ hfuel)
    have htext : Text.joinWith ", " (printItems false (v :: w :: vs)) ++ .scalar ']' :: rest =
        print false v ++ .scalar ',' :: .scalar ' ' :: (c :: (t ++ .scalar ']' :: rest)) := by
      rw [joined_items, ht, List.append_assoc]
      rfl
    rw [htext, items_cons (value_print v h.1 (endsNumber_comma _)) (skipGap_cons hc.gap _)]
    rw [ht, List.cons_append] at hrest
    rw [hrest, List.reverse_cons, List.append_assoc, List.singleton_append]

/-- The entries of an object are read back one by one. -/
theorem members_print : ∀ (es : Entries) {depth : Nat} (fuel : Nat) (done : Entries) (rest : Text),
    es ≠ [] → EntriesReadable depth es → ((done ++ es).map Prod.fst).Nodup → es.length ≤ fuel →
    members (value depth) fuel done (Text.joinWith ", " (printEntries false es) ++ .scalar '}' :: rest) =
      .ok (done ++ es, rest)
  | [], _, _, _, _, hne, _, _, _ => absurd rfl hne
  | _ :: _, _, 0, _, _, _, _, _, hfuel => absurd hfuel (Nat.not_succ_le_zero _)
  | [(k, v)], depth, fuel + 1, done, rest, _, h, hkeys, _ => by
    have hput : done.put k v = done ++ [(k, v)] := put_of_not_mem (key_not_mem hkeys)
    rw [printEntries, printEntries, Text.joinWith, entry_text,
      members_last (value_print v h.1 (endsNumber_brace rest)) (skipGap_print h.1 _), hput]
  | (k, v) :: (l, w) :: es, depth, fuel + 1, done, rest, _, h, hkeys, hfuel => by
    have hput : done.put k v = done ++ [(k, v)] := put_of_not_mem (key_not_mem hkeys)
    obtain ⟨t, ht⟩ := joined_entries_start (l, w) es
    have hrest := members_print ((l, w) :: es) fuel (done ++ [(k, v)]) rest
      (List.cons_ne_nil _ es) h.2 (by simpa using hkeys) (Nat.le_of_succ_le_succ hfuel)
    have htext : Text.joinWith ", " (printEntries false ((k, v) :: (l, w) :: es)) ++
        .scalar '}' :: rest = Text.concat [quoted false k, ": ", print false v] ++
          .scalar ',' :: .scalar ' ' :: (.scalar '"' :: (t ++ .scalar '}' :: rest)) := by
      rw [joined_entries, ht, List.append_assoc]
      rfl
    rw [ht, List.cons_append] at hrest
    rw [htext, entry_text, members_cons (value_print v h.1 (endsNumber_comma _))
      (skipGap_print h.1 _) (skipGap_cons (by decide) _), hput, hrest, List.append_assoc,
      List.singleton_append]

end

end LabelBook.Json
