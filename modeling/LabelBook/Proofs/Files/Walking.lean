import LabelBook.Files.Tree
import Mathlib

/-!
Walking in two parts. All names of a path but the last lead through directories, whatever the path is
walked for; only the last step depends on that. The way through the directories never comes across a
place at which nothing or a file stands, so it stays the same when such places change.
-/

namespace LabelBook.Tree

/-- The directory that names lead to, links followed, and how many more links may be followed. -/
def descend (t : Tree) (links : Nat) (l : Location) (names : List Text) :
    Except Reason (Nat × Location) :=
  match names with
  | [] => .ok (links, l)
  | name :: rest =>
    if name = ".." then descend t links l.dropLast rest
    else if name.isEmpty || name = "." then descend t links l rest
    else if maxNameLength < nameLength name then .error .nameTooLong
    else
      match t.get? (l ++ [name]) with
      | none => .error .notFound
      | some .directory => descend t links (l ++ [name]) rest
      | some (.file ..) => .error .notDirectory
      | some (.link target) =>
        match links with
        | 0 => .error .tooManyLinks
        | links + 1 =>
          descend t links (if Path.anchorOf target = .here then l else [])
            (Path.stepsOf target ++ rest)
termination_by (links, names.length)

/-- A name that leads somewhere. -/
def IsName (name : Text) : Prop := name ≠ ".." ∧ name ≠ "." ∧ name ≠ []

variable {t u : Tree} {aim : Aim}

/-- The way to the last name does not depend on what a path is walked for. -/
theorem walk_append {name : Text} (hname : name ≠ []) (links : Nat) (l : Location)
    (names : List Text) : t.walk aim links l (names ++ [name]) =
      (t.descend links l names).bind fun d => t.walk aim d.1 d.2 [name] := by
  have hslash : ∀ rest : List Text, ¬ (aim = .writing && rest ++ [name] == [[]]) = true := by
    intro rest h
    rw [Bool.and_eq_true, beq_iff_eq] at h
    have hlast := congrArg List.getLast? h.2
    rw [List.getLast?_concat] at hlast
    exact hname (Option.some.inj hlast)
  have hempty : ∀ rest : List Text, (rest ++ [name]).isEmpty = false := by
    intro rest; cases rest <;> rfl
  fun_induction descend t links l names with
  | case1 links l => rfl
  | case2 links l rest ih => rw [List.cons_append, walk, if_pos rfl, ih]
  | case3 links l n rest h₁ h₂ ih => rw [List.cons_append, walk, if_neg h₁, if_pos h₂, ih]
  | case4 links l n rest h₁ h₂ h₃ =>
    rw [List.cons_append, walk, if_neg h₁, if_neg h₂, if_neg (hslash rest), if_pos h₃]
    rfl
  | case5 links l n rest h₁ h₂ h₃ hget =>
    rw [List.cons_append, walk, if_neg h₁, if_neg h₂, if_neg (hslash rest), if_neg h₃]
    simp only [hget, hempty]
    rfl
  | case6 links l n rest h₁ h₂ h₃ hget ih =>
    rw [List.cons_append, walk, if_neg h₁, if_neg h₂, if_neg (hslash rest), if_neg h₃]
    simp only [hget, ih]
  | case7 links l n rest h₁ h₂ h₃ number content hget =>
    rw [List.cons_append, walk, if_neg h₁, if_neg h₂, if_neg (hslash rest), if_neg h₃]
    simp only [hget, hempty]
    rfl
  | case8 l n rest h₁ h₂ h₃ target hget =>
    rw [List.cons_append, walk, if_neg h₁, if_neg h₂, if_neg (hslash rest), if_neg h₃]
    simp only [hget, hempty]
    rfl
  | case9 l n rest h₁ h₂ h₃ target hget links ih =>
    rw [List.cons_append, walk, if_neg h₁, if_neg h₂, if_neg (hslash rest), if_neg h₃]
    simp only [hget, hempty, Bool.false_and, ← List.append_assoc]
    exact ih

/-- The last step of a path, from the directory that the names before it lead to. -/
theorem walk_name {name : Text} (hname : IsName name) (hlength : nameLength name ≤ maxNameLength)
    (links : Nat) (l : Location) : t.walk aim links l [name] =
      match t.get? (l ++ [name]) with
      | some (.link target) =>
        if aim = .entry then .ok (l ++ [name])
        else
          match links with
          | 0 => .error .tooManyLinks
          | links + 1 =>
            t.walk aim links (if Path.anchorOf target = .here then l else []) (Path.stepsOf target)
      | _ => .ok (l ++ [name]) := by
  have hskip : ¬ (name.isEmpty || name = ".") = true := by
    simp [hname.2.1, hname.2.2]
  have hslash : ¬ (aim = .writing && ([] : List Text) == [[]]) = true := by
    cases aim <;> simp
  rw [walk, if_neg hname.1, if_neg hskip, if_neg hslash, if_neg (Nat.not_lt.mpr hlength)]
  dsimp only
  rcases t.get? (l ++ [name]) with _ | (_ | _ | target)
  · rfl
  · rfl
  · simp only [walk]
  · cases links <;> simp

/-- A name that is too long ends the way. -/
theorem walk_longName {name : Text} (hname : IsName name) (hlength : maxNameLength < nameLength name)
    (links : Nat) (l : Location) : t.walk aim links l [name] = .error .nameTooLong := by
  have hskip : ¬ (name.isEmpty || name = ".") = true := by
    simp [hname.2.1, hname.2.2]
  have hslash : ¬ (aim = .writing && ([] : List Text) == [[]]) = true := by
    cases aim <;> simp
  rw [walk, if_neg hname.1, if_neg hskip, if_neg hslash, if_pos hlength]

/-- Names in two parts. -/
theorem descend_append (links : Nat) (l : Location) (names more : List Text) :
    t.descend links l (names ++ more) =
      (t.descend links l names).bind fun d => t.descend d.1 d.2 more := by
  fun_induction descend t links l names with
  | case1 links l => rfl
  | case2 links l rest ih => rw [List.cons_append, descend, if_pos rfl, ih]
  | case3 links l n rest h₁ h₂ ih => rw [List.cons_append, descend, if_neg h₁, if_pos h₂, ih]
  | case4 links l n rest h₁ h₂ h₃ =>
    rw [List.cons_append, descend, if_neg h₁, if_neg h₂, if_pos h₃]
    rfl
  | case5 links l n rest h₁ h₂ h₃ hget =>
    rw [List.cons_append, descend, if_neg h₁, if_neg h₂, if_neg h₃, hget]
    rfl
  | case6 links l n rest h₁ h₂ h₃ hget ih =>
    rw [List.cons_append, descend, if_neg h₁, if_neg h₂, if_neg h₃]
    simp only [hget, ih]
  | case7 links l n rest h₁ h₂ h₃ number content hget =>
    rw [List.cons_append, descend, if_neg h₁, if_neg h₂, if_neg h₃, hget]
    rfl
  | case8 l n rest h₁ h₂ h₃ target hget =>
    rw [List.cons_append, descend, if_neg h₁, if_neg h₂, if_neg h₃, hget]
    rfl
  | case9 l n rest h₁ h₂ h₃ target hget links ih =>
    rw [List.cons_append, descend, if_neg h₁, if_neg h₂, if_neg h₃]
    simp only [hget, ← List.append_assoc]
    exact ih

/-! ### Directories -/

/-- A tree in which everything stands in a directory. -/
def Sound (t : Tree) : Prop :=
  ∀ l name e, t.get? (l ++ [name]) = some e → t.get? l = some .directory

@[simp] theorem get?_nil (t : Tree) : t.get? [] = some .directory := rfl

theorem Sound.dropLast (sound : t.Sound) {l : Location} (h : t.get? l = some .directory) :
    t.get? l.dropLast = some .directory := by
  rcases List.eq_nil_or_concat l with rfl | ⟨m, name, rfl⟩
  · rfl
  · rw [List.concat_eq_append] at h ⊢
    rw [List.dropLast_concat]
    exact sound m name _ h

/-- Names lead from a directory to a directory. -/
theorem descend_directory (sound : t.Sound) {links : Nat} {l : Location} {names : List Text}
    {d : Nat × Location} (hl : t.get? l = some .directory) (h : t.descend links l names = .ok d) :
    t.get? d.2 = some .directory := by
  fun_induction descend t links l names with
  | case1 links l => rw [← Except.ok.inj h]; exact hl
  | case2 links l rest ih => exact ih (sound.dropLast hl) h
  | case3 links l n rest h₁ h₂ ih => exact ih hl h
  | case6 links l n rest h₁ h₂ h₃ hget ih => exact ih hget h
  | case9 l n rest h₁ h₂ h₃ target hget links ih =>
    refine ih ?_ h
    split
    · exact hl
    · rfl
  | case4 | case5 | case7 | case8 => cases h

/-- Where names lead to directories, a walk to what they lead to goes the same way, unless it has to
follow too many links. -/
theorem walk_of_descend {links : Nat} {l : Location} {names : List Text} {d : Nat × Location}
    (h : t.descend links l names = .ok d) (more : Nat) :
    t.walk .target more l names = .ok d.2 ∨ t.walk .target more l names = .error .tooManyLinks := by
  have hslash : ∀ rest : List Text, ¬ (decide (Aim.target = .writing) && rest == [[]]) = true := by
    intro rest; simp
  fun_induction descend t links l names generalizing more with
  | case1 links l => rw [← Except.ok.inj h, walk]; exact Or.inl rfl
  | case2 links l rest ih => rw [walk, if_pos rfl]; exact ih h more
  | case3 links l n rest h₁ h₂ ih => rw [walk, if_neg h₁, if_pos h₂]; exact ih h more
  | case6 links l n rest h₁ h₂ h₃ hget ih =>
    rw [walk, if_neg h₁, if_neg h₂, if_neg (hslash rest), if_neg h₃]
    simp only [hget]
    exact ih h more
  | case9 l n rest h₁ h₂ h₃ target hget links ih =>
    rw [walk, if_neg h₁, if_neg h₂, if_neg (hslash rest), if_neg h₃]
    simp only [hget]
    cases more with
    | zero => exact Or.inr (by simp)
    | succ more =>
      have hfollow := ih h more
      simp only [reduceCtorEq, decide_false, Bool.and_false, Bool.false_eq_true, if_false]
      exact hfollow
  | case4 | case5 | case7 | case8 => cases h

/-- The way to a directory is one through directories. -/
theorem descend_of_walk {links : Nat} {l m : Location} {names : List Text}
    (h : t.walk .target links l names = .ok m) (hm : t.get? m = some .directory) :
    ∃ more, t.descend links l names = .ok (more, m) := by
  fun_induction walk t .target links l names with
  | case1 links l => exact ⟨links, by rw [descend, Except.ok.inj h]⟩
  | case2 _ _ _ ih => rw [descend, if_pos rfl]; exact ih h
  | case3 _ _ _ _ h₁ h₂ ih => rw [descend, if_neg h₁, if_pos h₂]; exact ih h
  | case6 _ _ _ _ _ _ _ _ k hget _ =>
    rw [← Except.ok.inj h] at hm
    simp only [k] at hget
    cases hget.symm.trans hm
  | case8 _ _ _ _ h₁ h₂ _ h₄ k hget ih =>
    rw [descend, if_neg h₁, if_neg h₂, if_neg h₄]
    simp only [k] at hget ih h ⊢
    simp only [hget]
    exact ih h
  | case9 _ _ _ _ _ _ _ _ k _ _ hget _ =>
    rw [← Except.ok.inj h] at hm
    simp only [k] at hget
    cases hget.symm.trans hm
  | case13 _ _ _ h₁ h₂ _ h₄ k _ hget _ _ ih =>
    rw [descend, if_neg h₁, if_neg h₂, if_neg h₄]
    simp only [k] at hget
    simp only [hget]
    exact ih h
  | case11 _ _ _ _ _ _ _ _ _ _ _ hlast => simp at hlast
  | case4 | case5 | case7 | case10 | case12 => cases h
/-! ### Changes beside the way -/

/-- A tree in which directories and links stand as in another, except perhaps for one place. -/
def KeepsWays (t u : Tree) (l : Location) : Prop :=
  ∀ m, m ≠ l → t.get? m = some .directory ∨ (∃ target, t.get? m = some (.link target)) →
    u.get? m = t.get? m

/-- A change at one place leaves a way as it is, unless the way follows a link at that place; then it
ends there if a file has taken the place of the link. -/
theorem descend_keeps {l : Location} (keeps : t.KeepsWays u l) (hl : t.get? l ≠ some .directory)
    {links : Nat} {start : Location} {names : List Text} {d : Nat × Location}
    (h : t.descend links start names = .ok d) :
    u.descend links start names = .ok d ∨
      ∃ target more rest, t.get? l = some (.link target) ∧
        t.descend more (if Path.anchorOf target = .here then l.dropLast else [])
          (Path.stepsOf target ++ rest) = .ok d ∧
        ∀ number content, u.get? l = some (.file number content) →
          u.descend links start names = .error .notDirectory := by
  fun_induction descend t links start names with
  | case1 links m => exact Or.inl (by rw [descend, h])
  | case2 links m rest ih => rw [descend, if_pos rfl]; exact ih h
  | case3 links m n rest h₁ h₂ ih => rw [descend, if_neg h₁, if_pos h₂]; exact ih h
  | case6 links m n rest h₁ h₂ h₃ hget ih =>
    have hu : u.get? (m ++ [n]) = some .directory := by
      rw [keeps _ (fun heq => hl (heq ▸ hget)) (Or.inl hget), hget]
    rw [descend, if_neg h₁, if_neg h₂, if_neg h₃]
    simp only [hu]
    exact ih h
  | case9 m n rest h₁ h₂ h₃ target hget links ih =>
    by_cases heq : m ++ [n] = l
    · subst heq
      refine Or.inr ⟨target, links, rest, hget, ?_, fun number content hfile => ?_⟩
      · rw [List.dropLast_concat]
        exact h
      · rw [descend, if_neg h₁, if_neg h₂, if_neg h₃, hfile]
    · have hu : u.get? (m ++ [n]) = some (.link target) := by
        rw [keeps _ heq (Or.inr ⟨target, hget⟩), hget]
      rw [descend, if_neg h₁, if_neg h₂, if_neg h₃]
      simp only [hu]
      exact ih h
  | case4 | case5 | case7 | case8 => cases h

/-- A change at a place where no directory and no link stands leaves every way as it is. -/
theorem descend_keeps_all {l : Location} (keeps : t.KeepsWays u l) (hl : t.get? l ≠ some .directory)
    (hlink : ∀ target, t.get? l ≠ some (.link target)) {links : Nat} {start : Location}
    {names : List Text} {d : Nat × Location} (h : t.descend links start names = .ok d) :
    u.descend links start names = .ok d := by
  rcases descend_keeps keeps hl h with h | ⟨target, _, _, htarget, -, -⟩
  · exact h
  · exact absurd htarget (hlink target)

/-- The way to a name does not follow a link that stands there under that name, unless the link leads
to a directory or on to too many links. -/
theorem descend_keeps_link (sound : t.Sound) {links : Nat} {start : Location} {names : List Text}
    {name : Text} {d : Nat × Location} (keeps : t.KeepsWays u (d.2 ++ [name]))
    (hstart : t.get? start = some .directory) (hname : IsName name)
    (hlength : nameLength name ≤ maxNameLength) (h : t.descend links start names = .ok d)
    (hlinks : t.walk .target d.1 d.2 [name] ≠ .error .tooManyLinks)
    (hdirectory : ∀ l, t.walk .target d.1 d.2 [name] = .ok l → t.get? l ≠ some .directory) :
    u.descend links start names = .ok d := by
  have hlast := @walk_name t .target name hname hlength d.1 d.2
  have hl : t.get? (d.2 ++ [name]) ≠ some .directory := by
    intro hget
    rw [hget] at hlast
    exact hdirectory _ hlast hget
  rcases descend_keeps keeps hl h with h | ⟨target, more, rest, hget, hthrough, -⟩
  · exact h
  · exfalso
    rw [hget] at hlast
    rw [List.dropLast_concat, descend_append] at hthrough
    set base := if Path.anchorOf target = .here then d.2 else [] with hbase
    have hbaseDirectory : t.get? base = some .directory := by
      rw [hbase]
      split
      · exact descend_directory sound hstart h
      · rfl
    cases hsteps : t.descend more base (Path.stepsOf target) with
    | error e => rw [hsteps] at hthrough; cases hthrough
    | ok d' =>
      have hd' := descend_directory sound hbaseDirectory hsteps
      obtain ⟨links', location⟩ := d
      cases links' with
      | zero => exact hlinks hlast
      | succ links' =>
        simp only [reduceCtorEq, if_false] at hlast
        rcases walk_of_descend hsteps links' with hwalk | hwalk
        · rw [hwalk] at hlast
          exact hdirectory _ hlast hd'
        · rw [hwalk] at hlast
          exact hlinks hlast

end LabelBook.Tree
