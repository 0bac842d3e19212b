import LabelBook.Proofs.Asking
import LabelBook.Proofs.Files.Paths
import LabelBook.Proofs.Text.Blank

/-!
Paths that begin in a home directory. Only a path whose first name starts with a tilde is changed when the
home directory is put in its place. What comes of it is a proper path again, and if home directories are
told from the root on, it begins at the root.
-/

namespace LabelBook

/-- A world in which home directories are told from the root on. -/
structure World.RootedHomes (w : World) : Prop where
  own : ∃ t, w.environment.lookup (Text.ofString "HOME") = some t ∧ t.head? = some Path.slash
  account : ∀ name t, w.accounts.lookup name = some t → t.head? = some Path.slash

/-! ### Paths that begin at home -/

namespace Path

variable {p : Path}

/-- A path whose first name stands for a home directory. -/
def BeginsAtHome (p : Path) : Prop :=
  ∃ account rest, p = ⟨.here, (.scalar '~' :: account) :: rest⟩

theorem BeginsAtHome.here (h : p.BeginsAtHome) : p.anchor = .here := by
  obtain ⟨account, rest, rfl⟩ := h
  rfl

theorem anchorOf_slash (t : Text) : anchorOf (slash :: t) ≠ .here := by
  rw [anchorOf, takeWhile_slash_cons, List.length_cons]
  split <;> simp_all

theorem text_of_anchor_ne (h : p.anchor ≠ .here) : ∃ t, p.text = slash :: t := by
  unfold text
  dsimp only
  split
  · next hhere => exact absurd hhere h
  · exact ⟨_, rfl⟩
  · exact ⟨_, rfl⟩

/-- Trimming does not take anything off the start of a path that begins at the root. -/
theorem anchorOf_trim_text (h : p.anchor ≠ .here) : anchorOf p.text.trim ≠ .here := by
  obtain ⟨t, ht⟩ := text_of_anchor_ne h
  obtain ⟨rest, hrest⟩ := Text.trim_cons (c := slash) (by decide) t
  rw [ht, hrest]
  exact anchorOf_slash rest

end Path

namespace Program

variable {w : World} {p q : Path} {account : Text}

theorem expandHome_of_not (h : ¬ p.BeginsAtHome) : expandHome p = done p := by
  unfold expandHome
  split
  · exact absurd ⟨_, _, rfl⟩ h
  · rfl

theorem expandHome_home {rest : List Text}
    (h : ((expandHome ⟨.here, (.scalar '~' :: account) :: rest⟩).run w).1 = .ok q) :
    ∃ t, ((homeOf account).run w).1 = .ok (some t) ∧
      q = ⟨(Path.ofText (homeText t)).anchor, (Path.ofText (homeText t)).names ++ rest⟩ := by
  rw [expandHome, run_bind] at h
  rcases hhome : (homeOf account).run w with ⟨f | - | t, v⟩ <;> rw [hhome] at h
  · cases h
  · cases h
  · dsimp only at h
    split at h
    · cases h
    · exact ⟨t, rfl, (Except.ok.inj h).symm⟩

theorem rooted_homeOf (homes : w.RootedHomes) {t : Text}
    (h : ((homeOf account).run w).1 = .ok (some t)) : t.head? = some Path.slash := by
  unfold homeOf at h
  split at h
  · obtain ⟨home, hlookup, hrooted⟩ := homes.own
    have hask : (environment? "HOME").run w = (.ok (some home), w) := by
      rw [environment?, run_ask]
      simp [World.answer, hlookup]
    rw [run_bind_ok hask] at h
    obtain rfl := Option.some.inj (Except.ok.inj h)
    exact hrooted
  · rw [run_bind, (homely_checkAccount account).asks.run w] at h
    rcases hcheck : ((checkAccount account).run w).1 with f | _ <;> rw [hcheck] at h
    · cases h
    · exact homes.account account t (Except.ok.inj h)

theorem homeText_slash {t : Text} (h : t.head? = some Path.slash) :
    ∃ rest, homeText t = Path.slash :: rest := by
  rcases t with - | ⟨c, t⟩
  · cases h
  · obtain rfl := Option.some.inj h
    have hpart : (Path.slash :: t).rdropWhile (· == Path.slash) <+: Path.slash :: t :=
      List.rdropWhile_prefix _ _
    have htext : homeText (Path.slash :: t) =
        if ((Path.slash :: t).rdropWhile (· == Path.slash)).isEmpty then Text.ofString "/"
        else (Path.slash :: t).rdropWhile (· == Path.slash) := rfl
    rw [htext]
    split
    · exact ⟨[], rfl⟩
    · next hne =>
      rcases List.prefix_cons_iff.mp hpart with hnil | ⟨rest, hrest, -⟩
      · exact absurd (by rw [hnil]; rfl) hne
      · exact ⟨rest, hrest⟩

/-- A home directory that is told from the root on begins at the root. -/
theorem rooted_expandHome (homes : w.RootedHomes) (begins : p.BeginsAtHome)
    (h : ((expandHome p).run w).1 = .ok q) : q.anchor ≠ .here := by
  obtain ⟨account, rest, rfl⟩ := begins
  obtain ⟨t, hhome, rfl⟩ := expandHome_home h
  obtain ⟨rest, hrest⟩ := homeText_slash (rooted_homeOf homes hhome)
  dsimp only
  rw [hrest]
  exact Path.anchorOf_slash rest

theorem proper_expandHome (proper : p.Proper) (h : ((expandHome p).run w).1 = .ok q) : q.Proper := by
  by_cases begins : p.BeginsAtHome
  · obtain ⟨account, rest, rfl⟩ := begins
    obtain ⟨t, -, rfl⟩ := expandHome_home h
    intro n hn
    rcases List.mem_append.mp hn with hn | hn
    · exact Path.ofText_proper _ n hn
    · exact proper n (List.mem_cons_of_mem _ hn)
  · rw [expandHome_of_not begins] at h
    exact Except.ok.inj h ▸ proper

end Program

end LabelBook
