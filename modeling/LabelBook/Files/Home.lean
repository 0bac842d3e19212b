import LabelBook.Program

/-!
Home directories. A path whose first name starts with a tilde begins in the home directory of the
account that the rest of the name tells, or of the account one is in if nothing follows the tilde.
-/

namespace LabelBook

/-- A text without the slashes at its end; a slash if nothing else is left. -/
def homeText (t : Text) : Text :=
  let t := (t.reverse.dropWhile (· == Path.slash)).reverse
  if t.isEmpty then "/" else t

namespace Program

/-- The name of an account, if it can be looked up. -/
def checkAccount (name : Text) : Program Unit :=
  match Utf8.encodeName name with
  | .error e => fail (.unencodable e)
  | .ok _ => if name.contains (.scalar '\x00') then fail (.refused .nullInPath) else done ()

/-- The home directory that a name with a tilde tells, the tilde left out. -/
def homeOf (account : Text) : Program (Option Text) := do
  if account.isEmpty then
    match ← environment? "HOME" with
    | some t => return some t
    | none => home? none
  else
    checkAccount account
    home? (some account)

/-- The path with the home directory in place of a name that starts with a tilde. -/
def expandHome (p : Path) : Program Path :=
  match p with
  | ⟨.here, (.scalar '~' :: account) :: rest⟩ => do
    match ← homeOf account with
    | none => fail .homeless
    | some t =>
      let home := homeText t
      if home.startsWith "~" then fail .homeless
      else
        let start := Path.ofText home
        return { start with names := start.names ++ rest }
  | p => done p

/-- A directory below the home directory of the account one is in. -/
def belowHome (names : List Text) : Program Path := do
  let home ← expandHome (.ofText "~")
  return { home with names := home.names ++ names }

end Program

end LabelBook
