import LabelBook.Text.Basic

/-!
Accounts. The system lists its accounts one a line, with seven fields between colons; the first is
the name, the third the number and the sixth the home directory.

    root:x:0:0:root:/root:/bin/bash  ↦  root, 0, /root
-/

namespace LabelBook

/-- An account with its number, both as they are written, and its home directory. -/
structure Account where
  name : Text
  number : Text
  home : Text
  deriving DecidableEq

namespace Account

/-- The account on a line, if the line has the seven fields. -/
def ofLine? (line : Text) : Option Account :=
  match Text.splitOn (· == .scalar ':') line with
  | [name, _, number, _, _, home, _] => some ⟨name, number, home⟩
  | _ => none

/-- The accounts in a text, one a line. -/
def listOf (t : Text) : List Account := (Text.splitOn (· == .scalar '\n') t).filterMap ofLine?

/-- The number on the line of a process's status that tells who runs it. -/
def numberOf? (line : Text) : Option Text :=
  (line.dropStart? "Uid:\t").map fun rest => rest.takeWhile CodePoint.isDigit

/-- The number of the account that runs a process, by the text of its status. -/
def runner? (status : Text) : Option Text :=
  (Text.splitOn (· == .scalar '\n') status).findSome? numberOf?

end Account

end LabelBook
