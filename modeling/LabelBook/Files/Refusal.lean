import LabelBook.Files.Path
import LabelBook.Text.Utf8

/-!
Refusals: why an operation on files does not take place. Either a path cannot be handed to the
system at all, or the system refuses and gives a number with it.

    [Errno 2] No such file or directory: 'a'        [Errno 21] Is a directory: 'a' -> 'b'
-/

namespace LabelBook

/-- The system's reason for a refusal. -/
inductive Reason where
  | notFound
  | busy
  | alreadyThere
  | notDirectory
  | isDirectory
  | invalid
  | nameTooLong
  | notEmpty
  | tooManyLinks
  | other (number : Nat) (words : Text)
  deriving DecidableEq

namespace Reason

/-- The number of a reason. -/
def number : Reason → Nat
  | notFound => 2
  | busy => 16
  | alreadyThere => 17
  | notDirectory => 20
  | isDirectory => 21
  | invalid => 22
  | nameTooLong => 36
  | notEmpty => 39
  | tooManyLinks => 40
  | other number _ => number

/-- The words for a reason. -/
def words : Reason → Text
  | notFound => "No such file or directory"
  | busy => "Device or resource busy"
  | alreadyThere => "File exists"
  | notDirectory => "Not a directory"
  | isDirectory => "Is a directory"
  | invalid => "Invalid argument"
  | nameTooLong => "File name too long"
  | notEmpty => "Directory not empty"
  | tooManyLinks => "Too many levels of symbolic links"
  | other _ words => words

/-- The reason of a number; the words are for those that have no name here. -/
def ofNumber (number : Nat) (words : Text) : Reason :=
  let named := [notFound, busy, alreadyThere, notDirectory, isDirectory, invalid, nameTooLong,
    notEmpty, tooManyLinks]
  (named.find? fun why => why.number = number).getD (.other number words)

/-- Whether a question about a path is answered with "there is nothing" for this reason. -/
def meansAbsent : Reason → Bool
  | notFound | notDirectory | tooManyLinks => true
  | other number _ => number == 9
  | _ => false

end Reason

/-- Why an operation on a path does not take place; an operation that moves a file names two. -/
inductive Refusal where
  | system (why : Reason) (path : Text) (target : Option Text)
  | unencodable (e : Utf8.EncodeError)
  | nullInPath
  deriving DecidableEq

/-- The text of a refusal. -/
def Refusal.message : Refusal → Text
  | system why path target =>
    Text.concat ["[Errno ", Text.ofNat why.number, "] ", why.words, ": ", path.quoted,
      match target with | some t => Text.concat [" -> ", t.quoted] | none => []]
  | unencodable e => e.message
  | nullInPath => "embedded null byte"

/-- The most octets in a path. -/
def Path.maxLength : Nat := 4095

/-- The text of a path that is handed to the system, unless that cannot be done. -/
def Path.handedOver (p : Path) : Except Refusal Text :=
  match Utf8.encodeName p.text with
  | .error e => .error (.unencodable e)
  | .ok octets =>
    if p.text.contains (.scalar '\x00') then .error .nullInPath
    else if maxLength < octets.length then .error (.system .nameTooLong p.text none)
    else .ok p.text

end LabelBook
