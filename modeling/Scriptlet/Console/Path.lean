import Scriptlet.Console.Pieces

/-!
# Paths

The parts of a path and what can be read off its text: the name of the file it leads to, and the
part of that name after its last dot. A dot at the beginning of a name divides nothing.
-/

namespace Scriptlet.Console

/-- The pieces of a text between separators. -/
def pieces (separator : Char) (text : String) : List String :=
  let (first, others) := splitFirst separator text.toList
  (first :: others).map String.ofList

/-- The name of the file that a path leads to. Empty parts and single dots lead nowhere, and a
path that ends by going up names no file. -/
def fileName? (path : String) : Option String :=
  ((pieces '/' path).filter fun part => part ≠ "" ∧ part ≠ ".").getLast?.filter (· ≠ "..")

/-- The part of a file name after its last dot, if something stands before that dot
(`extension`). -/
def extension? (name : String) : Option String :=
  match pieces '.' name with
  | [] => none
  | [_] => none
  | ["", _] => none
  | parts => parts.getLast?

/-- Whether a path leads to a file with the name of a script, in upper or lower case: the check
that `run_file` begins with. -/
def isScriptPath (path : String) : Bool :=
  ((fileName? path).bind extension?).any (·.toLower = "monkey")

end Scriptlet.Console
