import Scriptlet.Script

/-!
# Reports

What a run of the program leaves behind: its exit status and what it wrote. A script that has a
value writes it to the standard output; whatever else happens goes to the standard error, and the
status tells the ways to fail apart.
-/

namespace Scriptlet.Console

/-- The name under which the program speaks of itself. -/
def programName : String := "monkey"

/-- The result of a script as it is shown: a value (`inspect`) or an error on a line, or a listing
(`format_parse_errors`). -/
def resultText : Except Failure Value → String
  | .ok value => value.text ++ "\n"
  | .error (.malformed diagnostics) => Diagnostic.listing diagnostics
  | .error (.stopped error) => error.message ++ "\n"

/-- The exit status and the two outputs of a run. -/
structure Report where
  exit : Nat
  stdout : String
  stderr : String
deriving DecidableEq

namespace Report

/-- A run that came to nothing, and why, as `main` reports it. -/
def failed (reason : String) : Report := ⟨1, "", programName ++ ": " ++ reason ++ "\n"⟩

/-- The run of a script that came to a result, with the exit status of `run_file`. -/
def ofResult (result : Except Failure Value) : Report :=
  match result with
  | .ok _ => ⟨0, resultText result, ""⟩
  | .error (.malformed _) => ⟨65, "", resultText result⟩
  | .error (.stopped _) => ⟨70, "", resultText result⟩

/-- Something was written to the standard output before. -/
def after (written : String) (report : Report) : Report :=
  { report with stdout := written ++ report.stdout }

end Report

/-- The text that bytes encode in UTF-8, if they do. -/
def decode (bytes : List UInt8) : Option String := String.fromUTF8? ⟨bytes.toArray⟩

/-- What is wrong with bytes that encode no text. -/
def notText : String := "stream did not contain valid UTF-8"

end Scriptlet.Console
