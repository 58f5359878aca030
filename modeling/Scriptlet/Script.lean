import Scriptlet.Evaluation
import Scriptlet.Parser

/-!
# Running a script

A script is parsed, and evaluated only if nothing is wrong with it.
-/

namespace Scriptlet

/-- Why a script has no value (`Error`). -/
inductive Failure where
  | malformed (diagnostics : List Diagnostic)
  | stopped (error : EvaluationError Location)
deriving DecidableEq

/-- The wording of a failure, as `Error` displays it. -/
def Failure.message : Failure → String
  | malformed diagnostics =>
    "found " ++ Decimal.natural diagnostics.length ++ " parse error(s)"
  | stopped error => error.message

/-- What the script in the file `path` comes to (`run`). -/
def runText (text path : String) : Except Failure Value :=
  match parseText text path with
  | (program, []) => program.evaluate.result.mapError .stopped
  | (_, diagnostics) => .error (.malformed diagnostics)

end Scriptlet
