import Scriptlet.Cursor
import Scriptlet.Decimal

/-!
# Problems

What can be wrong with a text that is not a program. A problem is about one token: the parser
wanted another kind there, or the token begins no expression, or it is an integer too large for a
word. `Problem.message` has the wording, and a `Diagnostic` is a message with its place.
-/

namespace Scriptlet

/-- A reason why a piece of text could not be read, with the token it is about. -/
inductive Problem (α : Type) where
  | unexpected (wanted : Kind) (found : Token α)
  | noExpression (found : Token α)
  | tooLarge (found : Token α)
deriving DecidableEq

namespace Problem

variable {α : Type}

/-- The token the problem is about. -/
def found : Problem α → Token α
  | unexpected _ found => found
  | noExpression found => found
  | tooLarge found => found

/-- The wording of the problem, as it is reported to `error`. -/
def message : Problem α → String
  | unexpected wanted found =>
    "expected next token to be " ++ wanted.text ++ ", got " ++ found.kind.text ++ " '" ++
      found.literal ++ "' instead"
  | noExpression found =>
    "no prefix parse function for " ++ found.kind.text ++ " '" ++ found.literal ++ "'"
  | tooLarge found => "could not parse " ++ found.literal ++ " as integer literal"

end Problem

/-- A message about a place in a text (`ParseError`). -/
structure Diagnostic where
  message : String
  location : Location
deriving DecidableEq

/-- A line and a column as messages give them. -/
def Location.position (location : Location) : String :=
  "line " ++ Decimal.natural location.line ++ ", col " ++ Decimal.natural location.column

namespace Diagnostic

/-- What a problem says, and where. -/
def ofProblem (problem : Problem Location) : Diagnostic :=
  ⟨problem.message, problem.found.location⟩

/-- The message with its place after it, as `ParseError` displays it. -/
def text (diagnostic : Diagnostic) : String :=
  diagnostic.message ++ " (at " ++ diagnostic.location.position ++ ")"

/-- The line of `format_parse_errors` that gives a diagnostic its number. -/
def numbered (number : Nat) (diagnostic : Diagnostic) : String :=
  "[" ++ Decimal.natural number ++ "] In " ++ diagnostic.location.path ++ " (" ++
    diagnostic.location.position ++ "): " ++ diagnostic.message ++ "\n"

/-- The lines of a listing from a number on. -/
def numberedFrom (number : Nat) : List Diagnostic → String
  | [] => ""
  | diagnostic :: diagnostics =>
    diagnostic.numbered number ++ numberedFrom (number + 1) diagnostics

/-- The listing of diagnostics (`format_parse_errors`), numbered from 1 under a heading. -/
def listing (diagnostics : List Diagnostic) : String :=
  "found parse errors\n\n" ++ numberedFrom 1 diagnostics

end Diagnostic

end Scriptlet
