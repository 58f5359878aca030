import Scriptlet.Console.Pieces
import Scriptlet.Console.Report

/-!
# The prompt

A dialogue in which every line is a script of its own. Before each line the prompt is written,
and after it the answer: a value, a listing of problems, or an error. A line that is no text ends
the dialogue. The program takes one `turn` after the other; `dialogue` is what comes of that.
-/

namespace Scriptlet.Console

/-- What is written before each line is read (`PROMPT`). -/
def prompt : String := ">> "

/-- The path that stands for lines that come from no file (`NO_FILEPATH`). -/
def promptPath : String := "<input>"

/-- The answer to a line. -/
def answer (line : String) : String := resultText (runText line promptPath)

/-- The byte that ends a line. -/
def lineFeed : UInt8 := 10

/-- The byte that may stand before the one that ends a line. -/
def carriageReturn : UInt8 := 13

/-- A line without the carriage return at its end, if it has one. -/
def withoutReturn (line : List UInt8) : List UInt8 :=
  if line.getLast? = some carriageReturn then line.dropLast else line

/-- The lines that pieces between line feeds are. A carriage return before a line feed goes with
it. What follows the last line feed is a line only if there is something. -/
def linesOf (first : List UInt8) : List (List UInt8) → List (List UInt8)
  | [] => if first = [] then [] else [first]
  | second :: others => withoutReturn first :: linesOf second others

/-- The lines of an input. -/
def lines (input : List UInt8) : List (List UInt8) :=
  let (first, others) := splitFirst lineFeed input
  linesOf first others

/-- What follows the prompt for one line: the answer, or the reason to end the dialogue. -/
def answerBytes (line : List UInt8) : Except String String :=
  match decode line with
  | some text => .ok (answer text)
  | none => .error ("could not read from stdin: " ++ notText)

/-- Where a dialogue is held: what the next line is, if there is one, and how to write. -/
structure Terminal (m : Type → Type) where
  nextLine : m (Option (List UInt8))
  write : String → m Unit

/-- One turn of a dialogue, the body of the loop in `run_prompt`: the prompt, the next line and the
answer to it. The dialogue ends with the report that comes of the turn, if one does. -/
def turn {m : Type → Type} [Monad m] (terminal : Terminal m) : m (Option Report) := do
  terminal.write prompt
  match ← terminal.nextLine with
  | none => return some ⟨0, "", ""⟩
  | some line =>
    match answerBytes line with
    | .ok answer =>
      terminal.write answer
      return none
    | .error reason => return some (.failed reason)

/-- The dialogue about the lines to come (`run_prompt`). -/
def dialogue : List (List UInt8) → Report
  | [] => ⟨0, prompt, ""⟩
  | line :: lines =>
    match answerBytes line with
    | .ok answer => (dialogue lines).after (prompt ++ answer)
    | .error reason => (Report.failed reason).after prompt

end Scriptlet.Console
