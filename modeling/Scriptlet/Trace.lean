import Scriptlet.Evaluation
import Scriptlet.Parser

/-!
# Traces

The record of a run as it is shown: a level of detail, and fields with names in a fixed order,
the first of which says what happened. Of what a parser does, its moves, its expressions and its
problems are shown.
-/

namespace Scriptlet

/-- How much detail one has to ask for to be shown a record. -/
inductive Level where
  | trace
  | debug
deriving DecidableEq

/-- The name of a level. -/
def Level.text : Level → String
  | trace => "TRACE"
  | debug => "DEBUG"

/-- One thing that happened. -/
structure Record where
  level : Level
  fields : List (String × String)
deriving DecidableEq

/-- How an event of a parser is shown, if it is: by `next_token`, `parse_expression` and `error`. -/
def ParseEvent.record? : ParseEvent Location → Option Record
  | .moved current =>
    some ⟨.trace, [("message", "current token"), ("kind", current.kind.text),
      ("literal", current.literal), ("location", current.location.text)]⟩
  | .entered precedence current =>
    some ⟨.trace, [("message", "parse expression"), ("precedence", precedence.text),
      ("kind", current.kind.text)]⟩
  | .reported problem =>
    some ⟨.debug, [("message", "parse error"), ("location", problem.found.location.text),
      ("message", problem.message)]⟩
  | .settled _ _ => none
  | .opened _ => none
  | .closed _ => none

/-- How an event of an evaluation is shown: by `evaluate_statements`, `unsupported`, and the case
of a prefix operator in `visit`. -/
def EvaluationEvent.record : EvaluationEvent Location → Record
  | .evaluated result =>
    ⟨.trace, [("message", "evaluated statement"), ("result", result.text)]⟩
  | .stopped (.unsupported kind location) =>
    ⟨.debug, [("message", "unsupported node"), ("kind", kind.text), ("location", location.text)]⟩
  | .stopped (.unsupportedOperator operator location) =>
    ⟨.debug, [("message", "unsupported prefix operator"), ("operator", operator),
      ("location", location.text)]⟩

/-- The record of parsing a text and, if nothing is wrong with it, evaluating it; and the result
of the evaluation. -/
def traceText (text path : String) :
    List Record × Option (Except (EvaluationError Location) Value) :=
  let (program, parser) := (Parser.ofCursor (.ofText text path)).program
  let parsing := parser.log.filterMap ParseEvent.record?
  if parser.problems.isEmpty then
    let evaluation := program.evaluate
    (parsing ++ evaluation.log.map EvaluationEvent.record, some evaluation.result)
  else (parsing, none)

end Scriptlet
