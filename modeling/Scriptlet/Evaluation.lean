import Scriptlet.Problem
import Scriptlet.Tree
import Scriptlet.Value

/-!
# Evaluation

What a tree comes to. Literals, negation with `!`, and statements one after another have a value;
anything else stops the evaluation with an error that names it. Statements are evaluated in
order, and the value of a list is that of its last statement, or null. The log has an entry for
every statement that was evaluated, a statement of a block before the block itself, and ends with
the error if there is one.

A `!` is known by the kind of its token, not by the operator text in the tree.
-/

namespace Scriptlet

variable {α : Type}

/-- Why a tree has no value, and where (`EvalError`). -/
inductive EvaluationError (α : Type) where
  | unsupported (kind : NodeKind) (location : α)
  | unsupportedOperator (operator : String) (location : α)
deriving DecidableEq

namespace EvaluationError

/-- Where the evaluation stopped. -/
def location : EvaluationError α → α
  | unsupported _ location => location
  | unsupportedOperator _ location => location

/-- What the evaluation stopped at. -/
def detail : EvaluationError α → String
  | unsupported kind _ => kind.text
  | unsupportedOperator operator _ => operator

/-- The wording of the error, as `EvalError` displays it. -/
def message : EvaluationError Location → String
  | unsupported kind location =>
    "cannot evaluate " ++ kind.text ++ " yet (at " ++ location.position ++ ")"
  | unsupportedOperator operator location =>
    "unsupported prefix operator '" ++ operator ++ "' (at " ++ location.position ++ ")"

end EvaluationError

/-- What an evaluation does: it is done with a statement, or it stops. -/
inductive EvaluationEvent (α : Type) where
  | evaluated (result : Value)
  | stopped (error : EvaluationError α)
deriving DecidableEq

/-- What a tree comes to, and what was done to find out. -/
structure Evaluation (α : Type) where
  result : Except (EvaluationError α) Value
  log : List (EvaluationEvent α)

namespace Evaluation

/-- The value is known. -/
def give (value : Value) : Evaluation α := ⟨.ok value, []⟩

/-- There is no value, and the log says so (`unsupported`). -/
def stop (error : EvaluationError α) : Evaluation α := ⟨.error error, [.stopped error]⟩

/-- The value of an evaluated statement is logged. -/
def noting (value : Value) (evaluation : Evaluation α) : Evaluation α :=
  ⟨evaluation.result, .evaluated value :: evaluation.log⟩

/-- The value decides how to go on, if there is one. -/
def andThen (evaluation : Evaluation α) (next : Value → Evaluation α) : Evaluation α :=
  match evaluation.result with
  | .error error => ⟨.error error, evaluation.log⟩
  | .ok value =>
    let following := next value
    ⟨following.result, evaluation.log ++ following.log⟩

end Evaluation

/-- The evaluation of an expression (`visit`). -/
def Expression.evaluate : Expression (Token α) → Evaluation α
  | .integerLiteral _ value => .give (.integer value)
  | .booleanLiteral _ value => .give (.boolean value)
  | .prefixed token _ operand =>
    operand.evaluate.andThen fun value =>
      if token.kind = .not then .give (.boolean !value.truthy)
      else .stop (.unsupportedOperator token.literal token.location)
  | .identifier name => .stop (.unsupported .identifier name.token.location)
  | .infixed token _ _ _ => .stop (.unsupported .infixed token.location)
  | .conditional token _ _ _ => .stop (.unsupported .conditional token.location)
  | .function token _ _ => .stop (.unsupported .function token.location)
  | .call token _ _ => .stop (.unsupported .call token.location)

mutual

/-- The evaluation of a statement (`visit`). -/
def Statement.evaluate : Statement (Token α) → Evaluation α
  | .binding token _ _ => .stop (.unsupported .binding token.location)
  | .returning token _ => .stop (.unsupported .returning token.location)
  | .expression _ value => value.evaluate
  | .block body => body.evaluate

/-- The evaluation of statements (`evaluate_statements`), where `last` is the value before the
first of them. -/
def evaluateStatements (last : Value) : List (Statement (Token α)) → Evaluation α
  | [] => .give last
  | statement :: statements =>
    statement.evaluate.andThen fun value => .noting value (evaluateStatements value statements)

/-- The evaluation of a block (`visit`). -/
def Block.evaluate : Block (Token α) → Evaluation α
  | .mk _ statements => evaluateStatements .null statements

end

/-- The evaluation of a program (`evaluate`). -/
def Program.evaluate (program : Program (Token α)) : Evaluation α :=
  evaluateStatements .null program.statements

end Scriptlet
