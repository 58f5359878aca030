import Scriptlet.Evaluation
import Scriptlet.Proofs.Faithful
import Scriptlet.Proofs.Trees

/-!
# Outcomes

Evaluation knows a `!` by the kind of its token, and prints the text of a token when it stops. Where
the nodes are faithful the operators in the tree say the same; so what a program comes to, but for
the place where it may stop, can be told from the program without its tokens.
-/

namespace Scriptlet

variable {α β : Type}

/-- The error with another mark. -/
def EvaluationError.mapMark (f : α → β) : EvaluationError α → EvaluationError β
  | .unsupported kind location => .unsupported kind (f location)
  | .unsupportedOperator operator location => .unsupportedOperator operator (f location)

/-- What an evaluation comes to, without the place where it stopped. -/
def Evaluation.outcome (evaluation : Evaluation α) : Except (EvaluationError Unit) Value :=
  evaluation.result.mapError (EvaluationError.mapMark fun _ => ())

/-- What an expression without tokens comes to, by its operators. -/
def Expression.outcome : Expression Unit → Except (EvaluationError Unit) Value
  | .integerLiteral _ value => .ok (.integer value)
  | .booleanLiteral _ value => .ok (.boolean value)
  | .prefixed _ operator operand =>
    operand.outcome.bind fun value =>
      if operator = "!" then .ok (.boolean !value.truthy)
      else .error (.unsupportedOperator operator ())
  | .identifier _ => .error (.unsupported .identifier ())
  | .infixed _ _ _ _ => .error (.unsupported .infixed ())
  | .conditional _ _ _ _ => .error (.unsupported .conditional ())
  | .function _ _ _ => .error (.unsupported .function ())
  | .call _ _ _ => .error (.unsupported .call ())

mutual

/-- What a statement without tokens comes to. -/
def Statement.outcome : Statement Unit → Except (EvaluationError Unit) Value
  | .binding _ _ _ => .error (.unsupported .binding ())
  | .returning _ _ => .error (.unsupported .returning ())
  | .expression _ value => value.outcome
  | .block body => body.outcome

/-- What statements without tokens come to, where `last` is the value before them. -/
def outcomeStatements (last : Value) : List (Statement Unit) → Except (EvaluationError Unit) Value
  | [] => .ok last
  | statement :: statements =>
    statement.outcome.bind fun value => outcomeStatements value statements

/-- What a block without tokens comes to. -/
def Block.outcome : Block Unit → Except (EvaluationError Unit) Value
  | .mk _ statements => outcomeStatements .null statements

end

namespace Evaluation

theorem outcome_andThen (evaluation : Evaluation α) (next : Value → Evaluation α) :
    (evaluation.andThen next).outcome =
      evaluation.outcome.bind fun value => (next value).outcome := by
  unfold andThen outcome
  cases evaluation.result <;> rfl

theorem outcome_noting (value : Value) (evaluation : Evaluation α) :
    (evaluation.noting value).outcome = evaluation.outcome := rfl

end Evaluation

/-- For a faithful token its kind and the operator text in the tree say the same. -/
theorem outcome_negation {token : Token α} {operator : String} (value : Value)
    (known : IsOperator token operator [.not, .minus]) :
    (if token.kind = .not then Evaluation.give (.boolean !value.truthy)
      else .stop (.unsupportedOperator token.literal token.location)).outcome =
        if operator = "!" then .ok (.boolean !value.truthy)
        else .error (.unsupportedOperator operator ()) := by
  have decided : token.kind = .not ↔ operator = "!" := by
    rw [known.text]
    have found := known.kind
    simp only [List.mem_cons, List.not_mem_nil, or_false] at found
    rcases found with is | is <;> rw [is] <;> decide
  by_cases isNot : token.kind = .not
  · rw [if_pos isNot, if_pos (decided.mp isNot)]
    rfl
  · rw [if_neg isNot, if_neg fun same => isNot (decided.mpr same), ← known.literal]
    rfl

/-- A faithful expression comes to the same without its tokens, by induction on the tree. -/
theorem Expression.outcome_evaluate : (tree : Expression (Token α)) →
    tree.Every Node.Faithful → tree.evaluate.outcome = (tree.mapTokens fun _ => ()).outcome
  | .identifier _, _ => rfl
  | .integerLiteral _ _, _ => rfl
  | .booleanLiteral _ _, _ => rfl
  | .prefixed token operator operand, ⟨known, below⟩ => by
    rw [evaluate, Evaluation.outcome_andThen, operand.outcome_evaluate below, mapTokens, outcome]
    congr 1
    funext value
    exact outcome_negation value known
  | .infixed _ _ _ _, _ => rfl
  | .conditional _ _ _ none, _ => rfl
  | .conditional _ _ _ (some _), _ => rfl
  | .function _ _ _, _ => rfl
  | .call _ _ _, _ => rfl

mutual

theorem Statement.outcome_evaluate : (tree : Statement (Token α)) →
    tree.Every Node.Faithful → tree.evaluate.outcome = (tree.mapTokens fun _ => ()).outcome
  | .binding _ _ _, _ => rfl
  | .returning _ none, _ => rfl
  | .returning _ (some _), _ => rfl
  | .expression _ value, ⟨_, below⟩ => value.outcome_evaluate below
  | .block body, ⟨_, below⟩ => body.outcome_evaluate below

/-- Faithful statements one after another come to the same without their tokens. -/
theorem outcome_evaluateStatements : (last : Value) → (trees : List (Statement (Token α))) →
    EveryStatement Node.Faithful trees → (evaluateStatements last trees).outcome =
      outcomeStatements last (mapStatements (fun _ => ()) trees)
  | _, [], _ => rfl
  | last, tree :: trees, ⟨below, below_trees⟩ => by
    rw [evaluateStatements, Evaluation.outcome_andThen, tree.outcome_evaluate below,
      mapStatements, outcomeStatements]
    congr 1
    funext value
    rw [Evaluation.outcome_noting]
    exact outcome_evaluateStatements value trees below_trees

theorem Block.outcome_evaluate : (tree : Block (Token α)) →
    tree.Every Node.Faithful → tree.evaluate.outcome = (tree.mapTokens fun _ => ()).outcome
  | .mk _ statements, ⟨_, below⟩ => outcome_evaluateStatements .null statements below

end

/-- What a program with faithful nodes comes to is what it comes to without its tokens. -/
theorem Program.outcome_evaluate {program : Program (Token α)}
    (faithful : program.Every Node.Faithful) :
    program.evaluate.outcome = outcomeStatements .null program.bare.statements :=
  outcome_evaluateStatements .null program.statements faithful

end Scriptlet
