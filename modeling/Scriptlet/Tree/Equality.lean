import Scriptlet.Tree

/-!
# Equality of trees

Two trees are equal when they have the same shape and carry the same names, values, operators and
tokens throughout. `Expression.same` and its companions decide this, as `Expression.same_iff`
says, and the instances below are made from them.
-/

namespace Scriptlet

variable {τ : Type} [DecidableEq τ]

mutual

/-- Whether two expressions are equal. -/
def Expression.same : Expression τ → Expression τ → Bool
  | .identifier name, .identifier name' => name = name'
  | .integerLiteral token value, .integerLiteral token' value' => token = token' && value = value'
  | .booleanLiteral token value, .booleanLiteral token' value' => token = token' && value = value'
  | .prefixed token operator operand, .prefixed token' operator' operand' =>
    token = token' && operator = operator' && operand.same operand'
  | .infixed token operator left right, .infixed token' operator' left' right' =>
    token = token' && operator = operator' && left.same left' && right.same right'
  | .conditional token condition consequence none,
      .conditional token' condition' consequence' none =>
    token = token' && condition.same condition' && consequence.same consequence'
  | .conditional token condition consequence (some alternative),
      .conditional token' condition' consequence' (some alternative') =>
    token = token' && condition.same condition' && consequence.same consequence' &&
      alternative.same alternative'
  | .function token parameters body, .function token' parameters' body' =>
    token = token' && parameters = parameters' && body.same body'
  | .call token callee arguments, .call token' callee' arguments' =>
    token = token' && callee.same callee' && sameArguments arguments arguments'
  | _, _ => false

/-- Whether two argument lists are equal. -/
def sameArguments : List (Expression τ) → List (Expression τ) → Bool
  | [], [] => true
  | argument :: arguments, argument' :: arguments' =>
    argument.same argument' && sameArguments arguments arguments'
  | _, _ => false

/-- Whether two statements are equal. -/
def Statement.same : Statement τ → Statement τ → Bool
  | .binding token name value, .binding token' name' value' =>
    token = token' && name = name' && value.same value'
  | .returning token none, .returning token' none => token = token'
  | .returning token (some value), .returning token' (some value') =>
    token = token' && value.same value'
  | .expression token value, .expression token' value' => token = token' && value.same value'
  | .block body, .block body' => body.same body'
  | _, _ => false

/-- Whether two lists of statements are equal. -/
def sameStatements : List (Statement τ) → List (Statement τ) → Bool
  | [], [] => true
  | statement :: statements, statement' :: statements' =>
    statement.same statement' && sameStatements statements statements'
  | _, _ => false

/-- Whether two blocks are equal. -/
def Block.same : Block τ → Block τ → Bool
  | .mk token statements, .mk token' statements' =>
    token = token' && sameStatements statements statements'

end

mutual

theorem Expression.same_iff : (a b : Expression τ) → (a.same b = true ↔ a = b)
  | .identifier .., b => by cases b <;> simp [Expression.same]
  | .integerLiteral .., b => by cases b <;> simp [Expression.same]
  | .booleanLiteral .., b => by cases b <;> simp [Expression.same]
  | .prefixed _ _ operand, b => by
    cases b <;> simp [Expression.same, Expression.same_iff operand, and_assoc]
  | .infixed _ _ left right, b => by
    cases b <;>
      simp [Expression.same, Expression.same_iff left, Expression.same_iff right, and_assoc]
  | .conditional _ condition consequence none, b => by
    cases b
    case conditional alternative =>
      cases alternative <;>
        simp [Expression.same, Expression.same_iff condition, Block.same_iff consequence,
          and_assoc]
    all_goals simp [Expression.same]
  | .conditional _ condition consequence (some alternative), b => by
    cases b
    case conditional alternative' =>
      cases alternative' <;>
        simp [Expression.same, Expression.same_iff condition, Block.same_iff consequence,
          Block.same_iff alternative, and_assoc]
    all_goals simp [Expression.same]
  | .function _ _ body, b => by
    cases b <;> simp [Expression.same, Block.same_iff body, and_assoc]
  | .call _ callee arguments, b => by
    cases b <;>
      simp [Expression.same, Expression.same_iff callee, sameArguments_iff arguments, and_assoc]

theorem sameArguments_iff : (as bs : List (Expression τ)) → (sameArguments as bs = true ↔ as = bs)
  | [], bs => by cases bs <;> simp [sameArguments]
  | a :: as, bs => by
    cases bs <;> simp [sameArguments, Expression.same_iff a, sameArguments_iff as]

theorem Statement.same_iff : (a b : Statement τ) → (a.same b = true ↔ a = b)
  | .binding _ _ value, b => by
    cases b <;> simp [Statement.same, Expression.same_iff value, and_assoc]
  | .returning _ none, b => by
    cases b
    case returning value => cases value <;> simp [Statement.same]
    all_goals simp [Statement.same]
  | .returning _ (some value), b => by
    cases b
    case returning value' => cases value' <;> simp [Statement.same, Expression.same_iff value]
    all_goals simp [Statement.same]
  | .expression _ value, b => by
    cases b <;> simp [Statement.same, Expression.same_iff value]
  | .block body, b => by cases b <;> simp [Statement.same, Block.same_iff body]

theorem sameStatements_iff :
    (as bs : List (Statement τ)) → (sameStatements as bs = true ↔ as = bs)
  | [], bs => by cases bs <;> simp [sameStatements]
  | a :: as, bs => by
    cases bs <;> simp [sameStatements, Statement.same_iff a, sameStatements_iff as]

theorem Block.same_iff : (a b : Block τ) → (a.same b = true ↔ a = b)
  | .mk _ statements, .mk _ statements' => by
    simp [Block.same, sameStatements_iff statements statements']

end

instance : DecidableEq (Expression τ) := fun a b => decidable_of_iff _ (a.same_iff b)

instance : DecidableEq (Statement τ) := fun a b => decidable_of_iff _ (a.same_iff b)

instance : DecidableEq (Block τ) := fun a b => decidable_of_iff _ (a.same_iff b)

deriving instance DecidableEq for Program

end Scriptlet
