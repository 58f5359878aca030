import Scriptlet.Tree.Outline

/-!
# Every node

A property of every node of a tree, by recursion on the tree. `every_iff_outline` says that the
nodes meant are those that the outline of the tree lists, whatever depth it is given.
-/

namespace Scriptlet

variable {τ : Type}

mutual

/-- Every node of the expression has the property. -/
def Expression.Every (property : Node τ → Prop) : Expression τ → Prop
  | .identifier name => property (.expression (.identifier name))
  | .integerLiteral token value => property (.expression (.integerLiteral token value))
  | .booleanLiteral token value => property (.expression (.booleanLiteral token value))
  | .prefixed token operator operand =>
    property (.expression (.prefixed token operator operand)) ∧ operand.Every property
  | .infixed token operator left right =>
    property (.expression (.infixed token operator left right)) ∧ left.Every property ∧
      right.Every property
  | .conditional token condition consequence none =>
    property (.expression (.conditional token condition consequence none)) ∧
      condition.Every property ∧ consequence.Every property
  | .conditional token condition consequence (some alternative) =>
    property (.expression (.conditional token condition consequence (some alternative))) ∧
      condition.Every property ∧ consequence.Every property ∧ alternative.Every property
  | .function token parameters body =>
    property (.expression (.function token parameters body)) ∧
      (∀ name ∈ parameters, property (.name name)) ∧ body.Every property
  | .call token callee arguments =>
    property (.expression (.call token callee arguments)) ∧ callee.Every property ∧
      EveryArgument property arguments

/-- Every node of the arguments has the property. -/
def EveryArgument (property : Node τ → Prop) : List (Expression τ) → Prop
  | [] => True
  | argument :: arguments => argument.Every property ∧ EveryArgument property arguments

/-- Every node of the statement has the property. -/
def Statement.Every (property : Node τ → Prop) : Statement τ → Prop
  | .binding token name value =>
    property (.statement (.binding token name value)) ∧ property (.name name) ∧
      value.Every property
  | .returning token none => property (.statement (.returning token none))
  | .returning token (some value) =>
    property (.statement (.returning token (some value))) ∧ value.Every property
  | .expression token value =>
    property (.statement (.expression token value)) ∧ value.Every property
  | .block body => property (.statement (.block body)) ∧ body.Every property

/-- Every node of the statements has the property. -/
def EveryStatement (property : Node τ → Prop) : List (Statement τ) → Prop
  | [] => True
  | statement :: statements => statement.Every property ∧ EveryStatement property statements

/-- Every node of the block has the property. -/
def Block.Every (property : Node τ → Prop) : Block τ → Prop
  | .mk token statements =>
    property (.block (.mk token statements)) ∧ EveryStatement property statements

end

/-- Every node of the program has the property. -/
def Program.Every (property : Node τ → Prop) (program : Program τ) : Prop :=
  EveryStatement property program.statements

variable {property other : Node τ → Prop}

mutual

/-- What is true of every node of an expression is true of every entry of its outline, at whatever
depth that begins. -/
theorem Expression.every_iff_outline (depth : Nat) (role : Role) : (tree : Expression τ) →
    (tree.Every property ↔ ∀ entry ∈ tree.outline depth role, property entry.node)
  | .identifier name => by simp [Expression.Every, Expression.outline]
  | .integerLiteral token value => by simp [Expression.Every, Expression.outline]
  | .booleanLiteral token value => by simp [Expression.Every, Expression.outline]
  | .prefixed token operator operand => by
    rw [Expression.Every, Expression.outline, List.forall_mem_cons,
      operand.every_iff_outline (depth + 1) .operand]
  | .infixed token operator left right => by
    rw [Expression.Every, Expression.outline, List.forall_mem_cons, List.forall_mem_append,
      left.every_iff_outline (depth + 1) .left, right.every_iff_outline (depth + 1) .right]
  | .conditional token condition consequence none => by
    rw [Expression.Every, Expression.outline, List.forall_mem_cons, List.forall_mem_append,
      condition.every_iff_outline (depth + 1) .condition,
      consequence.every_iff_outline (depth + 1) .consequence]
  | .conditional token condition consequence (some alternative) => by
    rw [Expression.Every, Expression.outline, List.forall_mem_cons, List.forall_mem_append,
      List.forall_mem_append, condition.every_iff_outline (depth + 1) .condition,
      consequence.every_iff_outline (depth + 1) .consequence,
      alternative.every_iff_outline (depth + 1) .alternative]
  | .function token parameters body => by
    rw [Expression.Every, Expression.outline, List.forall_mem_cons, List.forall_mem_append,
      List.forall_mem_map, body.every_iff_outline (depth + 1) .body]
    rfl
  | .call token callee arguments => by
    rw [Expression.Every, Expression.outline, List.forall_mem_cons, List.forall_mem_append,
      callee.every_iff_outline (depth + 1) .callee,
      everyArgument_iff_outline (depth + 1) arguments]

theorem everyArgument_iff_outline (depth : Nat) : (trees : List (Expression τ)) →
    (EveryArgument property trees ↔
      ∀ entry ∈ outlineArguments depth trees, property entry.node)
  | [] => by simp [EveryArgument, outlineArguments]
  | tree :: trees => by
    rw [EveryArgument, outlineArguments, List.forall_mem_append,
      tree.every_iff_outline depth .argument, everyArgument_iff_outline depth trees]

theorem Statement.every_iff_outline (depth : Nat) (role : Role) : (tree : Statement τ) →
    (tree.Every property ↔ ∀ entry ∈ tree.outline depth role, property entry.node)
  | .binding token name value => by
    rw [Statement.Every, Statement.outline, List.forall_mem_cons, List.forall_mem_cons,
      value.every_iff_outline (depth + 1) .value]
    rfl
  | .returning token none => by simp [Statement.Every, Statement.outline]
  | .returning token (some value) => by
    rw [Statement.Every, Statement.outline, List.forall_mem_cons,
      value.every_iff_outline (depth + 1) .value]
  | .expression token value => by
    rw [Statement.Every, Statement.outline, List.forall_mem_cons,
      value.every_iff_outline (depth + 1) .value]
  | .block body => by
    rw [Statement.Every, Statement.outline, List.forall_mem_cons,
      body.every_iff_outline (depth + 1) .block]

theorem everyStatement_iff_outline (depth : Nat) : (trees : List (Statement τ)) →
    (EveryStatement property trees ↔
      ∀ entry ∈ outlineStatements depth trees, property entry.node)
  | [] => by simp [EveryStatement, outlineStatements]
  | tree :: trees => by
    rw [EveryStatement, outlineStatements, List.forall_mem_append,
      tree.every_iff_outline depth .statement, everyStatement_iff_outline depth trees]

theorem Block.every_iff_outline (depth : Nat) (role : Role) : (tree : Block τ) →
    (tree.Every property ↔ ∀ entry ∈ tree.outline depth role, property entry.node)
  | .mk token statements => by
    rw [Block.Every, Block.outline, List.forall_mem_cons,
      everyStatement_iff_outline (depth + 1) statements]

end

/-- The nodes of a program are those that its outline lists. -/
theorem Program.every_iff_outline (program : Program τ) :
    program.Every property ↔ ∀ entry ∈ program.outline, property entry.node :=
  everyStatement_iff_outline 0 program.statements

/-- A property that follows from another at one node follows at all of them. -/
theorem Program.Every.mono {program : Program τ} (every : program.Every property)
    (weaker : ∀ node, property node → other node) : program.Every other := by
  rw [Program.every_iff_outline] at every ⊢
  intro entry member
  exact weaker entry.node (every entry member)

instance (property : Node τ → Prop) [DecidablePred property] (program : Program τ) :
    Decidable (program.Every property) :=
  decidable_of_iff _ program.every_iff_outline.symm

end Scriptlet
