import Scriptlet.Tree

/-!
# Outlines

A tree as a flat list: its nodes from the root on, every node before its children and the
children in the order of the text. An entry says how deep a node lies and what it is to its
parent.
-/

namespace Scriptlet

/-- What a node is to its parent. -/
inductive Role where
  | root
  | statement
  | name
  | value
  | block
  | operand
  | left
  | right
  | condition
  | consequence
  | alternative
  | parameter
  | body
  | callee
  | argument
deriving DecidableEq

/-- The name of a role. -/
def Role.text : Role → String
  | root => "root"
  | statement => "stmt"
  | name => "name"
  | value => "value"
  | block => "block"
  | operand => "operand"
  | left => "left"
  | right => "right"
  | condition => "condition"
  | consequence => "consequence"
  | alternative => "alternative"
  | parameter => "parameter"
  | body => "body"
  | callee => "callee"
  | argument => "argument"

/-- Any part of a tree. -/
inductive Node (τ : Type) where
  | statement (part : Statement τ)
  | expression (part : Expression τ)
  | block (part : Block τ)
  | name (part : Name τ)

/-- What a node holds besides its children. -/
inductive Datum where
  | text (text : String)
  | integer (value : Int64)
  | truth (value : Bool)
deriving DecidableEq

variable {τ : Type}

namespace Node

/-- The name of what a node is. -/
def kindText : Node τ → String
  | .statement part => part.kind.text
  | .expression part => part.kind.text
  | .block _ => "block"
  | .name _ => "name"

/-- The token a node is known by. -/
def token : Node τ → τ
  | .statement part => part.token
  | .expression part => part.token
  | .block part => part.token
  | .name part => part.token

/-- What a node holds besides its children, if anything. -/
def datum? : Node τ → Option Datum
  | .name part => some (.text part.text)
  | .expression (.identifier part) => some (.text part.text)
  | .expression (.integerLiteral _ value) => some (.integer value)
  | .expression (.booleanLiteral _ value) => some (.truth value)
  | .expression (.prefixed _ operator _) => some (.text operator)
  | .expression (.infixed _ operator _ _) => some (.text operator)
  | .expression (.conditional ..) => none
  | .expression (.function ..) => none
  | .expression (.call ..) => none
  | .statement _ => none
  | .block _ => none

end Node

/-- A node with its place in the tree. -/
structure OutlineEntry (τ : Type) where
  depth : Nat
  role : Role
  node : Node τ

/-- The entry of a name. -/
def Name.outline (depth : Nat) (role : Role) (name : Name τ) : OutlineEntry τ :=
  ⟨depth, role, .name name⟩

mutual

/-- The outline of an expression that lies so deep. -/
def Expression.outline (depth : Nat) (role : Role) : Expression τ → List (OutlineEntry τ)
  | .identifier name => [⟨depth, role, .expression (.identifier name)⟩]
  | .integerLiteral token value => [⟨depth, role, .expression (.integerLiteral token value)⟩]
  | .booleanLiteral token value => [⟨depth, role, .expression (.booleanLiteral token value)⟩]
  | .prefixed token operator operand =>
    ⟨depth, role, .expression (.prefixed token operator operand)⟩ ::
      operand.outline (depth + 1) .operand
  | .infixed token operator left right =>
    ⟨depth, role, .expression (.infixed token operator left right)⟩ ::
      (left.outline (depth + 1) .left ++ right.outline (depth + 1) .right)
  | .conditional token condition consequence none =>
    ⟨depth, role, .expression (.conditional token condition consequence none)⟩ ::
      (condition.outline (depth + 1) .condition ++ consequence.outline (depth + 1) .consequence)
  | .conditional token condition consequence (some alternative) =>
    ⟨depth, role, .expression (.conditional token condition consequence (some alternative))⟩ ::
      (condition.outline (depth + 1) .condition ++
        (consequence.outline (depth + 1) .consequence ++
          alternative.outline (depth + 1) .alternative))
  | .function token parameters body =>
    ⟨depth, role, .expression (.function token parameters body)⟩ ::
      (parameters.map (Name.outline (depth + 1) .parameter) ++ body.outline (depth + 1) .body)
  | .call token callee arguments =>
    ⟨depth, role, .expression (.call token callee arguments)⟩ ::
      (callee.outline (depth + 1) .callee ++ outlineArguments (depth + 1) arguments)

/-- The outlines of arguments that lie so deep. -/
def outlineArguments (depth : Nat) : List (Expression τ) → List (OutlineEntry τ)
  | [] => []
  | argument :: arguments =>
    argument.outline depth .argument ++ outlineArguments depth arguments

/-- The outline of a statement that lies so deep. -/
def Statement.outline (depth : Nat) (role : Role) : Statement τ → List (OutlineEntry τ)
  | .binding token name value =>
    ⟨depth, role, .statement (.binding token name value)⟩ ::
      name.outline (depth + 1) .name :: value.outline (depth + 1) .value
  | .returning token none => [⟨depth, role, .statement (.returning token none)⟩]
  | .returning token (some value) =>
    ⟨depth, role, .statement (.returning token (some value))⟩ ::
      value.outline (depth + 1) .value
  | .expression token value =>
    ⟨depth, role, .statement (.expression token value)⟩ :: value.outline (depth + 1) .value
  | .block body =>
    ⟨depth, role, .statement (.block body)⟩ :: body.outline (depth + 1) .block

/-- The outlines of statements that lie so deep. -/
def outlineStatements (depth : Nat) : List (Statement τ) → List (OutlineEntry τ)
  | [] => []
  | statement :: statements =>
    statement.outline depth .statement ++ outlineStatements depth statements

/-- The outline of a block that lies so deep. -/
def Block.outline (depth : Nat) (role : Role) : Block τ → List (OutlineEntry τ)
  | .mk token statements =>
    ⟨depth, role, .block (.mk token statements)⟩ :: outlineStatements (depth + 1) statements

end

/-- The outline of a program, whose statements are its roots. -/
def Program.outline (program : Program τ) : List (OutlineEntry τ) :=
  outlineStatements 0 program.statements

end Scriptlet
