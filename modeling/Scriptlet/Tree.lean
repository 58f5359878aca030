/-!
# Syntax trees

What a program consists of. Every node keeps the token it was read at; trees are parametrised by
the type `τ` of these tokens, so that one type serves for trees read from a file, for trees whose
tokens are numbered, and, with `τ := Unit`, for the program without its tokens. `mapTokens`
moves between them and changes nothing else.

An operator is kept as text beside the token, and nothing asks that the two agree: a tree can be
built by hand.
-/

namespace Scriptlet

/-- A name (`Identifier`), as it stands in a `let` or in a list of parameters. -/
structure Name (τ : Type) where
  token : τ
  text : String
deriving DecidableEq

mutual

/-- An expression (`Expression`). The token of an infix operation is its operator, that of a call
the parenthesis before its arguments, and any other expression has its first token. -/
inductive Expression (τ : Type) where
  | identifier (name : Name τ)
  | integerLiteral (token : τ) (value : Int64)
  | booleanLiteral (token : τ) (value : Bool)
  | prefixed (token : τ) (operator : String) (operand : Expression τ)
  | infixed (token : τ) (operator : String) (left right : Expression τ)
  | conditional (token : τ) (condition : Expression τ) (consequence : Block τ)
      (alternative : Option (Block τ))
  | function (token : τ) (parameters : List (Name τ)) (body : Block τ)
  | call (token : τ) (callee : Expression τ) (arguments : List (Expression τ))

/-- A statement (`Statement`). -/
inductive Statement (τ : Type) where
  | binding (token : τ) (name : Name τ) (value : Expression τ)
  | returning (token : τ) (value : Option (Expression τ))
  | expression (token : τ) (value : Expression τ)
  | block (body : Block τ)

/-- Statements between braces (`BlockStatement`), with the token of the opening brace. -/
inductive Block (τ : Type) where
  | mk (token : τ) (statements : List (Statement τ))

end

/-- A whole program (`Program`). -/
structure Program (τ : Type) where
  statements : List (Statement τ)

/-- What a node of a tree is. -/
inductive NodeKind where
  | identifier
  | integerLiteral
  | booleanLiteral
  | prefixed
  | infixed
  | conditional
  | function
  | call
  | binding
  | returning
  | expression
  | block
deriving DecidableEq

/-- The name of a kind of node in messages: the name of its constructor. -/
def NodeKind.text : NodeKind → String
  | identifier => "Identifier"
  | integerLiteral => "IntegerLiteral"
  | booleanLiteral => "BooleanLiteral"
  | prefixed => "Prefix"
  | infixed => "Infix"
  | conditional => "If"
  | function => "FunctionLiteral"
  | call => "Call"
  | binding => "Let"
  | returning => "Return"
  | expression => "Expression"
  | block => "Block"

variable {τ υ : Type}

namespace Block

/-- The opening brace. -/
def token : Block τ → τ
  | .mk token _ => token

/-- The statements between the braces. -/
def statements : Block τ → List (Statement τ)
  | .mk _ statements => statements

end Block

namespace Expression

/-- What the expression is (`kind`). -/
def kind : Expression τ → NodeKind
  | .identifier .. => .identifier
  | .integerLiteral .. => .integerLiteral
  | .booleanLiteral .. => .booleanLiteral
  | .prefixed .. => .prefixed
  | .infixed .. => .infixed
  | .conditional .. => .conditional
  | .function .. => .function
  | .call .. => .call

/-- The token the expression is known by (`token`). -/
def token : Expression τ → τ
  | .identifier name => name.token
  | .integerLiteral token _ => token
  | .booleanLiteral token _ => token
  | .prefixed token _ _ => token
  | .infixed token _ _ _ => token
  | .conditional token _ _ _ => token
  | .function token _ _ => token
  | .call token _ _ => token

end Expression

namespace Statement

/-- What the statement is (`kind`). -/
def kind : Statement τ → NodeKind
  | .binding .. => .binding
  | .returning .. => .returning
  | .expression .. => .expression
  | .block _ => .block

/-- The first token of the statement (`token`). -/
def token : Statement τ → τ
  | .binding token _ _ => token
  | .returning token _ => token
  | .expression token _ => token
  | .block body => body.token

end Statement

/-- The first token of the program, if it has a statement (`token`). -/
def Program.token (program : Program τ) : Option τ := program.statements.head?.map Statement.token

/-- The same name with another token. -/
def Name.mapTokens (f : τ → υ) (name : Name τ) : Name υ := ⟨f name.token, name.text⟩

mutual

/-- The same expression with other tokens. -/
def Expression.mapTokens (f : τ → υ) : Expression τ → Expression υ
  | .identifier name => .identifier (name.mapTokens f)
  | .integerLiteral token value => .integerLiteral (f token) value
  | .booleanLiteral token value => .booleanLiteral (f token) value
  | .prefixed token operator operand => .prefixed (f token) operator (operand.mapTokens f)
  | .infixed token operator left right =>
    .infixed (f token) operator (left.mapTokens f) (right.mapTokens f)
  | .conditional token condition consequence none =>
    .conditional (f token) (condition.mapTokens f) (consequence.mapTokens f) none
  | .conditional token condition consequence (some alternative) =>
    .conditional (f token) (condition.mapTokens f) (consequence.mapTokens f)
      (some (alternative.mapTokens f))
  | .function token parameters body =>
    .function (f token) (parameters.map (Name.mapTokens f)) (body.mapTokens f)
  | .call token callee arguments =>
    .call (f token) (callee.mapTokens f) (mapArguments f arguments)

/-- The same arguments with other tokens. -/
def mapArguments (f : τ → υ) : List (Expression τ) → List (Expression υ)
  | [] => []
  | argument :: arguments => argument.mapTokens f :: mapArguments f arguments

/-- The same statement with other tokens. -/
def Statement.mapTokens (f : τ → υ) : Statement τ → Statement υ
  | .binding token name value => .binding (f token) (name.mapTokens f) (value.mapTokens f)
  | .returning token none => .returning (f token) none
  | .returning token (some value) => .returning (f token) (some (value.mapTokens f))
  | .expression token value => .expression (f token) (value.mapTokens f)
  | .block body => .block (body.mapTokens f)

/-- The same statements with other tokens. -/
def mapStatements (f : τ → υ) : List (Statement τ) → List (Statement υ)
  | [] => []
  | statement :: statements => statement.mapTokens f :: mapStatements f statements

/-- The same block with other tokens. -/
def Block.mapTokens (f : τ → υ) : Block τ → Block υ
  | .mk token statements => .mk (f token) (mapStatements f statements)

end

/-- The same program with other tokens. -/
def Program.mapTokens (f : τ → υ) (program : Program τ) : Program υ :=
  ⟨mapStatements f program.statements⟩

/-- The program without its tokens. -/
def Program.bare (program : Program τ) : Program Unit := program.mapTokens fun _ => ()

end Scriptlet
