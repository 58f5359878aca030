import Scriptlet.Attempt
import Scriptlet.Tree

/-!
# Parsing

How programs, statements and expressions are read from a token stream. Each function looks at the
current token and the one after it, and ends standing on the last token of what it has read.

An expression is read by its first token, which gives an operand, and then by every operator that
holds the operand more tightly than the precedence asks for. Only lists of statements go on after
a problem: the statement is left out, and the next one begins after the token at which reading
stopped.

A call without a step in between leads from a function of higher rank to one of lower rank, and
any other call has fewer tokens left. So seven for each token left, and the rank, bound them all.
-/

namespace Scriptlet.Parse

variable {α : Type}

/-- The name that the current token is (`parse_identifier`). -/
def name (stream : TokenStream α) : Name (Token α) := ⟨stream.current, stream.current.literal⟩

/-- A statement may end with a semicolon (`skip_semicolon`). -/
def ending {stream : TokenStream α} (statement : Statement (Token α)) :
    Attempt stream (Statement (Token α)) :=
  if stream.peek.kind = .semicolon then .moving (.give statement) else .give statement

/-- One name or more between commas, and the closing parenthesis: the loop of
`parse_function_parameters`. -/
def parameterList (stream : TokenStream α) : Attempt stream (List (Name (Token α))) :=
  .expecting .identifier fun _ =>
    if stream.advance.peek.kind = .comma then
      .moving ((parameterList stream.advance.advance).map (name stream.advance :: ·))
    else .expecting .rightParen fun _ => .give [name stream.advance]
termination_by stream.size
decreasing_by
  have more := stream.one_lt_size (by simp [*])
  simp only [TokenStream.size_advance]
  omega

/-- The parameters of a function after their opening parenthesis (`parse_function_parameters`). -/
def parameters (stream : TokenStream α) : Attempt stream (List (Name (Token α))) :=
  if stream.peek.kind = .rightParen then .moving (.give []) else parameterList stream

mutual

/-- An expression whose operators all hold more tightly than `precedence` (`parse_expression`). -/
def expression (precedence : Precedence) (stream : TokenStream α) :
    Attempt stream (Expression (Token α)) :=
  .noting (.entered precedence stream.current) <|
    (operand stream).andThen fun left rest _ => operators precedence left rest
termination_by 7 * stream.size + 3
decreasing_by all_goals grind

/-- What the current token begins. The handler is chosen as `register_prefix` is told:
`parse_identifier`, `parse_integer_literal`, `parse_boolean_literal`, `parse_prefix_expression`,
`parse_grouped_expression`, `parse_if_expression` or `parse_function_literal`. -/
def operand (stream : TokenStream α) : Attempt stream (Expression (Token α)) :=
  match _ : stream.current.kind with
  | .identifier => .give (.identifier (name stream))
  | .integer =>
    match Decimal.word? stream.current.literal.toList with
    | some value => .give (.integerLiteral stream.current value)
    | none => .refuse (.tooLarge stream.current)
  | .trueWord => .give (.booleanLiteral stream.current true)
  | .falseWord => .give (.booleanLiteral stream.current false)
  | .not | .minus =>
    .moving ((expression .unary stream.advance).map
      (.prefixed stream.current stream.current.literal))
  | .leftParen =>
    .moving ((expression .lowest stream.advance).andThen fun inner _ _ =>
      .expecting .rightParen fun _ => .give inner)
  | .ifWord => conditional stream
  | .fnWord => function stream
  | _ => .refuse (.noExpression stream.current)
termination_by 7 * stream.size + 2
decreasing_by
  all_goals
    have more := stream.size_pos (by simp [*])
    grind

/-- The operators after an operand that hold it more tightly than `precedence`, with what stands
on their right: the loop of `parse_expression`, with `parse_infix_expression` and
`parse_call_expression`. -/
def operators (precedence : Precedence) (left : Expression (Token α)) (stream : TokenStream α) :
    Attempt stream (Expression (Token α)) :=
  if _ : precedence < .ofKind stream.peek.kind then
    if stream.peek.kind = .leftParen then
      .moving ((arguments stream.advance).andThen fun arguments rest _ =>
        operators precedence (.call stream.peek left arguments) rest)
    else
      .moving (.moving
        ((expression (.ofKind stream.peek.kind) stream.advance.advance).andThen fun right rest _ =>
          operators precedence (.infixed stream.peek stream.peek.literal left right) rest))
  else .give left
termination_by 7 * stream.size + 1
decreasing_by
  all_goals
    have more := stream.one_lt_size (Precedence.ne_eof_of_lt (by assumption))
    grind

/-- The arguments of a call after their opening parenthesis (`parse_call_arguments`). -/
def arguments (stream : TokenStream α) : Attempt stream (List (Expression (Token α))) :=
  if stream.peek.kind = .rightParen then .moving (.give []) else argumentList stream
termination_by 7 * stream.size + 5
decreasing_by all_goals grind

/-- One expression or more between commas, and the closing parenthesis: the loop of
`parse_call_arguments`. -/
def argumentList (stream : TokenStream α) : Attempt stream (List (Expression (Token α))) :=
  .moving ((expression .lowest stream.advance).andThen fun argument rest _ =>
    if _ : rest.peek.kind = .comma then
      .moving ((argumentList rest.advance).map (argument :: ·))
    else .expecting .rightParen fun _ => .give [argument])
termination_by 7 * stream.size + 4
decreasing_by
  · grind
  · have more := rest.one_lt_size (by simp [*])
    grind

/-- A condition in parentheses, a block, and perhaps another one (`parse_if_expression`). -/
def conditional (stream : TokenStream α) : Attempt stream (Expression (Token α)) :=
  .expecting .leftParen fun _ =>
    .moving ((expression .lowest stream.advance.advance).andThen fun condition rest _ =>
      .expecting .rightParen fun _ => .expecting .leftBrace fun _ =>
        (block rest.advance.advance).andThen fun consequence rest _ =>
          (alternative rest).map (.conditional stream.current condition consequence))
termination_by 7 * stream.size + 1
decreasing_by
  all_goals
    have more := stream.one_lt_size (by simp [*])
    grind

/-- The block after `else`, if there is one, with which `parse_if_expression` ends. -/
def alternative (stream : TokenStream α) : Attempt stream (Option (Block (Token α))) :=
  if _ : stream.peek.kind = .elseWord then
    .moving (.expecting .leftBrace fun _ => (block stream.advance.advance).map some)
  else .give none
termination_by 7 * stream.size + 1
decreasing_by
  have more := stream.one_lt_size (by simp [*])
  grind

/-- Parameters in parentheses and a block (`parse_function_literal`). -/
def function (stream : TokenStream α) : Attempt stream (Expression (Token α)) :=
  .expecting .leftParen fun _ =>
    (parameters stream.advance).andThen fun parameters rest _ =>
      .expecting .leftBrace fun _ =>
        (block rest.advance).map (.function stream.current parameters)
termination_by 7 * stream.size + 1
decreasing_by
  have more := stream.one_lt_size (by simp [*])
  grind

/-- The statements of a block after its opening brace, which is the current token
(`parse_block_statement`). -/
def block (stream : TokenStream α) : Attempt stream (Block (Token α)) :=
  .noting (.opened stream.current) <|
    .moving ((blockStatements stream.advance).map (.mk stream.current))
termination_by 7 * stream.size + 6
decreasing_by grind

/-- Statements up to the closing brace or the end of the text: the loop of
`parse_block_statement`. -/
def blockStatements (stream : TokenStream α) : Attempt stream (List (Statement (Token α))) :=
  if _ : stream.current.kind = .rightBrace ∨ stream.current.kind = .eof then
    .noting (.closed stream.current) (.give [])
  else
    (statement stream).settle.andThen fun statement rest _ =>
      .moving ((blockStatements rest.advance).map (statement.toList ++ ·))
termination_by 7 * stream.size + 5
decreasing_by
  · grind
  · have more := stream.size_pos (by simp_all)
    grind

/-- One statement with its semicolon, if it has one: `parse_statement`, with `parse_let_statement`,
`parse_return_statement` and `parse_expression_statement`. -/
def statement (stream : TokenStream α) : Attempt stream (Statement (Token α)) :=
  match stream.current.kind with
  | .letWord =>
    .expecting .identifier fun _ => .expecting .assign fun _ =>
      .moving ((expression .lowest stream.advance.advance.advance).andThen fun value _ _ =>
        ending (.binding stream.current (name stream.advance) value))
  | .returnWord =>
    if stream.peek.kind = .semicolon ∨ stream.peek.kind = .rightBrace ∨
        stream.peek.kind = .eof then
      ending (.returning stream.current none)
    else
      .moving ((expression .lowest stream.advance).andThen fun value _ _ =>
        ending (.returning stream.current (some value)))
  | _ =>
    (expression .lowest stream).andThen fun value _ _ =>
      ending (.expression stream.current value)
termination_by 7 * stream.size + 4
decreasing_by all_goals grind

end

/-- Statements up to the end of the text: the loop of `parse_program`. -/
def statements (stream : TokenStream α) : Attempt stream (List (Statement (Token α))) :=
  if _ : stream.current.kind = .eof then .give []
  else
    (statement stream).settle.andThen fun statement rest _ =>
      .moving ((statements rest.advance).map (statement.toList ++ ·))
termination_by stream.size
decreasing_by
  have more := stream.size_pos (by assumption)
  simp only [TokenStream.size_advance]
  omega

end Scriptlet.Parse
