import Scriptlet.Decimal
import Scriptlet.Tree

/-!
# Rendering trees

The canonical text of a tree. Every operation stands in parentheses, whatever the precedences
are, so that the text shows the shape of the tree. An expression statement that another statement
follows ends with a semicolon: without it `a; -b` would be written `a(-b)`, which is a call.
-/

namespace Scriptlet

/-- Each text after a comma and a space. -/
def commaEach : List String → String
  | [] => ""
  | text :: texts => ", " ++ text ++ commaEach texts

/-- The texts with a comma and a space between them (`join`). -/
def commaSeparated : List String → String
  | [] => ""
  | text :: texts => text ++ commaEach texts

/-- The text of a truth value. -/
def truthText (value : Bool) : String := if value then "true" else "false"

/-- What separates a statement from those that follow it in a list, as `concat` has it. -/
def Statement.separator {τ : Type} (statement : Statement τ) (last : Bool) : String :=
  if statement.kind = .expression ∧ last = false then ";" else ""

variable {τ : Type}

mutual

/-- The canonical text of an expression (`render`). Its parentheses are those of `parenthesize`. -/
def Expression.render : Expression τ → String
  | .identifier name => name.text
  | .integerLiteral _ value => Decimal.integer value.toInt
  | .booleanLiteral _ value => truthText value
  | .prefixed _ operator operand => "(" ++ operator ++ operand.render ++ ")"
  | .infixed _ operator left right =>
    "(" ++ left.render ++ " " ++ operator ++ " " ++ right.render ++ ")"
  | .conditional _ condition consequence none =>
    "if (" ++ condition.render ++ ") " ++ consequence.render
  | .conditional _ condition consequence (some alternative) =>
    "if (" ++ condition.render ++ ") " ++ consequence.render ++ " else " ++ alternative.render
  | .function _ parameters body =>
    "fn(" ++ commaSeparated (parameters.map Name.text) ++ ") " ++ body.render
  | .call _ callee arguments =>
    callee.render ++ "(" ++ commaSeparated (renderEach arguments) ++ ")"

/-- The canonical texts of expressions. -/
def renderEach : List (Expression τ) → List String
  | [] => []
  | expression :: expressions => expression.render :: renderEach expressions

/-- The canonical text of a statement (`render`). -/
def Statement.render : Statement τ → String
  | .binding _ name value => "let " ++ name.text ++ " = " ++ value.render ++ ";"
  | .returning _ none => "return;"
  | .returning _ (some value) => "return " ++ value.render ++ ";"
  | .expression _ value => value.render
  | .block body => body.render

/-- The canonical text of a list of statements (`concat`). -/
def renderStatements : List (Statement τ) → String
  | [] => ""
  | statement :: statements =>
    statement.render ++ statement.separator statements.isEmpty ++ renderStatements statements

/-- The canonical text of a block (`render`). -/
def Block.render : Block τ → String
  | .mk _ statements => "\x7b" ++ renderStatements statements ++ "\x7d"

end

/-- The canonical text of a program (`render`). -/
def Program.render (program : Program τ) : String := renderStatements program.statements

end Scriptlet
