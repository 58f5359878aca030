/-!
# Tokens

The words of the language: what kinds there are, how a kind is named in a message, and which
letter runs are keywords. A token carries the text it was read from and a mark `α` of where that
text stands; in a program read from a file the mark is a `Location`.
-/

namespace Scriptlet

/-- What a token is (`TokenKind`). -/
inductive Kind where
  | illegal
  | eof
  | identifier
  | integer
  | assign
  | equal
  | notEqual
  | plus
  | minus
  | times
  | divide
  | not
  | comma
  | semicolon
  | leftParen
  | rightParen
  | leftBrace
  | rightBrace
  | less
  | greater
  | fnWord
  | letWord
  | ifWord
  | elseWord
  | returnWord
  | trueWord
  | falseWord
deriving DecidableEq

namespace Kind

/-- The name of a kind in messages, as `TokenKind` displays it. -/
def text : Kind → String
  | illegal => "ILLEGAL"
  | eof => "EOF"
  | identifier => "IDENTIFIER"
  | integer => "INT"
  | assign => "="
  | equal => "=="
  | notEqual => "!="
  | plus => "+"
  | minus => "-"
  | times => "*"
  | divide => "/"
  | not => "!"
  | comma => ","
  | semicolon => ";"
  | leftParen => "("
  | rightParen => ")"
  | leftBrace => "\x7b"
  | rightBrace => "\x7d"
  | less => "<"
  | greater => ">"
  | fnWord => "FUNCTION"
  | letWord => "LET"
  | ifWord => "IF"
  | elseWord => "ELSE"
  | returnWord => "RETURN"
  | trueWord => "TRUE"
  | falseWord => "FALSE"

/-- The letter runs that are not names (`KEYWORDS`). -/
def keywords : List (String × Kind) :=
  [("fn", fnWord), ("let", letWord), ("if", ifWord), ("else", elseWord),
    ("return", returnWord), ("true", trueWord), ("false", falseWord)]

/-- The kind of a run of letters, as `identifier` looks it up. -/
def ofWord (word : String) : Kind := (keywords.lookup word).getD identifier

/-- The kind of a character that is a token by itself, from the table in `next_token`. -/
def ofSymbol : Char → Kind
  | '=' => assign
  | '!' => not
  | '+' => plus
  | '-' => minus
  | '*' => times
  | '/' => divide
  | ',' => comma
  | ';' => semicolon
  | '(' => leftParen
  | ')' => rightParen
  | '\x7b' => leftBrace
  | '\x7d' => rightBrace
  | '<' => less
  | '>' => greater
  | _ => illegal

end Kind

/-- A token (`Token`) with its text and the mark `α` of its place. -/
structure Token (α : Type) where
  kind : Kind
  literal : String
  location : α
deriving DecidableEq

end Scriptlet
