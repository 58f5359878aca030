import Mathlib.Algebra.Group.Nat.Defs
import Scriptlet.Decimal
import Scriptlet.Tree
import Scriptlet.Token

/-!
# The grammar

What programs are, as a relation between tokens and trees that knows nothing of how they are read.
`Derives phrase input rest` says that the tokens of `input` that stand before `rest` are written by
the rules of the grammar as the tree of `phrase`. The tokens that follow are part of the relation
because two rules ask about them: a block may lack its brace only at the end of the text, and a
statement may lack its semicolon only if what follows cannot be taken for more of it.

Expressions come in layers. The operators of a layer join expressions of that layer on their left
and of the next tighter one on their right, so operators of one layer group to the left.
-/

namespace Scriptlet.Grammar

variable {α : Type}

/-- The layers of expressions, from the loosest operators to the tightest. -/
inductive Layer where
  | equality
  | comparison
  | sum
  | product
  | unary
  | call
  | primary
deriving DecidableEq

namespace Layer

/-- The operators that join two expressions at a layer. -/
def operators : Layer → List Kind
  | equality => [.equal, .notEqual]
  | comparison => [.less, .greater]
  | sum => [.plus, .minus]
  | product => [.times, .divide]
  | unary => []
  | call => []
  | primary => []

/-- The next tighter layer. -/
def tighter : Layer → Option Layer
  | equality => some comparison
  | comparison => some sum
  | sum => some product
  | product => some unary
  | unary => some call
  | call => some primary
  | primary => none

/-- The place of a layer in the order, counted from the loosest. -/
def rank : Layer → Nat
  | equality => 1
  | comparison => 2
  | sum => 3
  | product => 4
  | unary => 5
  | call => 6
  | primary => 7

theorem rank_of_tighter {layer next : Layer} (above : layer.tighter = some next) :
    next.rank = layer.rank + 1 := by
  cases layer <;> cases above <;> rfl

theorem rank_le_seven (layer : Layer) : layer.rank ≤ 7 := by cases layer <;> decide

theorem rank_inj {layer other : Layer} : layer.rank = other.rank ↔ layer = other := by
  cases layer <;> cases other <;> decide

theorem exists_tighter {layer : Layer} (loose : layer.rank < 7) :
    ∃ next, layer.tighter = some next := by
  cases layer <;> simp_all [tighter, rank]

end Layer

/-- A tree that tokens may spell. -/
inductive Phrase (α : Type) where
  | expression (layer : Layer) (tree : Expression (Token α))
  | arguments (trees : List (Expression (Token α)))
  | block (tree : Block (Token α))
  | statement (tree : Statement (Token α))
  | statements (trees : List (Statement (Token α)))

/-- Names between commas, none of them perhaps. -/
inductive Parameters : List (Name (Token α)) → List (Token α) → List (Token α) → Prop where
  | none (rest : List (Token α)) : Parameters [] rest rest
  | last {word : Token α} (rest : List (Token α)) (isName : word.kind = .identifier) :
      Parameters [⟨word, word.literal⟩] (word :: rest) rest
  | more {word comma : Token α} {name : Name (Token α)} {names : List (Name (Token α))}
      {input rest : List (Token α)} (isName : word.kind = .identifier)
      (isComma : comma.kind = .comma) (others : Parameters (name :: names) input rest) :
      Parameters (⟨word, word.literal⟩ :: name :: names) (word :: comma :: input) rest

/-- How a statement ends: with a semicolon, or without one before tokens that `allowed` permits. -/
inductive Ends (allowed : Kind → Prop) : List (Token α) → List (Token α) → Prop where
  | semicolon {mark : Token α} (rest : List (Token α)) (isMark : mark.kind = .semicolon) :
      Ends allowed (mark :: rest) rest
  | bare {rest : List (Token α)} (follows : ∀ next ∈ rest.head?, allowed next.kind) :
      Ends allowed rest rest

/-- What does not go on an expression, though it may begin one. -/
def StartsAnew (kind : Kind) : Prop := kind ≠ .minus ∧ kind ≠ .leftParen

/-- How a block ends: with its brace, or at the end of the text. -/
inductive Closes : List (Token α) → List (Token α) → Prop where
  | brace {closing : Token α} (rest : List (Token α)) (isBrace : closing.kind = .rightBrace) :
      Closes (closing :: rest) rest
  | ending : Closes [] []

/-- The tokens of `input` before `rest` are the phrase. -/
inductive Derives : Phrase α → List (Token α) → List (Token α) → Prop where
  /-- An expression of a tighter layer is one of a looser layer. -/
  | tighter {layer next : Layer} {tree : Expression (Token α)} {input rest : List (Token α)}
      (above : layer.tighter = some next) (tree_next : Derives (.expression next tree) input rest) :
      Derives (.expression layer tree) input rest
  | operation {layer next : Layer} {operator : Token α} {left right : Expression (Token α)}
      {input middle rest : List (Token α)} (above : layer.tighter = some next)
      (joins : operator.kind ∈ layer.operators)
      (left_layer : Derives (.expression layer left) input (operator :: middle))
      (right_next : Derives (.expression next right) middle rest) :
      Derives (.expression layer (.infixed operator operator.literal left right)) input rest
  | negation {operator : Token α} {operand : Expression (Token α)} {input rest : List (Token α)}
      (isSign : operator.kind = .not ∨ operator.kind = .minus)
      (operand_unary : Derives (.expression .unary operand) input rest) :
      Derives (.expression .unary (.prefixed operator operator.literal operand))
        (operator :: input) rest
  | call {opening closing : Token α} {callee : Expression (Token α)}
      {trees : List (Expression (Token α))} {input middle rest : List (Token α)}
      (callee_call : Derives (.expression .call callee) input (opening :: middle))
      (opens : opening.kind = .leftParen)
      (list : Derives (.arguments trees) middle (closing :: rest))
      (closes : closing.kind = .rightParen) :
      Derives (.expression .call (.call opening callee trees)) input rest
  | identifier {word : Token α} (rest : List (Token α)) (isName : word.kind = .identifier) :
      Derives (.expression .primary (.identifier ⟨word, word.literal⟩)) (word :: rest) rest
  | integer {digits : Token α} (rest : List (Token α)) (isNumber : digits.kind = .integer)
      (fits : Decimal.value digits.literal.toList < 2 ^ 63) :
      Derives (.expression .primary
        (.integerLiteral digits (Int64.ofNat (Decimal.value digits.literal.toList))))
        (digits :: rest) rest
  | truth {word : Token α} (rest : List (Token α)) (isTrue : word.kind = .trueWord) :
      Derives (.expression .primary (.booleanLiteral word true)) (word :: rest) rest
  | falsehood {word : Token α} (rest : List (Token α)) (isFalse : word.kind = .falseWord) :
      Derives (.expression .primary (.booleanLiteral word false)) (word :: rest) rest
  | group {opening closing : Token α} {tree : Expression (Token α)} {input rest : List (Token α)}
      (opens : opening.kind = .leftParen)
      (inner : Derives (.expression .equality tree) input (closing :: rest))
      (closes : closing.kind = .rightParen) :
      Derives (.expression .primary tree) (opening :: input) rest
  | conditional {word opening closing : Token α} {condition : Expression (Token α)}
      {consequence : Block (Token α)} {input middle rest : List (Token α)}
      (isIf : word.kind = .ifWord) (opens : opening.kind = .leftParen)
      (tested : Derives (.expression .equality condition) input (closing :: middle))
      (closes : closing.kind = .rightParen)
      (body : Derives (.block consequence) middle rest) :
      Derives (.expression .primary (.conditional word condition consequence none))
        (word :: opening :: input) rest
  | alternative {word opening closing otherwise : Token α} {condition : Expression (Token α)}
      {consequence replacement : Block (Token α)} {input middle last rest : List (Token α)}
      (isIf : word.kind = .ifWord) (opens : opening.kind = .leftParen)
      (tested : Derives (.expression .equality condition) input (closing :: middle))
      (closes : closing.kind = .rightParen)
      (body : Derives (.block consequence) middle (otherwise :: last))
      (isElse : otherwise.kind = .elseWord)
      (other : Derives (.block replacement) last rest) :
      Derives (.expression .primary
        (.conditional word condition consequence (some replacement)))
        (word :: opening :: input) rest
  | function {word opening closing : Token α} {names : List (Name (Token α))}
      {code : Block (Token α)} {input middle rest : List (Token α)}
      (isFn : word.kind = .fnWord) (opens : opening.kind = .leftParen)
      (list : Parameters names input (closing :: middle))
      (closes : closing.kind = .rightParen)
      (body : Derives (.block code) middle rest) :
      Derives (.expression .primary (.function word names code)) (word :: opening :: input) rest
  | noArguments (rest : List (Token α)) : Derives (.arguments []) rest rest
  | lastArgument {tree : Expression (Token α)} {input rest : List (Token α)}
      (argument : Derives (.expression .equality tree) input rest) :
      Derives (.arguments [tree]) input rest
  | moreArguments {comma : Token α} {tree second : Expression (Token α)}
      {trees : List (Expression (Token α))} {input middle rest : List (Token α)}
      (argument : Derives (.expression .equality tree) input (comma :: middle))
      (isComma : comma.kind = .comma)
      (others : Derives (.arguments (second :: trees)) middle rest) :
      Derives (.arguments (tree :: second :: trees)) input rest
  | block {opening : Token α} {trees : List (Statement (Token α))}
      {input middle rest : List (Token α)} (opens : opening.kind = .leftBrace)
      (body : Derives (.statements trees) input middle) (closes : Closes middle rest) :
      Derives (.block (.mk opening trees)) (opening :: input) rest
  | binding {word name assign : Token α} {value : Expression (Token α)}
      {input middle rest : List (Token α)} (isLet : word.kind = .letWord)
      (isName : name.kind = .identifier) (isAssign : assign.kind = .assign)
      (bound : Derives (.expression .equality value) input middle)
      (ends : Ends StartsAnew middle rest) :
      Derives (.statement (.binding word ⟨name, name.literal⟩ value))
        (word :: name :: assign :: input) rest
  | bareReturn {word : Token α} {middle rest : List (Token α)} (isReturn : word.kind = .returnWord)
      (ends : Ends (· = .rightBrace) middle rest) :
      Derives (.statement (.returning word none)) (word :: middle) rest
  | returning {word : Token α} {value : Expression (Token α)} {input middle rest : List (Token α)}
      (isReturn : word.kind = .returnWord)
      (returned : Derives (.expression .equality value) input middle)
      (ends : Ends StartsAnew middle rest) :
      Derives (.statement (.returning word (some value))) (word :: input) rest
  | expression {first : Token α} {value : Expression (Token α)}
      {input middle rest : List (Token α)}
      (stated : Derives (.expression .equality value) (first :: input) middle)
      (ends : Ends StartsAnew middle rest) :
      Derives (.statement (.expression first value)) (first :: input) rest
  | noStatements (rest : List (Token α)) : Derives (.statements []) rest rest
  | moreStatements {tree : Statement (Token α)} {trees : List (Statement (Token α))}
      {input middle rest : List (Token α)} (first : Derives (.statement tree) input middle)
      (others : Derives (.statements trees) middle rest) :
      Derives (.statements (tree :: trees)) input rest

/-- A looser layer takes in every tighter one. -/
theorem Derives.lower {layer looser : Layer} {tree : Expression (Token α)}
    {input rest : List (Token α)} (derived : Derives (.expression layer tree) input rest)
    (below : looser.rank ≤ layer.rank) : Derives (.expression looser tree) input rest := by
  obtain ⟨gap, apart⟩ := Nat.exists_eq_add_of_le below
  induction gap generalizing looser with
  | zero =>
    obtain rfl : looser = layer := Layer.rank_inj.mp apart.symm
    exact derived
  | succ gap ih =>
    have loose : looser.rank < 7 := by
      have := layer.rank_le_seven
      omega
    obtain ⟨next, above⟩ := Layer.exists_tighter loose
    have step := Layer.rank_of_tighter above
    exact .tighter above (ih (by omega) (by omega))

/-- An expression of any layer can stand where the rules ask for one. -/
theorem Derives.loosest {layer : Layer} {tree : Expression (Token α)} {input rest : List (Token α)}
    (derived : Derives (.expression layer tree) input rest) :
    Derives (.expression .equality tree) input rest :=
  derived.lower (by cases layer <;> decide)

private theorem suffix_of_cons {token : Token α} {rest input : List (Token α)}
    (tail : token :: rest <:+ input) : rest <:+ input :=
  (List.suffix_cons token rest).trans tail

private theorem suffix_cons_of {token : Token α} {rest input : List (Token α)}
    (tail : rest <:+ input) : rest <:+ token :: input :=
  tail.trans (List.suffix_cons token input)

/-- A phrase is read from the front of its input, so what is left is an end of it; here of
parameters. -/
theorem Parameters.suffix {names : List (Name (Token α))} {input rest : List (Token α)}
    (list : Parameters names input rest) : rest <:+ input := by
  induction list with
  | none rest => exact List.suffix_refl rest
  | last rest _ => exact List.suffix_cons _ rest
  | more _ _ _ ih => exact suffix_cons_of (suffix_cons_of ih)

theorem Ends.suffix {allowed : Kind → Prop} {middle rest : List (Token α)}
    (ends : Ends allowed middle rest) : rest <:+ middle := by
  cases ends with
  | semicolon rest _ => exact List.suffix_cons _ rest
  | bare _ => exact List.suffix_refl _

theorem Closes.suffix {middle rest : List (Token α)} (closes : Closes middle rest) :
    rest <:+ middle := by
  cases closes with
  | brace rest _ => exact List.suffix_cons _ rest
  | ending => exact List.suffix_refl []

/-- What follows a phrase is the end of the tokens that were there. -/
theorem Derives.suffix {phrase : Phrase α} {input rest : List (Token α)}
    (derived : Derives phrase input rest) : rest <:+ input := by
  induction derived with
  | tighter _ _ ih => exact ih
  | operation _ _ _ _ left right => exact right.trans (suffix_of_cons left)
  | negation _ _ ih => exact suffix_cons_of ih
  | call _ _ _ _ callee list => exact (suffix_of_cons list).trans (suffix_of_cons callee)
  | identifier rest _ => exact List.suffix_cons _ rest
  | integer rest _ _ => exact List.suffix_cons _ rest
  | truth rest _ => exact List.suffix_cons _ rest
  | falsehood rest _ => exact List.suffix_cons _ rest
  | group _ _ _ ih => exact suffix_cons_of (suffix_of_cons ih)
  | conditional _ _ _ _ _ tested body =>
    exact suffix_cons_of (suffix_cons_of (body.trans (suffix_of_cons tested)))
  | alternative _ _ _ _ _ _ _ tested body other =>
    have upToElse := (suffix_of_cons body).trans (suffix_of_cons tested)
    exact suffix_cons_of (suffix_cons_of (other.trans upToElse))
  | function _ _ list _ _ body =>
    exact suffix_cons_of (suffix_cons_of (body.trans (suffix_of_cons list.suffix)))
  | noArguments rest => exact List.suffix_refl rest
  | lastArgument _ ih => exact ih
  | moreArguments _ _ _ argument others => exact others.trans (suffix_of_cons argument)
  | block _ _ closes ih => exact suffix_cons_of (closes.suffix.trans ih)
  | binding _ _ _ _ ends ih =>
    exact suffix_cons_of (suffix_cons_of (suffix_cons_of (ends.suffix.trans ih)))
  | bareReturn _ ends => exact suffix_cons_of ends.suffix
  | returning _ _ ends ih => exact suffix_cons_of (ends.suffix.trans ih)
  | expression _ ends ih => exact ends.suffix.trans ih
  | noStatements rest => exact List.suffix_refl rest
  | moreStatements _ _ first others => exact others.trans first

end Scriptlet.Grammar
