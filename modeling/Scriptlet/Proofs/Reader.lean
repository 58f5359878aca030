import Scriptlet.Proofs.Grammar
import Scriptlet.Proofs.Words

/-!
# Readers

A reader restores the tree of a canonical text. It takes one word after the other and never looks
ahead; what it has begun and not yet finished it keeps in frames, the innermost first. It reads more
than the parser does, blocks among statements and negative numbers, but from canonical texts only,
and it does not complain about others.

A sign after a parenthesis may be that of a negation or that of a number on the left of an operator.
The reader takes it to be the former, and negates again when it comes to the operator.
-/

namespace Scriptlet

/-- Something that has been begun. -/
inductive Frame where
  /-- An operation, of which the parenthesis has been read. -/
  | group
  /-- An operation, up to the operator before its operand. -/
  | prefixed (operator : String)
  /-- An operation, up to the operator between its operands. -/
  | infixed (operator : String) (left : Expression Unit)
  /-- A call, up to one of its arguments. -/
  | call (callee : Expression Unit) (arguments : List (Expression Unit))
  /-- A conditional, up to its condition. -/
  | condition
  /-- A binding, up to its value. -/
  | binding (name : String)
  /-- A return, up to its value. -/
  | returning
  /-- Statements, up to one of them. -/
  | statements (earlier : List (Statement Unit))
  /-- A conditional, up to its first block. -/
  | consequence (condition : Expression Unit)
  /-- A conditional, up to its second block. -/
  | alternative (condition : Expression Unit) (consequence : Block Unit)
  /-- A function, up to its block. -/
  | function (parameters : List (Name Unit))
  /-- A statement that is a block. -/
  | block

/-- What the next word is part of. -/
inductive Focus where
  /-- An expression or a statement begins. -/
  | anew
  /-- The digits after a sign. -/
  | sign
  /-- Something behind an expression. -/
  | tree (tree : Expression Unit)
  /-- The name of a binding. -/
  | name
  /-- The parameters of a function. -/
  | parameters (names : List (Name Unit))
  /-- The brace that opens a block. -/
  | brace
  /-- A word that says nothing. -/
  | skipped

/-- What has been read of a text, and what comes next. -/
structure Reader where
  focus : Focus
  frames : List Frame

namespace Expression

/-- The expression with the sign of its first number changed. -/
def negate : Expression Unit → Expression Unit
  | .integerLiteral token value => .integerLiteral token (-value)
  | .call token callee arguments => .call token callee.negate arguments
  | tree => tree

/-- The canonical text begins with a sign. -/
def isNegative : Expression Unit → Bool
  | .integerLiteral _ value => decide (value.toInt < 0)
  | .call _ callee _ => callee.isNegative
  | _ => false

/-- Two signs take each other away, also at the least number that there is. -/
theorem negate_negate : (tree : Expression Unit) → tree.negate.negate = tree
  | .integerLiteral _ _ => congrArg _ Int64.neg_neg
  | .call _ callee _ => by simp only [negate, callee.negate_negate]
  | .identifier _ => rfl
  | .booleanLiteral _ _ => rfl
  | .prefixed _ _ _ => rfl
  | .infixed _ _ _ _ => rfl
  | .conditional _ _ _ _ => rfl
  | .function _ _ _ => rfl

end Expression

namespace Reader

/-- The number of a run of digits. -/
def number (token : Token Unit) : Int64 := Int64.ofNat (Decimal.value token.literal.toList)

theorem number_natural (n : Nat) :
    number ⟨.integer, Decimal.natural n, ()⟩ = Int64.ofNat n :=
  congrArg Int64.ofNat (Decimal.value_natural n)

/-- The statements of a block have been read. -/
def close (trees : List (Statement Unit)) : List Frame → Option Reader
  | .consequence condition :: frames =>
    some ⟨.tree (.conditional () condition (.mk () trees) none), frames⟩
  | .alternative condition consequence :: frames =>
    some ⟨.tree (.conditional () condition consequence (some (.mk () trees))), frames⟩
  | .function parameters :: frames => some ⟨.tree (.function () parameters (.mk () trees)), frames⟩
  | .block :: .statements earlier :: frames =>
    some ⟨.anew, .statements (earlier ++ [.block (.mk () trees)]) :: frames⟩
  | _ => none

/-- The first word of an expression or a statement, or the end of a list that has no more of them. -/
def begin (token : Token Unit) (frames : List Frame) : Option Reader :=
  match token.kind, frames with
  | .identifier, _ => some ⟨.tree (.identifier ⟨(), token.literal⟩), frames⟩
  | .integer, _ => some ⟨.tree (.integerLiteral () (number token)), frames⟩
  | .trueWord, _ => some ⟨.tree (.booleanLiteral () true), frames⟩
  | .falseWord, _ => some ⟨.tree (.booleanLiteral () false), frames⟩
  | .leftParen, _ => some ⟨.anew, .group :: frames⟩
  | .not, .group :: outer => some ⟨.anew, .prefixed token.literal :: outer⟩
  | .minus, .group :: outer => some ⟨.anew, .prefixed token.literal :: outer⟩
  | .minus, _ => some ⟨.sign, frames⟩
  | .ifWord, _ => some ⟨.skipped, .condition :: frames⟩
  | .fnWord, _ => some ⟨.parameters [], frames⟩
  | .letWord, _ => some ⟨.name, frames⟩
  | .returnWord, _ => some ⟨.anew, .returning :: frames⟩
  | .leftBrace, _ => some ⟨.anew, .statements [] :: .block :: frames⟩
  | .rightParen, .call callee trees :: outer => some ⟨.tree (.call () callee trees), outer⟩
  | .semicolon, .returning :: .statements earlier :: outer =>
    some ⟨.anew, .statements (earlier ++ [.returning () none]) :: outer⟩
  | .rightBrace, .statements trees :: outer => close trees outer
  | _, _ => none

/-- A word behind an expression. -/
def goOn (tree : Expression Unit) (token : Token Unit) (frames : List Frame) : Option Reader :=
  match token.kind, frames with
  | .leftParen, _ => some ⟨.anew, .call tree [] :: frames⟩
  | .elseWord, _ =>
    match tree with
    | .conditional _ condition consequence none =>
      some ⟨.brace, .alternative condition consequence :: frames⟩
    | _ => none
  | .rightParen, .prefixed operator :: outer => some ⟨.tree (.prefixed () operator tree), outer⟩
  | .rightParen, .infixed operator left :: outer =>
    some ⟨.tree (.infixed () operator left tree), outer⟩
  | .rightParen, .call callee trees :: outer =>
    some ⟨.tree (.call () callee (trees ++ [tree])), outer⟩
  | .rightParen, .condition :: outer => some ⟨.brace, .consequence tree :: outer⟩
  | .comma, .call callee trees :: outer => some ⟨.anew, .call callee (trees ++ [tree]) :: outer⟩
  | .semicolon, .binding name :: .statements earlier :: outer =>
    some ⟨.anew, .statements (earlier ++ [.binding () ⟨(), name⟩ tree]) :: outer⟩
  | .semicolon, .returning :: .statements earlier :: outer =>
    some ⟨.anew, .statements (earlier ++ [.returning () (some tree)]) :: outer⟩
  | .semicolon, .statements earlier :: outer =>
    some ⟨.anew, .statements (earlier ++ [.expression () tree]) :: outer⟩
  | .rightBrace, .statements earlier :: outer => close (earlier ++ [.expression () tree]) outer
  | _, .group :: outer => some ⟨.anew, .infixed token.literal tree :: outer⟩
  | _, .prefixed _ :: outer => some ⟨.anew, .infixed token.literal tree.negate :: outer⟩
  | _, _ => none

/-- The reader takes a word. -/
def step (reader : Reader) (token : Token Unit) : Option Reader :=
  match reader.focus with
  | .anew => begin token reader.frames
  | .sign => some ⟨.tree (.integerLiteral () (-number token)), reader.frames⟩
  | .tree tree => goOn tree token reader.frames
  | .name => some ⟨.skipped, .binding token.literal :: reader.frames⟩
  | .parameters names =>
    match token.kind with
    | .identifier => some ⟨.parameters (names ++ [⟨(), token.literal⟩]), reader.frames⟩
    | .rightParen => some ⟨.brace, .function names :: reader.frames⟩
    | _ => some reader
  | .brace => some ⟨.anew, .statements [] :: reader.frames⟩
  | .skipped => some ⟨.anew, reader.frames⟩

/-- The reader takes the words one after the other. -/
def run (reader : Reader) : List (Token Unit) → Option Reader
  | [] => some reader
  | token :: tokens => (reader.step token).bind (run · tokens)

/-- The statements that have been read, and what they stand in. -/
def read? (reader : Reader) : Option (List (Statement Unit) × List Frame) :=
  match reader.focus, reader.frames with
  | .anew, .statements trees :: frames => some (trees, frames)
  | .tree tree, .statements earlier :: frames => some (earlier ++ [.expression () tree], frames)
  | _, _ => none

/-- The brace that closes a block ends its statements. -/
theorem step_rightBrace {reader : Reader} {trees : List (Statement Unit)} {frames : List Frame}
    (read : reader.read? = some (trees, frames)) :
    reader.step (symbolToken '\x7d') = close trees frames := by
  obtain ⟨focus, stack⟩ := reader
  unfold read? at read
  split at read
  · next found stacked =>
    obtain ⟨rfl, rfl⟩ := Prod.mk.inj (Option.some.inj read)
    obtain rfl : focus = _ := found
    obtain rfl : stack = _ := stacked
    rfl
  · next found stacked =>
    obtain ⟨rfl, rfl⟩ := Prod.mk.inj (Option.some.inj read)
    obtain rfl : focus = _ := found
    obtain rfl : stack = _ := stacked
    rfl
  · cases read

/-- An expression has been read that began in the frames. -/
def after (tree : Expression Unit) : List Frame → Reader
  | .group :: outer =>
    if tree.isNegative then ⟨.tree tree.negate, .prefixed "-" :: outer⟩
    else ⟨.tree tree, .group :: outer⟩
  | frames => ⟨.tree tree, frames⟩

theorem after_of_isNegative_false {tree : Expression Unit} (unsigned : tree.isNegative = false)
    (frames : List Frame) : after tree frames = ⟨.tree tree, frames⟩ := by
  unfold after
  split
  · simp [unsigned]
  · rfl

/-- Whatever the reader takes an expression to be, it can be called. -/
theorem exists_after_call (tree : Expression Unit) (frames : List Frame) :
    ∃ callee outer, after tree frames = ⟨.tree callee, outer⟩ ∧
      ∀ trees, after (.call () tree trees) frames = ⟨.tree (.call () callee trees), outer⟩ := by
  by_cases signed : ∃ outer, frames = .group :: outer ∧ tree.isNegative = true
  · obtain ⟨outer, rfl, negative⟩ := signed
    exact ⟨tree.negate, .prefixed "-" :: outer, by simp [after, negative],
      by simp [after, Expression.isNegative, negative, Expression.negate]⟩
  · refine ⟨tree, frames, ?_, fun trees => ?_⟩
    · unfold after
      split <;> simp_all
    · unfold after
      split <;> simp_all [Expression.isNegative]

/-- An operator behind an expression in a parenthesis has it on its left. -/
theorem step_operator {kind : Kind} {layer : Grammar.Layer} (joins : kind ∈ layer.operators)
    (left : Expression Unit) (operator : String) (outer : List Frame) :
    (after left (.group :: outer)).step ⟨kind, operator, ()⟩ =
      some ⟨.anew, .infixed operator left :: outer⟩ := by
  have known : kind ∈ [Kind.equal, .notEqual, .less, .greater, .plus, .minus, .times, .divide] := by
    revert joins kind
    cases layer <;> simp [Grammar.Layer.operators]
  have takes (tree : Expression Unit) :
      goOn tree ⟨kind, operator, ()⟩ (.group :: outer) =
        some ⟨.anew, .infixed operator tree :: outer⟩ ∧
      goOn tree ⟨kind, operator, ()⟩ (.prefixed "-" :: outer) =
        some ⟨.anew, .infixed operator tree.negate :: outer⟩ := by
    simp only [List.mem_cons, List.not_mem_nil, or_false] at known
    rcases known with rfl | rfl | rfl | rfl | rfl | rfl | rfl | rfl <;> exact ⟨rfl, rfl⟩
  cases signed : left.isNegative with
  | true =>
    rw [after, if_pos signed]
    exact (takes left.negate).2.trans (by rw [left.negate_negate])
  | false =>
    rw [after_of_isNegative_false signed]
    exact (takes left).1

/-- What begins an expression is not the beginning of a sign. -/
theorem exists_first_of_run {tokens : List (Token Unit)} {reader : Reader}
    (read : run ⟨.anew, []⟩ tokens = some reader) (moved : reader.focus ≠ .anew) :
    ∃ token more, tokens = token :: more ∧ token.kind ≠ .assign ∧ token.kind ≠ .equal := by
  cases tokens with
  | nil =>
    obtain rfl := Option.some.inj read
    exact absurd rfl moved
  | cons token more =>
    refine ⟨token, more, rfl, ?_, ?_⟩
    · intro isAssign
      simp [run, step, begin, isAssign] at read
    · intro isEqual
      simp [run, step, begin, isEqual] at read

end Reader

end Scriptlet
