import Scriptlet.Proofs.Branches
import Scriptlet.Proofs.Lexing
import Scriptlet.Proofs.Nodes

/-!
# What the parser builds

A tree can be built by hand so that a node says one thing and its token another. The parser never
does this: every node that it builds is `Faithful` to its token, also in a program that is kept
although something was wrong with the text.
-/

namespace Scriptlet

variable {α β γ : Type}

/-- The kinds of the operators between two operands. -/
def infixKinds : List Kind :=
  [.plus, .minus, .times, .divide, .less, .greater, .equal, .notEqual]

/-- A name is what its token says. -/
structure Name.Faithful (name : Name (Token α)) : Prop where
  kind : name.token.kind = .identifier
  text : name.token.literal = name.text
  isName : IsName name.text

/-- An operator is the text of its token, which is the name of the token's kind. -/
structure IsOperator (token : Token α) (operator : String) (kinds : List Kind) : Prop where
  kind : token.kind ∈ kinds
  literal : operator = token.literal
  text : operator = token.kind.text

/-- An integer is what the digits of its token denote. -/
structure IsInteger (token : Token α) (value : Int64) : Prop where
  kind : token.kind = .integer
  digits : ∀ c ∈ token.literal.toList, c.isDigit = true
  value : Decimal.word? token.literal.toList = some value

/-- A node says what its token says. -/
def Node.Faithful : Node (Token α) → Prop
  | .name word => word.Faithful
  | .expression (.identifier word) => word.Faithful
  | .expression (.integerLiteral token value) => IsInteger token value
  | .expression (.booleanLiteral token value) =>
    token.kind = if value then .trueWord else .falseWord
  | .expression (.prefixed token operator _) => IsOperator token operator [.not, .minus]
  | .expression (.infixed token operator _ _) => IsOperator token operator infixKinds
  | .expression (.conditional token _ _ _) => token.kind = .ifWord
  | .expression (.function token _ _) => token.kind = .fnWord
  | .expression (.call token _ _) => token.kind = .leftParen
  | .statement (.binding token _ _) => token.kind = .letWord
  | .statement (.returning token _) => token.kind = .returnWord
  | .statement (.expression _ _) => True
  | .statement (.block _) => False
  | .block part => part.token.kind = .leftBrace

/-- What holds an operand tightly and opens no call is an operator between two operands. -/
theorem infixKinds_of_tighter {precedence : Precedence} {kind : Kind}
    (tighter : precedence < .ofKind kind) (notCall : kind ≠ .leftParen) : kind ∈ infixKinds := by
  cases kind
  case leftParen => exact absurd rfl notCall
  case equal | notEqual | less | greater | plus | minus | times | divide => decide
  all_goals exact absurd tighter (Nat.not_lt_zero _)

/-- The tokens that are left are lexemes. -/
def TokenStream.Genuine (stream : TokenStream α) : Prop := ∀ token ∈ stream.pending, token.Genuine

namespace TokenStream

variable {stream : TokenStream α}

theorem Genuine.advance (genuine : stream.Genuine) : stream.advance.Genuine :=
  fun token member => genuine token (List.mem_of_mem_tail member)

theorem Genuine.current (genuine : stream.Genuine) (going : stream.current.kind ≠ .eof) :
    stream.current.Genuine := by
  refine genuine stream.current ?_
  rw [stream.pending_eq_cons going]
  exact List.mem_cons_self

theorem Genuine.peek (genuine : stream.Genuine) (going : stream.peek.kind ≠ .eof) :
    stream.peek.Genuine :=
  genuine.advance.current going

/-- A text has genuine tokens only. -/
theorem genuine_ofCursor (cursor : Cursor) : (TokenStream.ofCursor cursor).Genuine :=
  cursor.genuine_of_mem_tokens

end TokenStream

namespace Attempt

variable {stream : TokenStream α}

/-- Whatever is read has the property, and the tokens that are left are lexemes still. -/
structure Builds (attempt : Attempt stream β) (property : β → Prop) : Prop where
  value : ∀ value, attempt.value = some value → property value
  rest : attempt.rest.Genuine

theorem builds_give {value : β} {property : β → Prop} (genuine : stream.Genuine)
    (holds : property value) : (give value : Attempt stream β).Builds property :=
  ⟨by rintro _ ⟨⟩; exact holds, genuine⟩

theorem builds_refuse {problem : Problem α} {property : β → Prop} (genuine : stream.Genuine) :
    (refuse problem : Attempt stream β).Builds property :=
  ⟨by rintro _ ⟨⟩, genuine⟩

theorem builds_noting {event : ParseEvent α} {attempt : Attempt stream β} {property : β → Prop}
    (builds : attempt.Builds property) : (attempt.noting event).Builds property :=
  ⟨builds.value, builds.rest⟩

theorem builds_moving {attempt : Attempt stream.advance β} {property : β → Prop}
    (builds : attempt.Builds property) : attempt.moving.Builds property :=
  ⟨builds.value, builds.rest⟩

/-- The token that was expected is genuine like any other, so what comes after it may rely on
that. -/
theorem builds_expecting {kind : Kind} {next : stream.peek.kind = kind → Attempt stream.advance β}
    {property : β → Prop} (genuine : stream.Genuine)
    (builds : ∀ found, (next found).Builds property) : (expecting kind next).Builds property := by
  unfold expecting
  split
  · next found => exact builds_moving (builds found)
  · exact builds_refuse genuine

theorem builds_map {f : β → γ} {attempt : Attempt stream β} {property : β → Prop}
    {result : γ → Prop} (builds : attempt.Builds property)
    (implied : ∀ value, property value → result (f value)) : (attempt.map f).Builds result := by
  refine ⟨?_, builds.rest⟩
  intro value given
  obtain ⟨before, read, rfl⟩ := Option.map_eq_some_iff.mp given
  exact implied before (builds.value before read)

/-- What was built first may be relied on in what is built from it. -/
theorem builds_andThen {attempt : Attempt stream β}
    {next : β → (rest : TokenStream α) → rest.size ≤ stream.size → Attempt rest γ}
    {property : β → Prop} {result : γ → Prop} (builds : attempt.Builds property)
    (builds_next : ∀ value rest shorter, property value → rest.Genuine →
      (next value rest shorter).Builds result) : (attempt.andThen next).Builds result := by
  cases given : attempt.value with
  | none =>
    refine ⟨?_, by rw [rest_andThen_none given]; exact builds.rest⟩
    intro value read
    rw [value_andThen_none given] at read
    cases read
  | some value =>
    have following :=
      builds_next value attempt.rest attempt.size_le (builds.value value given) builds.rest
    constructor
    · rw [value_andThen_some given]
      exact following.value
    · rw [rest_andThen_some given]
      exact following.rest

/-- A statement that is kept has the property; one that is left out needs none. -/
theorem builds_settle {attempt : Attempt stream β} {property : β → Prop}
    (builds : attempt.Builds property) :
    attempt.settle.Builds fun settled => ∀ value, settled = some value → property value :=
  ⟨by rintro _ ⟨⟩; exact builds.value, builds.rest⟩

end Attempt

/-- One statement more, or none, before the others. -/
theorem everyStatement_append {property : Node (Token α) → Prop}
    {tree : Option (Statement (Token α))} {trees : List (Statement (Token α))}
    (every : ∀ value, tree = some value → value.Every property)
    (every_trees : EveryStatement property trees) :
    EveryStatement property (tree.toList ++ trees) := by
  cases tree with
  | none => exact every_trees
  | some value => exact ⟨every value rfl, every_trees⟩

namespace Parse

open Attempt

section

variable {stream : TokenStream α}

theorem faithful_name (genuine : stream.Genuine) (found : stream.current.kind = .identifier) :
    (name stream).Faithful :=
  ⟨found, rfl, (genuine.current (by simp [found])).isName found⟩

/-- The literal of an operator is the one spelling that its kind has. -/
theorem isOperator_of_genuine {token : Token α} {kinds : List Kind} (genuine : token.Genuine)
    (found : token.kind ∈ kinds) (known : kinds ⊆
      [.equal, .notEqual, .plus, .minus, .times, .divide, .not, .less, .greater]) :
    IsOperator token token.literal kinds :=
  ⟨found, rfl, genuine.eq_text (known found)⟩

/-- The semicolon of a statement goes into no node. -/
theorem builds_ending {tree : Statement (Token α)} {property : Statement (Token α) → Prop}
    (genuine : stream.Genuine) (holds : property tree) :
    (ending tree : Attempt stream _).Builds property := by
  unfold ending
  split
  · exact builds_moving (builds_give genuine.advance holds)
  · exact builds_give genuine holds

/-- Every parameter is read at a token that is a name. -/
theorem builds_parameterList (genuine : stream.Genuine) :
    (parameterList stream).Builds fun names => ∀ name ∈ names, name.Faithful := by
  induction stream using parameterList.induct with
  | case1 stream ih =>
    rw [parameterList_eq]
    refine builds_expecting genuine fun found => ?_
    have faithful := faithful_name genuine.advance found
    split
    · refine builds_moving (builds_map (ih found genuine.advance.advance) ?_)
      intro names others
      exact List.forall_mem_cons.mpr ⟨faithful, others⟩
    · refine builds_expecting genuine.advance fun _ => builds_give genuine.advance.advance ?_
      exact List.forall_mem_singleton.mpr faithful

theorem builds_parameters (genuine : stream.Genuine) :
    (parameters stream).Builds fun names => ∀ name ∈ names, name.Faithful := by
  unfold parameters
  split
  · exact builds_moving (builds_give genuine.advance (by simp))
  · exact builds_parameterList genuine

end

/-- Every call on lexemes reads a tree whose nodes are faithful. A call that does not test the
current token itself is only made where it is right. -/
def built : Calls α where
  expression precedence stream := stream.Genuine →
    (expression precedence stream).Builds (·.Every Node.Faithful)
  operand stream := stream.Genuine → (operand stream).Builds (·.Every Node.Faithful)
  operators precedence left stream := stream.Genuine → left.Every Node.Faithful →
    (operators precedence left stream).Builds (·.Every Node.Faithful)
  arguments stream := stream.Genuine → (arguments stream).Builds (EveryArgument Node.Faithful)
  argumentList stream := stream.Genuine →
    (argumentList stream).Builds (EveryArgument Node.Faithful)
  conditional stream := stream.Genuine → stream.current.kind = .ifWord →
    (conditional stream).Builds (·.Every Node.Faithful)
  alternative stream := stream.Genuine →
    (alternative stream).Builds (∀ tree ∈ ·, tree.Every Node.Faithful)
  function stream := stream.Genuine → stream.current.kind = .fnWord →
    (function stream).Builds (·.Every Node.Faithful)
  block stream := stream.Genuine → stream.current.kind = .leftBrace →
    (block stream).Builds (·.Every Node.Faithful)
  blockStatements stream := stream.Genuine →
    (blockStatements stream).Builds (EveryStatement Node.Faithful)
  statement stream := stream.Genuine → (statement stream).Builds (·.Every Node.Faithful)

/-- What each function builds is faithful, if what it calls builds faithful trees. -/
theorem built_inductive : (built : Calls α).Inductive where
  expression precedence stream operand_builds operators_builds := by
    intro genuine
    rw [expression_eq]
    refine builds_noting (builds_andThen (operand_builds genuine) ?_)
    intro left rest shorter every genuine_rest
    exact operators_builds left rest shorter genuine_rest every
  operand_identifier stream found := by
    intro genuine
    rw [operand_identifier found]
    exact builds_give genuine (faithful_name genuine found)
  operand_integer stream value found fits := by
    intro genuine
    have lexeme := genuine.current (by simp [found])
    rw [operand_integer found fits]
    exact builds_give genuine ⟨found, lexeme.digits found, fits⟩
  operand_tooLarge stream found large := by
    intro genuine
    rw [operand_tooLarge found large]
    exact builds_refuse genuine
  operand_truth stream found := by
    intro genuine
    rw [operand_truth found]
    exact builds_give genuine found
  operand_falsehood stream found := by
    intro genuine
    rw [operand_falsehood found]
    exact builds_give genuine found
  operand_negation stream found operand_builds := by
    intro genuine
    have lexeme := genuine.current (by rcases found with is | is <;> simp [is])
    have operator : IsOperator stream.current stream.current.literal [.not, .minus] :=
      isOperator_of_genuine lexeme (by simpa using found) (by decide)
    rw [operand_negation found]
    refine builds_moving (builds_map (operand_builds genuine.advance) ?_)
    intro tree every
    exact ⟨operator, every⟩
  operand_group stream found inner_builds := by
    intro genuine
    rw [operand_group found]
    refine builds_moving (builds_andThen (inner_builds genuine.advance) ?_)
    intro inner rest _ every genuine_rest
    exact builds_expecting genuine_rest fun _ => builds_give genuine_rest.advance every
  operand_conditional stream found conditional_builds := by
    intro genuine
    rw [operand_conditional found]
    exact conditional_builds genuine found
  operand_function stream found function_builds := by
    intro genuine
    rw [operand_function found]
    exact function_builds genuine found
  operand_refused stream found := by
    intro genuine
    rw [operand_refused found]
    exact builds_refuse genuine
  operators_call precedence left stream tighter found arguments_builds operators_builds := by
    intro genuine every_left
    rw [operators_call tighter found]
    refine builds_moving (builds_andThen (arguments_builds genuine.advance) ?_)
    intro trees rest shorter every genuine_rest
    exact operators_builds trees rest shorter genuine_rest ⟨found, every_left, every⟩
  operators_operation precedence left stream tighter found right_builds operators_builds := by
    intro genuine every_left
    have lexeme := genuine.peek (Precedence.ne_eof_of_lt tighter)
    have operator : IsOperator stream.peek stream.peek.literal infixKinds :=
      isOperator_of_genuine lexeme (infixKinds_of_tighter tighter found) (by decide)
    rw [operators_operation tighter found]
    refine builds_moving (builds_moving
      (builds_andThen (right_builds genuine.advance.advance) ?_))
    intro right rest shorter every genuine_rest
    exact operators_builds right rest shorter genuine_rest ⟨operator, every_left, every⟩
  operators_done precedence left stream looser := by
    intro genuine every_left
    rw [operators_done looser]
    exact builds_give genuine every_left
  arguments_none stream found := by
    intro genuine
    rw [arguments_none found]
    exact builds_moving (builds_give genuine.advance trivial)
  arguments_some stream found list_builds := by
    intro genuine
    rw [arguments_some found]
    exact list_builds genuine
  argumentList stream argument_builds list_builds := by
    intro genuine
    rw [argumentList_eq]
    refine builds_moving (builds_andThen (argument_builds genuine.advance) ?_)
    intro argument rest shorter every genuine_rest
    split
    · next comma =>
      refine builds_moving (builds_map (list_builds rest shorter comma genuine_rest.advance) ?_)
      intro trees others
      exact ⟨every, others⟩
    · exact builds_expecting genuine_rest fun _ =>
        builds_give genuine_rest.advance ⟨every, trivial⟩
  conditional stream condition_builds block_builds alternative_builds := by
    intro genuine found
    rw [conditional_eq]
    refine builds_expecting genuine fun opens => builds_moving
      (builds_andThen (condition_builds opens genuine.advance.advance) ?_)
    intro condition rest shorter every genuine_rest
    refine builds_expecting genuine_rest fun _ => builds_expecting genuine_rest.advance
      fun brace => builds_andThen
        (block_builds opens rest shorter genuine_rest.advance.advance brace) ?_
    intro consequence last shorter_last every_body genuine_last
    refine builds_map
      (alternative_builds opens rest shorter last shorter_last genuine_last) ?_
    intro replacement every_other
    cases replacement with
    | none => exact ⟨found, every, every_body⟩
    | some tree => exact ⟨found, every, every_body, every_other tree rfl⟩
  alternative_some stream found block_builds := by
    intro genuine
    rw [alternative_some found]
    refine builds_moving (builds_expecting genuine.advance fun brace =>
      builds_map (block_builds genuine.advance.advance brace) ?_)
    intro tree every other same
    obtain rfl := Option.some.inj same
    exact every
  alternative_none stream found := by
    intro genuine
    rw [alternative_none found]
    exact builds_give genuine (by simp)
  function stream block_builds := by
    intro genuine found
    rw [function_eq]
    refine builds_expecting genuine fun opens =>
      builds_andThen (builds_parameters genuine.advance) ?_
    intro names rest shorter faithful genuine_rest
    refine builds_expecting genuine_rest fun brace =>
      builds_map (block_builds opens rest shorter genuine_rest.advance brace) ?_
    intro tree every
    exact ⟨found, faithful, every⟩
  block stream statements_builds := by
    intro genuine found
    rw [block_eq]
    refine builds_noting (builds_moving (builds_map (statements_builds genuine.advance) ?_))
    intro trees every
    exact ⟨found, every⟩
  blockStatements_done stream found := by
    intro genuine
    rw [blockStatements_done found]
    exact builds_noting (builds_give genuine trivial)
  blockStatements_more stream found statement_builds statements_builds := by
    intro genuine
    rw [blockStatements_more found]
    refine builds_andThen (builds_settle (statement_builds genuine)) ?_
    intro tree rest shorter every genuine_rest
    refine builds_moving (builds_map (statements_builds rest shorter genuine_rest.advance) ?_)
    intro trees every_trees
    exact everyStatement_append every every_trees
  statement_binding stream found value_builds := by
    intro genuine
    rw [statement_binding found]
    refine builds_expecting genuine fun isName => builds_expecting genuine.advance fun _ =>
      builds_moving (builds_andThen (value_builds genuine.advance.advance.advance) ?_)
    intro value rest _ every genuine_rest
    exact builds_ending genuine_rest ⟨found, faithful_name genuine.advance isName, every⟩
  statement_bareReturn stream found bare := by
    intro genuine
    rw [statement_bareReturn found bare]
    exact builds_ending genuine found
  statement_returning stream found valued value_builds := by
    intro genuine
    rw [statement_returning found valued]
    refine builds_moving (builds_andThen (value_builds genuine.advance) ?_)
    intro value rest _ every genuine_rest
    exact builds_ending genuine_rest ⟨found, every⟩
  statement_expression stream notLet notReturn value_builds := by
    intro genuine
    rw [statement_expression notLet notReturn]
    refine builds_andThen (value_builds genuine) ?_
    intro value rest _ every genuine_rest
    exact builds_ending genuine_rest ⟨trivial, every⟩

/-- All statements of a text are faithful, those inside others included. -/
theorem builds_statements {stream : TokenStream α} (genuine : stream.Genuine) :
    (statements stream).Builds (EveryStatement Node.Faithful) := by
  induction stream using statements.induct with
  | case1 stream found =>
    rw [statements_done found]
    exact builds_give genuine trivial
  | case2 stream found ih =>
    rw [statements_more found]
    refine builds_andThen (builds_settle (built_inductive.hold.statement stream genuine)) ?_
    intro tree rest shorter every genuine_rest
    refine builds_moving (builds_map (ih rest shorter genuine_rest.advance) ?_)
    intro trees every_trees
    exact everyStatement_append every every_trees

end Parse

/-- Whatever is wrong with the tokens of a text, the nodes built of them are faithful. -/
theorem Parser.every_faithful (cursor : Cursor) :
    (Parser.ofCursor cursor).program.1.Every Node.Faithful := by
  have builds := Parse.builds_statements (TokenStream.genuine_ofCursor cursor)
  show EveryStatement Node.Faithful ((Parse.statements (.ofCursor cursor)).value.getD [])
  cases read : (Parse.statements (.ofCursor cursor)).value with
  | none => trivial
  | some trees => exact builds.value trees read

end Scriptlet
