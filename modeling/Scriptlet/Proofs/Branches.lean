import Scriptlet.Parser

/-!
# The branches of the parser

What each function of `Parse` does under each condition that it tests. The functions call one
another in a circle, and these equations are the only places where one of them is unfolded.
-/

namespace Scriptlet

variable {α : Type}

namespace TokenStream

/-- The tokens after the current one. -/
def ahead (stream : TokenStream α) : List (Token α) := stream.pending.tail

@[simp] theorem pending_advance (stream : TokenStream α) :
    stream.advance.pending = stream.ahead := rfl

/-- Before the end of the text the current token is the first of those that are left. -/
theorem pending_eq_cons (stream : TokenStream α) (going : stream.current.kind ≠ .eof) :
    stream.pending = stream.current :: stream.ahead := by
  rcases stream with ⟨_ | _, _⟩ <;> simp_all [current, ending, ahead]

/-- Before the end of the text the next token is the first of those after the current one. -/
theorem ahead_eq_cons (stream : TokenStream α) (going : stream.peek.kind ≠ .eof) :
    stream.ahead = stream.peek :: stream.advance.ahead :=
  stream.advance.pending_eq_cons going

theorem current_of_pending {stream : TokenStream α} {first : Token α} {more : List (Token α)}
    (left : stream.pending = first :: more) : stream.current = first := by
  simp [current, left]

theorem ahead_of_pending {stream : TokenStream α} {first : Token α} {more : List (Token α)}
    (left : stream.pending = first :: more) : stream.ahead = more := by
  simp [ahead, left]

theorem peek_of_ahead {stream : TokenStream α} {next : Token α} {more : List (Token α)}
    (left : stream.ahead = next :: more) : stream.peek = next :=
  current_of_pending left

theorem ahead_advance_of_ahead {stream : TokenStream α} {next : Token α} {more : List (Token α)}
    (left : stream.ahead = next :: more) : stream.advance.ahead = more :=
  ahead_of_pending left

theorem current_of_pending_nil {stream : TokenStream α} (left : stream.pending = []) :
    stream.current = stream.ending := by
  simp [current, left]

end TokenStream

namespace Attempt

variable {β γ : Type} {stream : TokenStream α}

@[simp] theorem problems_give (value : β) : (give value : Attempt stream β).problems = [] := rfl

@[simp] theorem problems_refuse (problem : Problem α) :
    (refuse problem : Attempt stream β).problems = [problem] := rfl

@[simp] theorem problems_moving (attempt : Attempt stream.advance β) :
    attempt.moving.problems = attempt.problems := rfl

@[simp] theorem problems_map (f : β → γ) (attempt : Attempt stream β) :
    (attempt.map f).problems = attempt.problems := rfl

@[simp] theorem problems_settle (attempt : Attempt stream β) :
    attempt.settle.problems = attempt.problems := by
  simp [problems, settle, ParseEvent.problem?]

theorem problems_noting (event : ParseEvent α) (attempt : Attempt stream β) :
    (attempt.noting event).problems = event.problem?.toList ++ attempt.problems := by
  cases found : event.problem? <;> simp [problems, noting, found]

section andThen

variable {attempt : Attempt stream β}
  {next : β → (rest : TokenStream α) → rest.size ≤ stream.size → Attempt rest γ}

theorem value_andThen_none (failed : attempt.value = none) :
    (attempt.andThen next).value = none := by
  unfold andThen
  split <;> simp_all

theorem rest_andThen_none (failed : attempt.value = none) :
    (attempt.andThen next).rest = attempt.rest := by
  unfold andThen
  split <;> simp_all

theorem log_andThen_none (failed : attempt.value = none) :
    (attempt.andThen next).log = attempt.log := by
  unfold andThen
  split <;> simp_all

variable {value : β}

theorem value_andThen_some (given : attempt.value = some value) :
    (attempt.andThen next).value = (next value attempt.rest attempt.size_le).value := by
  unfold andThen
  split <;> simp_all

theorem rest_andThen_some (given : attempt.value = some value) :
    (attempt.andThen next).rest = (next value attempt.rest attempt.size_le).rest := by
  unfold andThen
  split <;> simp_all

theorem log_andThen_some (given : attempt.value = some value) : (attempt.andThen next).log =
    attempt.log ++ (next value attempt.rest attempt.size_le).log := by
  unfold andThen
  split <;> simp_all

theorem problems_andThen_none (failed : attempt.value = none) :
    (attempt.andThen next).problems = attempt.problems := by
  simp [problems, log_andThen_none failed]

theorem problems_andThen_some (given : attempt.value = some value) :
    (attempt.andThen next).problems =
      attempt.problems ++ (next value attempt.rest attempt.size_le).problems := by
  simp [problems, log_andThen_some given]

end andThen

/-- A list of statements is one of them, with a step behind it, and the others. -/
theorem log_more {attempt : Attempt stream (Statement (Token α))}
    {next : (rest : TokenStream α) → Attempt rest.advance (List (Statement (Token α)))} :
    (attempt.settle.andThen fun tree rest _ => .moving ((next rest).map (tree.toList ++ ·))).log =
      attempt.settle.log ++ .moved attempt.rest.peek :: (next attempt.rest).log := by
  rw [log_andThen_some rfl]
  rfl

end Attempt

namespace Parse

/-- The kinds of the tokens that begin an expression. -/
def operandKinds : List Kind :=
  [.identifier, .integer, .trueWord, .falseWord, .not, .minus, .leftParen, .ifWord, .fnWord]

/-- The beginning of an expression is logged before anything is read. -/
theorem expression_eq (precedence : Precedence) (stream : TokenStream α) :
    expression precedence stream = .noting (.entered precedence stream.current)
      ((operand stream).andThen fun left rest _ => operators precedence left rest) := by
  rw [expression]

section operand

variable {stream : TokenStream α}

theorem operand_identifier (found : stream.current.kind = .identifier) :
    operand stream = .give (.identifier (name stream)) := by
  rw [operand]
  split <;> simp_all

theorem operand_integer {value : Int64} (found : stream.current.kind = .integer)
    (fits : Decimal.word? stream.current.literal.toList = some value) :
    operand stream = .give (.integerLiteral stream.current value) := by
  rw [operand]
  split <;> simp_all

theorem operand_tooLarge (found : stream.current.kind = .integer)
    (large : Decimal.word? stream.current.literal.toList = none) :
    operand stream = .refuse (.tooLarge stream.current) := by
  rw [operand]
  split <;> simp_all

theorem operand_truth (found : stream.current.kind = .trueWord) :
    operand stream = .give (.booleanLiteral stream.current true) := by
  rw [operand]
  split <;> simp_all

theorem operand_falsehood (found : stream.current.kind = .falseWord) :
    operand stream = .give (.booleanLiteral stream.current false) := by
  rw [operand]
  split <;> simp_all

/-- Both signs are read by one handler, which keeps the text of the sign. -/
theorem operand_negation (found : stream.current.kind = .not ∨ stream.current.kind = .minus) :
    operand stream = .moving ((expression .unary stream.advance).map
      (.prefixed stream.current stream.current.literal)) := by
  rw [operand]
  split <;> simp_all

/-- Parentheses leave no trace in the tree. -/
theorem operand_group (found : stream.current.kind = .leftParen) :
    operand stream = .moving ((expression .lowest stream.advance).andThen fun inner _ _ =>
      .expecting .rightParen fun _ => .give inner) := by
  rw [operand]
  split <;> simp_all

theorem operand_conditional (found : stream.current.kind = .ifWord) :
    operand stream = conditional stream := by
  rw [operand]
  split <;> simp_all

theorem operand_function (found : stream.current.kind = .fnWord) :
    operand stream = function stream := by
  rw [operand]
  split <;> simp_all

theorem operand_refused (found : stream.current.kind ∉ operandKinds) :
    operand stream = .refuse (.noExpression stream.current) := by
  rw [operand]
  split <;> simp_all [operandKinds]

end operand

section operators

variable {precedence : Precedence} {left : Expression (Token α)} {stream : TokenStream α}

theorem operators_call (tighter : precedence < .ofKind stream.peek.kind)
    (found : stream.peek.kind = .leftParen) :
    operators precedence left stream =
      .moving ((arguments stream.advance).andThen fun arguments rest _ =>
        operators precedence (.call stream.peek left arguments) rest) := by
  rw [operators, dif_pos tighter, if_pos found]

/-- The right operand is read at the precedence of the operator, so that operators of one precedence
group to the left. -/
theorem operators_operation (tighter : precedence < .ofKind stream.peek.kind)
    (found : stream.peek.kind ≠ .leftParen) :
    operators precedence left stream =
      .moving (.moving ((expression (.ofKind stream.peek.kind) stream.advance.advance).andThen
        fun right rest _ =>
          operators precedence (.infixed stream.peek stream.peek.literal left right) rest)) := by
  rw [operators, dif_pos tighter, if_neg found]

theorem operators_done (looser : ¬ precedence < .ofKind stream.peek.kind) :
    operators precedence left stream = .give left := by
  rw [operators, dif_neg looser]

end operators

section lists

variable {stream : TokenStream α}

theorem parameterList_eq (stream : TokenStream α) :
    parameterList stream = .expecting .identifier fun _ =>
      if stream.advance.peek.kind = .comma then
        .moving ((parameterList stream.advance.advance).map (name stream.advance :: ·))
      else .expecting .rightParen fun _ => .give [name stream.advance] := by
  rw [parameterList]

theorem arguments_none (found : stream.peek.kind = .rightParen) :
    arguments stream = .moving (.give []) := by
  rw [arguments, if_pos found]

theorem arguments_some (found : stream.peek.kind ≠ .rightParen) :
    arguments stream = argumentList stream := by
  rw [arguments, if_neg found]

theorem argumentList_eq (stream : TokenStream α) :
    argumentList stream = .moving ((expression .lowest stream.advance).andThen
      fun argument rest _ =>
        if rest.peek.kind = .comma then
          .moving ((argumentList rest.advance).map (argument :: ·))
        else .expecting .rightParen fun _ => .give [argument]) := by
  rw [argumentList]
  rfl

end lists

section bodies

variable {stream : TokenStream α}

theorem conditional_eq (stream : TokenStream α) :
    conditional stream = .expecting .leftParen fun _ =>
      .moving ((expression .lowest stream.advance.advance).andThen fun condition rest _ =>
        .expecting .rightParen fun _ => .expecting .leftBrace fun _ =>
          (block rest.advance.advance).andThen fun consequence rest _ =>
            (alternative rest).map (.conditional stream.current condition consequence)) := by
  rw [conditional]

theorem alternative_some (found : stream.peek.kind = .elseWord) :
    alternative stream =
      .moving (.expecting .leftBrace fun _ => (block stream.advance.advance).map some) := by
  rw [alternative, dif_pos found]

theorem alternative_none (found : stream.peek.kind ≠ .elseWord) :
    alternative stream = .give none := by
  rw [alternative, dif_neg found]

theorem function_eq (stream : TokenStream α) :
    function stream = .expecting .leftParen fun _ =>
      (parameters stream.advance).andThen fun parameters rest _ =>
        .expecting .leftBrace fun _ =>
          (block rest.advance).map (.function stream.current parameters) := by
  rw [function]

/-- The parser stands on the opening brace; the first statement begins at the token after it. -/
theorem block_eq (stream : TokenStream α) :
    block stream = .noting (.opened stream.current)
      (.moving ((blockStatements stream.advance).map (.mk stream.current))) := by
  rw [block]

/-- The end of the text closes a block as a brace does. -/
theorem blockStatements_done
    (found : stream.current.kind = .rightBrace ∨ stream.current.kind = .eof) :
    blockStatements stream = .noting (.closed stream.current) (.give []) := by
  rw [blockStatements, dif_pos found]

/-- The parser moves on after every statement, also after one that was left out. -/
theorem blockStatements_more
    (found : ¬ (stream.current.kind = .rightBrace ∨ stream.current.kind = .eof)) :
    blockStatements stream = (statement stream).settle.andThen fun statement rest _ =>
      .moving ((blockStatements rest.advance).map (statement.toList ++ ·)) := by
  rw [blockStatements, dif_neg found]

end bodies

section statements

variable {stream : TokenStream α}

theorem statement_binding (found : stream.current.kind = .letWord) :
    statement stream = .expecting .identifier fun _ => .expecting .assign fun _ =>
      .moving ((expression .lowest stream.advance.advance.advance).andThen fun value _ _ =>
        ending (.binding stream.current (name stream.advance) value)) := by
  rw [statement, found]

/-- The kinds of the tokens before which a `return` has no value. -/
def bareKinds : List Kind := [.semicolon, .rightBrace, .eof]

theorem statement_bareReturn (found : stream.current.kind = .returnWord)
    (bare : stream.peek.kind ∈ bareKinds) :
    statement stream = ending (.returning stream.current none) := by
  rw [statement, found]
  exact if_pos (by simpa [bareKinds] using bare)

theorem statement_returning (found : stream.current.kind = .returnWord)
    (valued : stream.peek.kind ∉ bareKinds) :
    statement stream = .moving ((expression .lowest stream.advance).andThen fun value _ _ =>
      ending (.returning stream.current (some value))) := by
  rw [statement, found]
  exact if_neg (by simpa [bareKinds] using valued)

theorem statement_expression (notLet : stream.current.kind ≠ .letWord)
    (notReturn : stream.current.kind ≠ .returnWord) :
    statement stream = (expression .lowest stream).andThen fun value _ _ =>
      ending (.expression stream.current value) := by
  rw [statement]
  split <;> simp_all

theorem statements_done (found : stream.current.kind = .eof) :
    statements stream = .give [] := by
  rw [statements, dif_pos found]

/-- On the highest level a closing brace ends nothing. -/
theorem statements_more (found : stream.current.kind ≠ .eof) :
    statements stream = (statement stream).settle.andThen fun statement rest _ =>
      .moving ((statements rest.advance).map (statement.toList ++ ·)) := by
  rw [statements, dif_neg found]

/-- Whatever is wrong with the statements of a text, there is a list of those that were kept. -/
theorem exists_value_statements (stream : TokenStream α) :
    ∃ trees, (statements stream).value = some trees := by
  induction stream using statements.induct with
  | case1 stream found => exact ⟨[], by rw [statements_done found]; rfl⟩
  | case2 stream found ih =>
    obtain ⟨trees, given⟩ := ih (statement stream).settle.rest (statement stream).settle.size_le
    refine ⟨(statement stream).value.toList ++ trees, ?_⟩
    rw [statements_more found, Attempt.value_andThen_some rfl]
    simp [Attempt.moving, Attempt.map, given]

end statements

/-- A statement about every call of the parser: one predicate for each of its functions. -/
structure Calls (α : Type) where
  expression : Precedence → TokenStream α → Prop
  operand : TokenStream α → Prop
  operators : Precedence → Expression (Token α) → TokenStream α → Prop
  arguments : TokenStream α → Prop
  argumentList : TokenStream α → Prop
  conditional : TokenStream α → Prop
  alternative : TokenStream α → Prop
  function : TokenStream α → Prop
  block : TokenStream α → Prop
  blockStatements : TokenStream α → Prop
  statement : TokenStream α → Prop

namespace Calls

/-- The statement holds of a call if it holds of the calls that this one makes, branch by branch. A
call that is made after another has ended begins wherever that one may have ended. -/
structure Inductive (calls : Calls α) : Prop where
  expression (precedence : Precedence) (stream : TokenStream α) : calls.operand stream →
    (∀ (left : Expression (Token α)) (rest : TokenStream α), rest.size ≤ stream.size →
      calls.operators precedence left rest) → calls.expression precedence stream
  operand_identifier (stream : TokenStream α) :
    stream.current.kind = .identifier → calls.operand stream
  operand_integer (stream : TokenStream α) (value : Int64) : stream.current.kind = .integer →
    Decimal.word? stream.current.literal.toList = some value → calls.operand stream
  operand_tooLarge (stream : TokenStream α) : stream.current.kind = .integer →
    Decimal.word? stream.current.literal.toList = none → calls.operand stream
  operand_truth (stream : TokenStream α) : stream.current.kind = .trueWord → calls.operand stream
  operand_falsehood (stream : TokenStream α) :
    stream.current.kind = .falseWord → calls.operand stream
  operand_negation (stream : TokenStream α) :
    stream.current.kind = .not ∨ stream.current.kind = .minus →
      calls.expression .unary stream.advance → calls.operand stream
  operand_group (stream : TokenStream α) : stream.current.kind = .leftParen →
    calls.expression .lowest stream.advance → calls.operand stream
  operand_conditional (stream : TokenStream α) : stream.current.kind = .ifWord →
    calls.conditional stream → calls.operand stream
  operand_function (stream : TokenStream α) : stream.current.kind = .fnWord →
    calls.function stream → calls.operand stream
  operand_refused (stream : TokenStream α) :
    stream.current.kind ∉ operandKinds → calls.operand stream
  operators_call (precedence : Precedence) (left : Expression (Token α))
    (stream : TokenStream α) : precedence < .ofKind stream.peek.kind →
    stream.peek.kind = .leftParen → calls.arguments stream.advance →
    (∀ (trees : List (Expression (Token α))) (rest : TokenStream α),
      rest.size ≤ stream.advance.size →
        calls.operators precedence (.call stream.peek left trees) rest) →
    calls.operators precedence left stream
  operators_operation (precedence : Precedence) (left : Expression (Token α))
    (stream : TokenStream α) : precedence < .ofKind stream.peek.kind →
    stream.peek.kind ≠ .leftParen →
    calls.expression (.ofKind stream.peek.kind) stream.advance.advance →
    (∀ (right : Expression (Token α)) (rest : TokenStream α),
      rest.size ≤ stream.advance.advance.size →
        calls.operators precedence (.infixed stream.peek stream.peek.literal left right) rest) →
    calls.operators precedence left stream
  operators_done (precedence : Precedence) (left : Expression (Token α))
    (stream : TokenStream α) : ¬ precedence < .ofKind stream.peek.kind →
    calls.operators precedence left stream
  arguments_none (stream : TokenStream α) :
    stream.peek.kind = .rightParen → calls.arguments stream
  arguments_some (stream : TokenStream α) : stream.peek.kind ≠ .rightParen →
    calls.argumentList stream → calls.arguments stream
  argumentList (stream : TokenStream α) : calls.expression .lowest stream.advance →
    (∀ rest : TokenStream α, rest.size ≤ stream.advance.size → rest.peek.kind = .comma →
      calls.argumentList rest.advance) → calls.argumentList stream
  conditional (stream : TokenStream α) :
    (stream.peek.kind = .leftParen → calls.expression .lowest stream.advance.advance) →
    (stream.peek.kind = .leftParen → ∀ rest : TokenStream α,
      rest.size ≤ stream.advance.advance.size → calls.block rest.advance.advance) →
    (stream.peek.kind = .leftParen → ∀ rest : TokenStream α,
      rest.size ≤ stream.advance.advance.size → ∀ last : TokenStream α,
        last.size ≤ rest.advance.advance.size → calls.alternative last) →
    calls.conditional stream
  alternative_some (stream : TokenStream α) : stream.peek.kind = .elseWord →
    calls.block stream.advance.advance → calls.alternative stream
  alternative_none (stream : TokenStream α) :
    stream.peek.kind ≠ .elseWord → calls.alternative stream
  function (stream : TokenStream α) :
    (stream.peek.kind = .leftParen → ∀ rest : TokenStream α,
      rest.size ≤ stream.advance.size → calls.block rest.advance) → calls.function stream
  block (stream : TokenStream α) : calls.blockStatements stream.advance → calls.block stream
  blockStatements_done (stream : TokenStream α) :
    stream.current.kind = .rightBrace ∨ stream.current.kind = .eof → calls.blockStatements stream
  blockStatements_more (stream : TokenStream α) :
    ¬ (stream.current.kind = .rightBrace ∨ stream.current.kind = .eof) →
    calls.statement stream →
    (∀ rest : TokenStream α, rest.size ≤ stream.size → calls.blockStatements rest.advance) →
    calls.blockStatements stream
  statement_binding (stream : TokenStream α) : stream.current.kind = .letWord →
    calls.expression .lowest stream.advance.advance.advance → calls.statement stream
  statement_bareReturn (stream : TokenStream α) : stream.current.kind = .returnWord →
    stream.peek.kind ∈ bareKinds → calls.statement stream
  statement_returning (stream : TokenStream α) : stream.current.kind = .returnWord →
    stream.peek.kind ∉ bareKinds → calls.expression .lowest stream.advance →
    calls.statement stream
  statement_expression (stream : TokenStream α) : stream.current.kind ≠ .letWord →
    stream.current.kind ≠ .returnWord → calls.expression .lowest stream → calls.statement stream

/-- The statement holds of every call. -/
structure Hold (calls : Calls α) : Prop where
  expression (precedence : Precedence) (stream : TokenStream α) :
    calls.expression precedence stream
  block (stream : TokenStream α) : calls.block stream
  blockStatements (stream : TokenStream α) : calls.blockStatements stream
  statement (stream : TokenStream α) : calls.statement stream

/-- Induction on the calls that a call makes. -/
theorem Inductive.hold {calls : Calls α} (step : calls.Inductive) : calls.Hold := by
  obtain ⟨expression, -, -, -, -, -, block, blockStatements, statement, -, -⟩ :=
    expression.mutual_induct calls.expression calls.operators calls.arguments
      calls.argumentList calls.operand calls.function calls.block calls.blockStatements
      calls.statement calls.conditional calls.alternative
      step.expression step.operators_call step.operators_operation step.operators_done
      step.arguments_none step.arguments_some step.argumentList step.operand_identifier
      (fun stream found value => step.operand_integer stream value found) step.operand_tooLarge
      step.operand_truth step.operand_falsehood
      (fun stream found => step.operand_negation stream (.inl found))
      (fun stream found => step.operand_negation stream (.inr found))
      step.operand_group step.operand_conditional step.operand_function
      (fun stream _ _ _ _ _ _ _ _ _ => step.operand_refused stream (by
        simp only [operandKinds, List.mem_cons, List.not_mem_nil, or_false]
        rintro (_ | _ | _ | _ | _ | _ | _ | _ | _) <;> contradiction))
      step.function step.block step.blockStatements_done step.blockStatements_more
      step.statement_binding
      (fun stream found bare => step.statement_bareReturn stream found (by
        simpa [bareKinds] using bare))
      (fun stream found valued => step.statement_returning stream found (by
        simpa [bareKinds] using valued))
      step.statement_expression step.conditional step.alternative_some step.alternative_none
  exact ⟨expression, block, blockStatements, statement⟩

end Calls

end Parse

/-- A program is what its statements are read as, with the problems that were met. -/
theorem parseText_eq (text path : String) : parseText text path =
    (⟨(Parse.statements (.ofCursor (.ofText text path))).value.getD []⟩,
      (Parse.statements (.ofCursor (.ofText text path))).problems.map .ofProblem) := rfl

end Scriptlet
