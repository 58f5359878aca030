import Scriptlet.Proofs.Effort
import Scriptlet.Proofs.Indices
import Scriptlet.Proofs.Walks

/-!
# Descent

Reading comes to an end on every text, and what makes it do so is the number of tokens that are
left. No call of the parser leads to another one but with fewer tokens left or, with as many, to a
function of lower rank, which is why its functions are defined at all. An expression within an
expression begins with fewer of them than the outer one, and so does a block within a block; each
round of a loop leaves fewer than it found. At the end of the text, where steps lead nowhere,
nothing begins within anything and no loop goes round again.

That expressions and blocks nest is seen in the log: what begins between the beginning of a call and
its end begins within it.
-/

namespace Scriptlet

variable {α β : Type}

namespace ParseEvent

/-- The event is the beginning of an expression. -/
def isEntry : ParseEvent α → Bool
  | .entered _ _ => true
  | _ => false

/-- The event is the beginning of a block. -/
def isOpening : ParseEvent α → Bool
  | .opened _ => true
  | _ => false

/-- The event is the beginning of an expression or of a block. -/
def begins (event : ParseEvent α) : Bool := event.isEntry || event.isOpening

/-- The token at which the parser stands then. -/
def current? : ParseEvent α → Option (Token α)
  | .moved current => some current
  | .entered _ current => some current
  | .reported _ => none
  | .settled _ current => some current
  | .opened current => some current
  | .closed current => some current

theorem isStep_of_begins {event : ParseEvent α} (begins : event.begins = true) :
    event.isStep = false := by
  cases event with
  | moved _ => cases begins
  | _ => rfl

end ParseEvent

/-- What begins on a walk begins at the token to which the steps before it lead. -/
theorem Walk.current?_of_begins {place last : Standing α} (before : List (ParseEvent α))
    {after : List (ParseEvent α)} {event : ParseEvent α}
    (walk : Walk place (before ++ event :: after) last)
    (begins : event.begins = true) :
    event.current? = some (place.stream.drop (steps before)).current := by
  obtain ⟨_, _, occurs⟩ := walk.exists_occurs
  cases occurs with
  | entered _ _ _ => rfl
  | opened _ _ => rfl
  | _ => cases begins

/-- The attempt begins with an event of a sort, and wherever another one of this sort occurs within
it there are fewer tokens left than at its beginning. -/
def Attempt.Nests {stream : TokenStream α} (sort : ParseEvent α → Bool)
    (attempt : Attempt stream β) : Prop :=
  ∃ first inner, attempt.log = first :: inner ∧ sort first = true ∧
    first.current? = some stream.current ∧
    ∀ before event after, inner = before ++ event :: after → sort event = true →
      event.current? = some (stream.drop (steps before)).current ∧
        (stream.drop (steps before)).size < stream.size

namespace Attempt

variable {stream : TokenStream α}

/-- Nothing begins in the log before a step, and a step is not taken at the end. -/
def Waits (stream : TokenStream α) (log : List (ParseEvent α)) : Prop :=
  (∀ event ∈ log, event.begins = false) ∨
    0 < stream.size ∧ ∃ token rest, log = .moved token :: rest

/-- What begins after a step begins with fewer tokens left. -/
theorem Waits.size_lt {log before after : List (ParseEvent α)} {event : ParseEvent α}
    (waits : Waits stream log) (parts : log = before ++ event :: after)
    (begins : event.begins = true) : (stream.drop (steps before)).size < stream.size := by
  rcases waits with silent | ⟨left, token, rest, moved⟩
  · have absent := silent event (by simp [parts])
    simp [begins] at absent
  · cases before with
    | nil =>
      obtain ⟨rfl, -⟩ := List.cons.inj (moved.symm.trans parts)
      cases begins
    | cons first before =>
      obtain ⟨rfl, -⟩ := List.cons.inj (moved.symm.trans parts)
      rw [TokenStream.size_drop, steps_moved]
      omega

/-- A call whose log begins with an event, and with no other before a step, nests. -/
theorem nests_of_waits {sort : ParseEvent α → Bool} {attempt : Attempt stream β}
    (first : ParseEvent α) {inner : List (ParseEvent α)} (walked : attempt.Walked)
    (log_eq : attempt.log = first :: inner) (isFirst : sort first = true)
    (included : ∀ event, sort event = true → event.begins = true)
    (waits : Waits stream inner) : attempt.Nests sort := by
  have walk : Walk ⟨stream, true⟩ (first :: inner) ⟨attempt.rest, attempt.value.isSome⟩ := by
    rw [← log_eq]
    exact walked
  have still := ParseEvent.isStep_of_begins (included first isFirst)
  refine ⟨first, inner, log_eq, isFirst, ?_, ?_⟩
  · exact Walk.current?_of_begins [] walk (included first isFirst)
  · intro before event after parts isInner
    have begins := included event isInner
    refine ⟨?_, waits.size_lt parts begins⟩
    rw [parts, ← List.cons_append] at walk
    rw [walk.current?_of_begins _ begins, steps_of_isStep_false still]

end Attempt

namespace Parse

open Attempt

/-! ## Calls within calls -/

theorem expecting_cases {stream : TokenStream α} (kind : Kind)
    (next : stream.peek.kind = kind → Attempt stream.advance β) :
    (∃ problem, expecting kind next = refuse problem) ∨
      ∃ attempt, expecting kind next = moving attempt := by
  unfold expecting
  split
  · exact .inr ⟨_, rfl⟩
  · exact .inl ⟨_, rfl⟩

/-- An operand is given, or there is a problem, or the parser moves on from its first token. -/
theorem operand_cases (stream : TokenStream α) :
    (∃ tree, operand stream = give tree) ∨ (∃ problem, operand stream = refuse problem) ∨
      0 < stream.size ∧ ∃ attempt, operand stream = moving attempt := by
  by_cases known : stream.current.kind ∈ operandKinds
  · have left : 0 < stream.size := stream.size_pos (by
      intro ended
      rw [ended] at known
      exact absurd known (by decide))
    simp only [operandKinds, List.mem_cons, List.not_mem_nil, or_false] at known
    rcases known with found | found | found | found | found | found | found | found | found
    · exact .inl ⟨_, operand_identifier found⟩
    · cases fits : Decimal.word? stream.current.literal.toList with
      | none => exact .inr (.inl ⟨_, operand_tooLarge found fits⟩)
      | some value => exact .inl ⟨_, operand_integer found fits⟩
    · exact .inl ⟨_, operand_truth found⟩
    · exact .inl ⟨_, operand_falsehood found⟩
    · exact .inr (.inr ⟨left, _, operand_negation (.inl found)⟩)
    · exact .inr (.inr ⟨left, _, operand_negation (.inr found)⟩)
    · exact .inr (.inr ⟨left, _, operand_group found⟩)
    · rw [operand_conditional found, conditional_eq]
      exact .inr ((expecting_cases _ _).imp_right fun moved => ⟨left, moved⟩)
    · rw [operand_function found, function_eq]
      exact .inr ((expecting_cases _ _).imp_right fun moved => ⟨left, moved⟩)
  · exact .inr (.inl ⟨_, operand_refused known⟩)

/-- The loop ends at once, or the parser moves on while there are tokens left. -/
theorem operators_cases (precedence : Precedence) (left : Expression (Token α))
    (stream : TokenStream α) : operators precedence left stream = give left ∨
      0 < stream.size ∧ ∃ attempt, operators precedence left stream = moving attempt := by
  by_cases tighter : precedence < .ofKind stream.peek.kind
  · have more := stream.one_lt_size (Precedence.ne_eof_of_lt tighter)
    right
    refine ⟨by omega, ?_⟩
    by_cases found : stream.peek.kind = .leftParen
    · exact ⟨_, operators_call tighter found⟩
    · exact ⟨_, operators_operation tighter found⟩
  · exact .inl (operators_done tighter)

/-- Within an expression nothing begins before a step. -/
theorem waits_expression (precedence : Precedence) (stream : TokenStream α) :
    Waits stream ((operand stream).andThen fun left rest _ =>
      operators precedence left rest).log := by
  rcases operand_cases stream with ⟨tree, given⟩ | ⟨problem, refused⟩ | ⟨left, attempt, moved⟩
  · rw [given, log_andThen_some rfl]
    rcases operators_cases precedence tree stream with done | ⟨left, attempt, moved⟩
    · left
      simp [give, done]
    · right
      refine ⟨left, stream.peek, attempt.log, ?_⟩
      simp [give, moved, moving]
  · left
    rw [refused, log_andThen_none rfl]
    simp [refuse, ParseEvent.begins, ParseEvent.isEntry, ParseEvent.isOpening]
  · right
    refine ⟨left, stream.peek, ?_⟩
    rw [moved]
    cases given : attempt.value with
    | none => exact ⟨attempt.log, log_andThen_none given⟩
    | some value => exact ⟨_, log_andThen_some given⟩

/-- Every expression that is read within another one begins with fewer tokens left. -/
theorem nests_expression (precedence : Precedence) (stream : TokenStream α) :
    (expression precedence stream).Nests ParseEvent.isEntry := by
  refine nests_of_waits (.entered precedence stream.current)
    (compositional_walked.expression precedence stream) ?_ rfl ?_ (waits_expression precedence stream)
  · rw [expression_eq]
    rfl
  · intro event isEntry
    simp [ParseEvent.begins, isEntry]

/-- A block at the end of the text is over at once, and any other one begins with a step. -/
theorem waits_block (stream : TokenStream α) : Waits stream
    (.moved stream.peek :: (blockStatements stream.advance).log) := by
  by_cases ended : stream.size = 0
  · left
    have isEnd : stream.advance.current.kind = .eof :=
      TokenStream.current_kind_of_size_eq_zero (by simp [ended])
    rw [blockStatements_done (.inr isEnd)]
    simp [noting, give, ParseEvent.begins, ParseEvent.isEntry, ParseEvent.isOpening]
  · exact .inr ⟨Nat.pos_of_ne_zero ended, _, _, rfl⟩

/-- So does every block within another one. -/
theorem nests_block {stream : TokenStream α} (isBrace : stream.current.kind = .leftBrace) :
    (block stream).Nests ParseEvent.isOpening := by
  refine nests_of_waits (.opened stream.current)
    (compositional_walked.calls_inductive.hold.block stream isBrace) ?_ rfl ?_ (waits_block stream)
  · rw [block_eq]
    rfl
  · intro event isOpening
    simp [ParseEvent.begins, isOpening]

/-! ## Loops -/

/-- The beginning of a round of one of the loops. -/
inductive LoopHead (α : Type) where
  /-- Statements up to the end of the text. -/
  | program (stream : TokenStream α)
  /-- Statements up to the brace that closes a block. -/
  | block (stream : TokenStream α)
  /-- Operators after an operand. -/
  | operators (precedence : Precedence) (left : Expression (Token α)) (stream : TokenStream α)
  /-- Arguments between commas. -/
  | arguments (stream : TokenStream α)
  /-- Parameters between commas. -/
  | parameters (stream : TokenStream α)

namespace LoopHead

/-- What is left at the beginning of the round. -/
def stream : LoopHead α → TokenStream α
  | program stream => stream
  | block stream => stream
  | operators _ _ stream => stream
  | arguments stream => stream
  | parameters stream => stream

/-- What the loop does from this round on. -/
def log : LoopHead α → List (ParseEvent α)
  | program stream => (statements stream).log
  | block stream => (blockStatements stream).log
  | operators precedence left stream => (Parse.operators precedence left stream).log
  | arguments stream => (argumentList stream).log
  | parameters stream => (parameterList stream).log

/-- The round that begins at the one comes to its end, and the other is the beginning of the next. -/
inductive Repeats : LoopHead α → LoopHead α → Prop where
  | program {stream : TokenStream α} (going : stream.current.kind ≠ .eof) :
      Repeats (.program stream) (.program (statement stream).rest.advance)
  | block {stream : TokenStream α}
      (going : ¬ (stream.current.kind = .rightBrace ∨ stream.current.kind = .eof)) :
      Repeats (.block stream) (.block (statement stream).rest.advance)
  | call {precedence : Precedence} {left : Expression (Token α)} {stream : TokenStream α}
      {trees : List (Expression (Token α))} (tighter : precedence < .ofKind stream.peek.kind)
      (found : stream.peek.kind = .leftParen)
      (given : (Parse.arguments stream.advance).value = some trees) :
      Repeats (.operators precedence left stream)
        (.operators precedence (.call stream.peek left trees) (Parse.arguments stream.advance).rest)
  | operation {precedence : Precedence} {left right : Expression (Token α)}
      {stream : TokenStream α} (tighter : precedence < .ofKind stream.peek.kind)
      (found : stream.peek.kind ≠ .leftParen)
      (given : (expression (.ofKind stream.peek.kind) stream.advance.advance).value = some right) :
      Repeats (.operators precedence left stream)
        (.operators precedence (.infixed stream.peek stream.peek.literal left right)
          (expression (.ofKind stream.peek.kind) stream.advance.advance).rest)
  | arguments {stream : TokenStream α} {tree : Expression (Token α)}
      (given : (expression .lowest stream.advance).value = some tree)
      (comma : (expression .lowest stream.advance).rest.peek.kind = .comma) :
      Repeats (.arguments stream) (.arguments (expression .lowest stream.advance).rest.advance)
  | parameters {stream : TokenStream α} (isName : stream.peek.kind = .identifier)
      (comma : stream.advance.peek.kind = .comma) :
      Repeats (.parameters stream) (.parameters stream.advance.advance)

variable {head next : LoopHead α}

/-- A round that comes to its end leaves fewer tokens than it found. -/
theorem Repeats.size_lt (again : head.Repeats next) : next.stream.size < head.stream.size := by
  cases again with
  | @program stream going =>
    have left := stream.size_pos going
    have shorter := (statement stream).size_le
    simp only [LoopHead.stream, TokenStream.size_advance]
    omega
  | @block stream going =>
    have left := stream.size_pos fun isEnd => going (.inr isEnd)
    have shorter := (statement stream).size_le
    simp only [LoopHead.stream, TokenStream.size_advance]
    omega
  | @call _ _ stream _ tighter _ _ =>
    have more := stream.one_lt_size (Precedence.ne_eof_of_lt tighter)
    have shorter := (Parse.arguments stream.advance).size_le
    simp only [LoopHead.stream, TokenStream.size_advance] at shorter ⊢
    omega
  | @operation _ _ _ stream tighter _ _ =>
    have more := stream.one_lt_size (Precedence.ne_eof_of_lt tighter)
    have shorter := (expression (.ofKind stream.peek.kind) stream.advance.advance).size_le
    simp only [LoopHead.stream, TokenStream.size_advance] at shorter ⊢
    omega
  | @arguments stream _ _ comma =>
    have more := (expression .lowest stream.advance).rest.one_lt_size (by simp [comma])
    have shorter := (expression .lowest stream.advance).size_le
    simp only [LoopHead.stream, TokenStream.size_advance] at shorter ⊢
    omega
  | @parameters stream isName _ =>
    have more := stream.one_lt_size (by simp [isName])
    simp only [LoopHead.stream, TokenStream.size_advance]
    omega

/-- The loop does the one round, and then what it does from the next one on. -/
theorem Repeats.exists_round (again : head.Repeats next) :
    ∃ round, head.log = round ++ next.log := by
  cases again with
  | @program stream going =>
    refine ⟨(statement stream).settle.log ++ [.moved (statement stream).rest.peek], ?_⟩
    rw [LoopHead.log, statements_more going, log_more, List.append_assoc]
    rfl
  | @block stream going =>
    refine ⟨(statement stream).settle.log ++ [.moved (statement stream).rest.peek], ?_⟩
    rw [LoopHead.log, blockStatements_more going, log_more, List.append_assoc]
    rfl
  | @call _ _ stream _ tighter found given =>
    refine ⟨.moved stream.peek :: (Parse.arguments stream.advance).log, ?_⟩
    rw [LoopHead.log, operators_call tighter found]
    exact congrArg _ (log_andThen_some given)
  | @operation _ _ _ stream tighter found given =>
    refine ⟨.moved stream.peek :: .moved stream.advance.peek ::
      (expression (.ofKind stream.peek.kind) stream.advance.advance).log, ?_⟩
    rw [LoopHead.log, operators_operation tighter found]
    exact congrArg (_ :: _ :: ·) (log_andThen_some given)
  | @arguments stream _ given comma =>
    refine ⟨.moved stream.peek :: (expression .lowest stream.advance).log ++
      [.moved (expression .lowest stream.advance).rest.peek], ?_⟩
    rw [LoopHead.log, argumentList_eq, List.append_assoc]
    refine congrArg (_ :: ·) ((log_andThen_some given).trans ?_)
    rw [if_pos comma]
    rfl
  | @parameters stream isName comma =>
    refine ⟨[.moved stream.peek, .moved stream.advance.peek], ?_⟩
    rw [LoopHead.log, parameterList_eq, expecting, dif_pos isName, if_pos comma]
    rfl

end LoopHead

/-! ## The end of the text -/

/-- At the end of the text an expression is begun and not found, and nothing moves. -/
theorem log_expression_of_ended {stream : TokenStream α} (ended : stream.size = 0)
    (precedence : Precedence) : (expression precedence stream).log =
      [.entered precedence stream.current, .reported (.noExpression stream.current)] := by
  have isEnd := TokenStream.current_kind_of_size_eq_zero ended
  rw [expression_eq, operand_refused (by rw [isEnd]; decide)]
  rfl

theorem log_blockStatements_of_ended {stream : TokenStream α} (ended : stream.size = 0) :
    (blockStatements stream).log = [.closed stream.current] := by
  rw [blockStatements_done (.inr (TokenStream.current_kind_of_size_eq_zero ended))]
  rfl

/-- Statements are read until there is nothing left. -/
theorem current_kind_rest_statements (stream : TokenStream α) :
    (statements stream).rest.current.kind = .eof := by
  induction stream using statements.induct with
  | case1 stream found =>
    rw [statements_done found]
    exact found
  | case2 stream found ih =>
    rw [statements_more found, rest_andThen_some rfl]
    exact ih _ (statement stream).size_le

end Parse

open Parse in
/-- Every reading comes to an end, by the number of tokens that are left before the end of the text.
An expression within an expression begins with fewer of them, and so does a block within a block and
the next round of a loop. With none left there is no expression within an expression, no statement
in a block and no other round of a loop. A program is read in at most five events for each token and
four more; then the parser stands at the end, and from there it reads the empty program and changes
no more. -/
theorem reading_ends :
    (∀ (cursor : Cursor) (taken ahead : Nat), (cursor.nth (taken + ahead)).kind ≠ .eof ↔
      ahead < ((TokenStream.ofCursor cursor).drop taken).size) ∧
    (∀ (precedence : Precedence) (stream : TokenStream α),
      (expression precedence stream).Nests ParseEvent.isEntry) ∧
    (∀ stream : TokenStream α, stream.current.kind = .leftBrace →
      (block stream).Nests ParseEvent.isOpening) ∧
    (∀ head next : LoopHead α, head.Repeats next →
      next.stream.size < head.stream.size ∧ ∃ round, head.log = round ++ next.log) ∧
    (∀ stream : TokenStream α, stream.size = 0 →
      (∀ precedence, (expression precedence stream).log =
        [.entered precedence stream.current, .reported (.noExpression stream.current)]) ∧
      (blockStatements stream).log = [.closed stream.current] ∧
      ∀ head next : LoopHead α, head.stream = stream → ¬ head.Repeats next) ∧
    ∀ parser : Parser α, let (program, done) := parser.program
      (statements parser.stream).value = some program.statements ∧
        done.log.length ≤ parser.log.length + 5 * parser.stream.size + 4 ∧
        done.stream.current.kind = .eof ∧ done.program = (⟨[]⟩, done) := by
  refine ⟨?_, nests_expression, fun _ => nests_block, fun head next again =>
    ⟨again.size_lt, again.exists_round⟩, ?_, ?_⟩
  · intro cursor taken ahead
    rw [Ne, cursor.nth_eq_eof_iff, TokenStream.size_drop]
    show ¬ cursor.tokens.1.length ≤ taken + ahead ↔ ahead < cursor.tokens.1.length - taken
    omega
  · intro stream ended
    refine ⟨log_expression_of_ended ended, log_blockStatements_of_ended ended, ?_⟩
    intro head next at_end again
    have fewer := again.size_lt
    rw [at_end] at fewer
    omega
  · intro parser
    have ended := current_kind_rest_statements parser.stream
    obtain ⟨trees, given⟩ := exists_value_statements parser.stream
    have effort := within_statements parser.stream
    refine ⟨by simp [given], ?_, ended, ?_⟩
    · unfold Attempt.Within at effort
      rw [List.length_append]
      omega
    · rw [Parser.program, statements_done ended]
      simp [Attempt.give]

open Parse in
/-- The text breaks off in the arguments of a call in a block. -/
theorem reading_ends_unclosed :
    let stream := TokenStream.ofCursor (.ofText "if (x) \x7b f(a, b" "p")
    let head := LoopHead.arguments (stream.drop 6)
    let next := LoopHead.arguments (stream.drop 8)
    let last := stream.drop 10
    (stream.drop 4).current.kind = .leftBrace ∧ head.Repeats next ∧ last.size = 0 ∧
      (block (stream.drop 4)).Nests ParseEvent.isOpening ∧
      (next.stream.size < head.stream.size ∧ ∃ round, head.log = round ++ next.log) ∧
      (blockStatements last).log = [.closed last.current] := by
  intro stream head next last
  have isBrace : (stream.drop 4).current.kind = .leftBrace := by decide +kernel
  have again : head.Repeats next := by
    have found : (expression .lowest (stream.drop 6).advance).value.isSome := by decide +kernel
    obtain ⟨tree, given⟩ := Option.isSome_iff_exists.mp found
    have leads : (expression .lowest (stream.drop 6).advance).rest.advance = stream.drop 8 := by
      decide +kernel
    have comma : (expression .lowest (stream.drop 6).advance).rest.peek.kind = .comma := by
      decide +kernel
    have round := LoopHead.Repeats.arguments given comma
    rwa [leads] at round
  have ended : last.size = 0 := by decide +kernel
  obtain ⟨-, -, blocks, rounds, nothing, -⟩ := reading_ends (α := Location)
  exact ⟨isBrace, again, ended, blocks _ isBrace, rounds _ _ again, (nothing _ ended).2.1⟩

end Scriptlet
