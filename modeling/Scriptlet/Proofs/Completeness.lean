import Scriptlet.Proofs.Layers

/-!
# Completeness of parsing

Whatever the grammar derives is read without a problem, and as the tree that the grammar gives it.
The proof is one induction on derivations. Of an expression it says more than that it is read:
reading it, at any precedence that lets it in, comes to the loop over operators with that very tree
on its left. This is what a left operand needs, since reading does not end with it.

Where a choice is left to the reader, such as an operator, an `else` or a semicolon, the token ahead
decides; so the induction also keeps track of what may follow a phrase, and of the tokens that one
begins with.
-/

namespace Scriptlet

variable {α β γ : Type}

namespace Attempt

variable {stream : TokenStream α}

/-- The attempt succeeds without a problem, and the tokens of `rest` come next. -/
structure Yields (attempt : Attempt stream β) (value : β) (rest : List (Token α)) : Prop where
  given : attempt.value = some value
  quiet : attempt.problems = []
  left : attempt.rest.ahead = rest

theorem yields_give {value : β} {rest : List (Token α)} (left : stream.ahead = rest) :
    (give value : Attempt stream β).Yields value rest :=
  ⟨rfl, rfl, left⟩

theorem yields_noting {event : ParseEvent α} {attempt : Attempt stream β} {value : β}
    {rest : List (Token α)} (silent : event.problem? = none) (yields : attempt.Yields value rest) :
    (attempt.noting event).Yields value rest :=
  ⟨yields.given, by simp [problems_noting, silent, yields.quiet], yields.left⟩

theorem yields_moving {attempt : Attempt stream.advance β} {value : β} {rest : List (Token α)}
    (yields : attempt.Yields value rest) : attempt.moving.Yields value rest :=
  ⟨yields.given, yields.quiet, yields.left⟩

theorem yields_expecting {kind : Kind} {next : stream.peek.kind = kind → Attempt stream.advance β}
    {value : β} {rest : List (Token α)} (found : stream.peek.kind = kind)
    (yields : (next found).Yields value rest) : (expecting kind next).Yields value rest := by
  rw [expecting, dif_pos found]
  exact yields_moving yields

theorem yields_map {f : β → γ} {attempt : Attempt stream β} {value : β} {rest : List (Token α)}
    (yields : attempt.Yields value rest) : (attempt.map f).Yields (f value) rest :=
  ⟨by simp [map, yields.given], yields.quiet, yields.left⟩

/-- What comes after may rely on the tokens that the first attempt left. -/
theorem yields_andThen {attempt : Attempt stream β}
    {next : β → (rest : TokenStream α) → rest.size ≤ stream.size → Attempt rest γ} {value : β}
    {result : γ} {middle rest : List (Token α)} (yields : attempt.Yields value middle)
    (yields_next : ∀ after shorter, after.ahead = middle →
      (next value after shorter).Yields result rest) :
    (attempt.andThen next).Yields result rest := by
  have following := yields_next attempt.rest attempt.size_le yields.left
  constructor
  · rw [value_andThen_some yields.given, following.given]
  · rw [problems_andThen_some yields.given, yields.quiet, following.quiet, List.append_nil]
  · rw [rest_andThen_some yields.given, following.left]

theorem yields_settle {attempt : Attempt stream β} {value : β} {rest : List (Token α)}
    (yields : attempt.Yields value rest) : attempt.settle.Yields (some value) rest :=
  ⟨by simp [settle, yields.given], by rw [problems_settle, yields.quiet], yields.left⟩

end Attempt

namespace Parse

open Grammar Attempt

/-! ## How phrases begin -/

/-- The kinds of the tokens that begin a statement. -/
def statementKinds : List Kind := .letWord :: .returnWord :: operandKinds

/-- The first token is of one of some kinds. -/
def Starts (kinds : List Kind) (input : List (Token α)) : Prop :=
  ∃ first more, input = first :: more ∧ first.kind ∈ kinds

/-- How the tokens of a phrase begin. -/
def Begins : Phrase α → List (Token α) → Prop
  | .expression _ _, input => Starts operandKinds input
  | .arguments [], _ => True
  | .arguments (_ :: _), input => Starts operandKinds input
  | .block _, input => Starts [.leftBrace] input
  | .statement _, input => Starts statementKinds input
  | .statements [], _ => True
  | .statements (_ :: _), input => Starts statementKinds input

/-- The first token of a phrase tells what kind of phrase it is: this is all that the parser looks
at when it decides how to read on. -/
theorem begins_of_derives {phrase : Phrase α} {input rest : List (Token α)}
    (derived : Derives phrase input rest) : Begins phrase input := by
  induction derived with
  | tighter _ _ ih => exact ih
  | operation _ _ _ _ left _ => exact left
  | negation isSign _ _ =>
    exact ⟨_, _, rfl, by rcases isSign with is | is <;> simp [operandKinds, is]⟩
  | call _ _ _ _ callee _ => exact callee
  | identifier _ isName => exact ⟨_, _, rfl, by simp [operandKinds, isName]⟩
  | integer _ isNumber _ => exact ⟨_, _, rfl, by simp [operandKinds, isNumber]⟩
  | truth _ isTrue => exact ⟨_, _, rfl, by simp [operandKinds, isTrue]⟩
  | falsehood _ isFalse => exact ⟨_, _, rfl, by simp [operandKinds, isFalse]⟩
  | group opens _ _ _ => exact ⟨_, _, rfl, by simp [operandKinds, opens]⟩
  | conditional isIf _ _ _ _ _ _ => exact ⟨_, _, rfl, by simp [operandKinds, isIf]⟩
  | alternative isIf _ _ _ _ _ _ _ _ _ => exact ⟨_, _, rfl, by simp [operandKinds, isIf]⟩
  | function isFn _ _ _ _ _ => exact ⟨_, _, rfl, by simp [operandKinds, isFn]⟩
  | noArguments _ => trivial
  | lastArgument _ argument => exact argument
  | moreArguments _ _ _ argument _ => exact argument
  | block opens _ _ _ => exact ⟨_, _, rfl, by simp [opens]⟩
  | binding isLet _ _ _ _ _ => exact ⟨_, _, rfl, by simp [statementKinds, isLet]⟩
  | bareReturn isReturn _ => exact ⟨_, _, rfl, by simp [statementKinds, isReturn]⟩
  | returning isReturn _ _ _ => exact ⟨_, _, rfl, by simp [statementKinds, isReturn]⟩
  | expression _ _ stated =>
    obtain ⟨first, more, same, member⟩ := stated
    exact ⟨first, more, same, by simp [statementKinds, member]⟩
  | noStatements _ => trivial
  | moreStatements _ _ first _ => exact first

/-! ## What follows phrases -/

/-- Nothing ahead goes on with an expression of a layer. -/
structure Follows (inner : Layer) (rest : List (Token α)) : Prop where
  looser : (hold rest).rank ≤ inner.rank
  notElse : ∀ next ∈ rest.head?, next.kind ≠ .elseWord

/-- What may come after a statement: another one, or the brace of the block. -/
def Resumes (rest : List (Token α)) : Prop :=
  ∀ next ∈ rest.head?, next.kind ∈ Kind.rightBrace :: statementKinds

theorem resumes_of_closes {middle rest : List (Token α)} (closes : Closes middle rest) :
    Resumes middle := by
  cases closes with
  | brace rest isBrace => simp [Resumes, isBrace]
  | ending => simp [Resumes]

theorem resumes_of_derives {trees : List (Statement (Token α))} {input rest : List (Token α)}
    (derived : Derives (.statements trees) input rest) (resumes : Resumes rest) :
    Resumes input := by
  have begun := begins_of_derives derived
  cases derived with
  | noStatements _ => exact resumes
  | moreStatements _ _ =>
    obtain ⟨first, more, rfl, member⟩ := begun
    simp [Resumes, member]

/-- What ends a statement does not go on with its expression. -/
theorem lowest_of_ends {middle rest : List (Token α)} (ends : Ends StartsAnew middle rest)
    (resumes : Resumes rest) : hold middle = .lowest := by
  cases ends with
  | semicolon rest isMark => rw [hold, isMark]; rfl
  | bare follows =>
    cases middle with
    | nil => rfl
    | cons next more =>
      obtain ⟨notMinus, notParen⟩ := follows next rfl
      have member := resumes next rfl
      rw [hold]
      revert member notMinus notParen
      cases next.kind <;> decide

/-- No `else` follows a statement, so a conditional at its end has the second block that it was
given and no other. -/
theorem notElse_of_ends {allowed : Kind → Prop} {middle rest : List (Token α)}
    (ends : Ends allowed middle rest) (resumes : Resumes rest) :
    ∀ next ∈ middle.head?, next.kind ≠ .elseWord := by
  cases ends with
  | semicolon rest isMark => simp [isMark]
  | bare _ =>
    intro next first isElse
    have member := resumes next first
    simp [isElse, statementKinds, operandKinds] at member

/-- A semicolon is taken exactly where the grammar has one. -/
theorem ending_yields {stream : TokenStream α} {allowed : Kind → Prop} {rest : List (Token α)}
    (tree : Statement (Token α)) (ends : Ends allowed stream.ahead rest)
    (resumes : Resumes rest) : (ending tree : Attempt stream _).Yields tree rest := by
  unfold ending
  generalize found : stream.ahead = middle at ends
  cases ends with
  | semicolon rest isMark =>
    rw [if_pos (TokenStream.peek_of_ahead found ▸ isMark)]
    exact yields_moving (yields_give (TokenStream.ahead_advance_of_ahead found))
  | bare _ =>
    have notMark : stream.peek.kind ≠ .semicolon := by
      intro isMark
      have member := resumes stream.peek (by
        rw [← found, stream.ahead_eq_cons (by simp [isMark])]
        rfl)
      simp [isMark, statementKinds, operandKinds] at member
    rw [if_neg notMark]
    exact yields_give found

/-! ## Reading what is derived -/

/-- How the parser reads a phrase. An expression gets to the loop over operators, whatever comes of
the loop; arguments are read with their closing parenthesis, and statements with what closes
them. -/
def Read : Phrase α → List (Token α) → List (Token α) → Prop
  | .expression inner tree, input, rest => ∀ precedence : Precedence, precedence ≠ .call →
      (layer precedence).rank ≤ inner.rank → Follows inner rest →
      ∀ (value : Expression (Token α)) (after : List (Token α)),
        (∀ stream : TokenStream α, stream.ahead = rest →
          (operators precedence tree stream).Yields value after) →
        ∀ stream : TokenStream α, stream.pending = input →
          (expression precedence stream).Yields value after
  | .arguments trees, input, rest => ∀ (closing : Token α) (after : List (Token α)),
      rest = closing :: after → closing.kind = .rightParen →
      ∀ stream : TokenStream α, stream.ahead = input → (arguments stream).Yields trees after
  | .block tree, input, rest =>
      ∀ stream : TokenStream α, stream.pending = input → (block stream).Yields tree rest
  | .statement tree, input, rest => Resumes rest →
      ∀ stream : TokenStream α, stream.pending = input → (statement stream).Yields tree rest
  | .statements trees, input, rest =>
      (∀ after : List (Token α), Closes rest after →
        ∀ stream : TokenStream α, stream.pending = input →
          (blockStatements stream).Yields trees after) ∧
      (rest = [] → ∀ stream : TokenStream α, stream.pending = input →
        (statements stream).Yields trees [])

theorem rank_le_of_layer {precedence : Precedence} {inner : Layer} (notCall : precedence ≠ .call)
    (fits : (layer precedence).rank ≤ inner.rank) : precedence.rank ≤ inner.rank := by
  rw [rank_layer] at fits
  cases precedence
  case call => exact absurd rfl notCall
  all_goals exact Nat.le_trans (by decide) fits

theorem rank_lt_call {precedence : Precedence} (notCall : precedence ≠ .call) :
    precedence < .call := by
  cases precedence
  case call => exact absurd rfl notCall
  all_goals decide

/-- An expression before which nothing holds more tightly than the precedence is read. -/
theorem expression_yields {inner : Layer} {tree : Expression (Token α)}
    {input rest : List (Token α)} {precedence : Precedence}
    (read : Read (.expression inner tree) input rest) (notCall : precedence ≠ .call)
    (fits : (layer precedence).rank ≤ inner.rank) (looser : ¬ precedence < hold rest)
    (notElse : ∀ next ∈ rest.head?, next.kind ≠ .elseWord) (stream : TokenStream α)
    (left : stream.pending = input) : (expression precedence stream).Yields tree rest := by
  have follows : Follows inner rest :=
    ⟨Nat.le_trans (Nat.le_of_not_lt looser) (rank_le_of_layer notCall fits), notElse⟩
  refine read precedence notCall fits follows tree rest ?_ stream left
  intro stream found
  rw [← found, hold_ahead] at looser
  rw [operators_done looser]
  exact yields_give found

/-- An expression before a mark that is no operator is read. -/
theorem expression_yields_before {tree : Expression (Token α)} {input rest : List (Token α)}
    {mark : Token α} (read : Read (.expression .equality tree) input (mark :: rest))
    (isMark : mark.kind ∈ [Kind.comma, .rightParen]) (stream : TokenStream α)
    (left : stream.pending = input) :
    (expression .lowest stream).Yields tree (mark :: rest) := by
  refine expression_yields read (by decide) (by decide) ?_ ?_ stream left
  · rw [hold]
    obtain is | is : mark.kind = .comma ∨ mark.kind = .rightParen := by simpa using isMark
    all_goals rw [is]; decide
  · intro next first isElse
    obtain rfl : mark = next := by simpa using first
    simp [isElse] at isMark

/-- The expression of a statement is read. -/
theorem expression_yields_ends {tree : Expression (Token α)} {input middle rest : List (Token α)}
    (read : Read (.expression .equality tree) input middle) (ends : Ends StartsAnew middle rest)
    (resumes : Resumes rest) (stream : TokenStream α) (left : stream.pending = input) :
    (expression .lowest stream).Yields tree middle := by
  refine expression_yields read (by decide) (by decide) ?_ (notElse_of_ends ends resumes) stream
    left
  rw [lowest_of_ends ends resumes]
  decide

/-- What is read as an operand is an expression of any layer. -/
theorem read_of_operand {inner : Layer} {tree : Expression (Token α)}
    {input rest : List (Token α)}
    (operand_yields : Follows inner rest → ∀ stream : TokenStream α, stream.pending = input →
      (operand stream).Yields tree rest) : Read (.expression inner tree) input rest := by
  intro precedence _ _ follows value after loop stream left
  rw [expression_eq]
  apply yields_noting rfl
  apply yields_andThen (operand_yields follows stream left)
  intro middle _ found
  exact loop middle found

theorem name_of_ahead {stream : TokenStream α} {word : Token α} {more : List (Token α)}
    (left : stream.ahead = word :: more) : name stream.advance = ⟨word, word.literal⟩ := by
  have found : stream.advance.current = word := TokenStream.peek_of_ahead left
  rw [name, found]

theorem parameterList_yields {names : List (Name (Token α))} {input rest after : List (Token α)}
    {closing : Token α} (list : Parameters names input rest) (closed : rest = closing :: after)
    (closes : closing.kind = .rightParen) (some : names ≠ []) (stream : TokenStream α)
    (left : stream.ahead = input) : (parameterList stream).Yields names after := by
  induction list generalizing stream with
  | none _ => exact absurd rfl some
  | last rest isName =>
    have next : stream.advance.ahead = closing :: after :=
      closed ▸ TokenStream.ahead_advance_of_ahead left
    have isClosing : stream.advance.peek.kind = .rightParen :=
      TokenStream.peek_of_ahead next ▸ closes
    rw [parameterList_eq]
    apply yields_expecting (TokenStream.peek_of_ahead left ▸ isName)
    rw [if_neg (by simp [isClosing]), name_of_ahead left]
    apply yields_expecting isClosing
    exact yields_give (TokenStream.ahead_advance_of_ahead next)
  | more isName isComma _ ih =>
    have next := TokenStream.ahead_advance_of_ahead left
    rw [parameterList_eq]
    apply yields_expecting (TokenStream.peek_of_ahead left ▸ isName)
    rw [if_pos (TokenStream.peek_of_ahead next ▸ isComma), name_of_ahead left]
    apply yields_moving
    exact yields_map (ih closed (by simp) _ (TokenStream.ahead_advance_of_ahead next))

/-- The names of a function are read with their closing parenthesis. -/
theorem parameters_yields {names : List (Name (Token α))} {input after : List (Token α)}
    {closing : Token α} (list : Parameters names input (closing :: after))
    (closes : closing.kind = .rightParen) (stream : TokenStream α) (left : stream.ahead = input) :
    (parameters stream).Yields names after := by
  unfold parameters
  cases names with
  | nil =>
    cases list
    rw [if_pos (TokenStream.peek_of_ahead left ▸ closes)]
    exact yields_moving (yields_give (TokenStream.ahead_advance_of_ahead left))
  | cons first more =>
    have isName : stream.peek.kind = .identifier := by
      cases list with
      | last _ isName => exact TokenStream.peek_of_ahead left ▸ isName
      | more isName _ _ => exact TokenStream.peek_of_ahead left ▸ isName
    rw [if_neg (by simp [isName])]
    exact parameterList_yields list rfl closes (by simp) stream left

/-! ## The rules of the grammar, one by one -/

/-- The left operand comes to the loop over operators, which takes in the operator; its right
operand is read one layer further in, and so ends where the operator does. -/
theorem read_operation {outer next : Layer} {operator : Token α} {left right : Expression (Token α)}
    {input middle rest : List (Token α)} (above : outer.tighter = some next)
    (joins : operator.kind ∈ outer.operators)
    (left_read : Read (.expression outer left) input (operator :: middle))
    (right_read : Read (.expression next right) middle rest) :
    Read (.expression outer (.infixed operator operator.literal left right)) input rest := by
  obtain ⟨above', same, notParen, notElse, notCall'⟩ := operator_of_layer joins
  obtain rfl : next = layer (.ofKind operator.kind) := by
    rw [above] at above'
    exact Option.some.inj above'
  intro precedence notCall fits follows value after loop stream left_input
  refine left_read precedence notCall fits ⟨Nat.le_of_eq same.symm, ?_⟩ value after ?_ stream
    left_input
  · intro token first
    obtain rfl : operator = token := by simpa using first
    exact notElse
  · intro stream found
    have isNext := TokenStream.peek_of_ahead found
    have tighter : precedence < .ofKind stream.peek.kind := by
      rw [isNext, lt_iff_rank, ← same]
      rw [rank_layer] at fits
      have next_rank := Layer.rank_of_tighter above
      rw [rank_layer] at next_rank
      omega
    rw [operators_operation tighter (isNext ▸ notParen), isNext]
    apply yields_moving
    apply yields_moving
    apply yields_andThen (expression_yields right_read notCall' (Nat.le_refl _) ?_ follows.notElse _
      (TokenStream.ahead_advance_of_ahead found))
    · intro stream _ found
      exact loop stream found
    · rw [lt_iff_rank, ← same]
      exact Nat.not_lt_of_le follows.looser

/-- A sign reads its operand at its own precedence, which leaves every operator between two operands
to the expression around it. -/
theorem read_negation {operator : Token α} {operand' : Expression (Token α)}
    {input rest : List (Token α)} (isSign : operator.kind = .not ∨ operator.kind = .minus)
    (operand_read : Read (.expression .unary operand') input rest) :
    Read (.expression .unary (.prefixed operator operator.literal operand'))
      (operator :: input) rest := by
  apply read_of_operand
  intro follows stream left
  have first := TokenStream.current_of_pending left
  have looser : ¬ Precedence.unary < hold rest := Nat.not_lt_of_le follows.looser
  rw [operand_negation (by rwa [first]), first]
  apply yields_moving
  apply yields_map
  exact expression_yields operand_read (by decide) (by decide) looser follows.notElse _
    (TokenStream.ahead_of_pending left)

/-- The callee comes to the loop over operators, and the parenthesis holds it more tightly than any
precedence asks for. -/
theorem read_call {opening closing : Token α} {callee : Expression (Token α)}
    {trees : List (Expression (Token α))} {input middle rest : List (Token α)}
    (callee_read : Read (.expression .call callee) input (opening :: middle))
    (opens : opening.kind = .leftParen)
    (list_read : Read (.arguments trees) middle (closing :: rest))
    (closes : closing.kind = .rightParen) :
    Read (.expression .call (.call opening callee trees)) input rest := by
  intro precedence notCall fits follows value after loop stream left_input
  refine callee_read precedence notCall fits ⟨rank_le_six _, ?_⟩ value after ?_ stream left_input
  · intro token first
    obtain rfl : opening = token := by simpa using first
    simp [opens]
  · intro stream found
    have isNext := TokenStream.peek_of_ahead found
    have tighter : precedence < .ofKind stream.peek.kind := by
      rw [isNext, opens]
      exact rank_lt_call notCall
    rw [operators_call tighter (isNext ▸ opens), isNext]
    apply yields_moving
    apply yields_andThen (list_read closing rest rfl closes _
      (TokenStream.ahead_advance_of_ahead found))
    intro stream _ found
    exact loop stream found

/-- Between parentheses the precedence is the lowest again. -/
theorem read_group {opening closing : Token α} {tree : Expression (Token α)}
    {input rest : List (Token α)} (opens : opening.kind = .leftParen)
    (inner_read : Read (.expression .equality tree) input (closing :: rest))
    (closes : closing.kind = .rightParen) :
    Read (.expression .primary tree) (opening :: input) rest := by
  apply read_of_operand
  intro _ stream left
  rw [operand_group (TokenStream.current_of_pending left ▸ opens)]
  apply yields_moving
  apply yields_andThen (expression_yields_before inner_read (by simp [closes]) _
    (TokenStream.ahead_of_pending left))
  intro middle _ found
  apply yields_expecting (TokenStream.peek_of_ahead found ▸ closes)
  exact yields_give (TokenStream.ahead_advance_of_ahead found)

/-- A condition in its parentheses is read, and then the block after it. -/
theorem conditional_yields {word opening closing : Token α} {condition : Expression (Token α)}
    {consequence : Block (Token α)} {other : Option (Block (Token α))}
    {input middle last rest : List (Token α)} (opens : opening.kind = .leftParen)
    (tested : Read (.expression .equality condition) input (closing :: middle))
    (closes : closing.kind = .rightParen) (isBrace : Starts [.leftBrace] middle)
    (body : Read (.block consequence) middle last)
    (other_yields : ∀ stream : TokenStream α, stream.ahead = last →
      (alternative stream).Yields other rest)
    (stream : TokenStream α) (left : stream.pending = word :: opening :: input) :
    (conditional stream).Yields (.conditional word condition consequence other) rest := by
  have next := TokenStream.ahead_of_pending left
  rw [conditional_eq, TokenStream.current_of_pending left]
  apply yields_expecting (TokenStream.peek_of_ahead next ▸ opens)
  apply yields_moving
  apply yields_andThen (expression_yields_before tested (by simp [closes]) _
    (TokenStream.ahead_advance_of_ahead next))
  intro after _ found
  apply yields_expecting (TokenStream.peek_of_ahead found ▸ closes)
  have found_body := TokenStream.ahead_advance_of_ahead found
  obtain ⟨brace, more, rfl, member⟩ := isBrace
  apply yields_expecting (TokenStream.peek_of_ahead found_body ▸ by simpa using member)
  apply yields_andThen (body _ found_body)
  intro stream _ found
  exact yields_map (other_yields stream found)

theorem read_conditional {word opening closing : Token α} {condition : Expression (Token α)}
    {consequence : Block (Token α)} {input middle rest : List (Token α)}
    (isIf : word.kind = .ifWord) (opens : opening.kind = .leftParen)
    (tested : Read (.expression .equality condition) input (closing :: middle))
    (closes : closing.kind = .rightParen) (isBrace : Starts [.leftBrace] middle)
    (body : Read (.block consequence) middle rest) :
    Read (.expression .primary (.conditional word condition consequence none))
      (word :: opening :: input) rest := by
  apply read_of_operand
  intro follows stream left
  rw [operand_conditional (TokenStream.current_of_pending left ▸ isIf)]
  refine conditional_yields opens tested closes isBrace body ?_ stream left
  intro stream found
  have notElse : stream.peek.kind ≠ .elseWord := by
    intro isElse
    rw [stream.ahead_eq_cons (by simp [isElse])] at found
    exact follows.notElse stream.peek (by simp [← found]) isElse
  rw [alternative_none notElse]
  exact yields_give found

theorem read_alternative {word opening closing otherwise : Token α}
    {condition : Expression (Token α)} {consequence replacement : Block (Token α)}
    {input middle last rest : List (Token α)} (isIf : word.kind = .ifWord)
    (opens : opening.kind = .leftParen)
    (tested : Read (.expression .equality condition) input (closing :: middle))
    (closes : closing.kind = .rightParen) (isBrace : Starts [.leftBrace] middle)
    (body : Read (.block consequence) middle (otherwise :: last))
    (isElse : otherwise.kind = .elseWord) (isBrace' : Starts [.leftBrace] last)
    (other : Read (.block replacement) last rest) :
    Read (.expression .primary (.conditional word condition consequence (some replacement)))
      (word :: opening :: input) rest := by
  apply read_of_operand
  intro _ stream left
  rw [operand_conditional (TokenStream.current_of_pending left ▸ isIf)]
  refine conditional_yields opens tested closes isBrace body ?_ stream left
  intro stream found
  have next := TokenStream.ahead_advance_of_ahead found
  obtain ⟨brace, more, rfl, member⟩ := isBrace'
  rw [alternative_some (TokenStream.peek_of_ahead found ▸ isElse)]
  apply yields_moving
  apply yields_expecting (TokenStream.peek_of_ahead next ▸ by simpa using member)
  exact yields_map (other _ next)

theorem read_function {word opening closing : Token α} {names : List (Name (Token α))}
    {code : Block (Token α)} {input middle rest : List (Token α)} (isFn : word.kind = .fnWord)
    (opens : opening.kind = .leftParen) (list : Parameters names input (closing :: middle))
    (closes : closing.kind = .rightParen) (isBrace : Starts [.leftBrace] middle)
    (body : Read (.block code) middle rest) :
    Read (.expression .primary (.function word names code)) (word :: opening :: input) rest := by
  apply read_of_operand
  intro _ stream left
  have next := TokenStream.ahead_of_pending left
  rw [operand_function (TokenStream.current_of_pending left ▸ isFn), function_eq,
    TokenStream.current_of_pending left]
  apply yields_expecting (TokenStream.peek_of_ahead next ▸ opens)
  apply yields_andThen (parameters_yields list closes _ (TokenStream.ahead_advance_of_ahead next))
  intro after _ found
  obtain ⟨brace, more, rfl, member⟩ := isBrace
  apply yields_expecting (TokenStream.peek_of_ahead found ▸ by simpa using member)
  exact yields_map (body _ found)

theorem not_rightParen_of_starts {stream : TokenStream α}
    (starts : Starts operandKinds stream.ahead) : stream.peek.kind ≠ .rightParen := by
  obtain ⟨first, more, found, member⟩ := starts
  intro isParen
  simp [← TokenStream.peek_of_ahead found, isParen, operandKinds] at member

theorem read_noArguments (rest : List (Token α)) : Read (.arguments []) rest rest := by
  rintro closing after rfl closes stream left
  rw [arguments_none (TokenStream.peek_of_ahead left ▸ closes)]
  exact yields_moving (yields_give (TokenStream.ahead_advance_of_ahead left))

theorem read_lastArgument {tree : Expression (Token α)} {input rest : List (Token α)}
    (starts : Starts operandKinds input) (argument : Read (.expression .equality tree) input rest) :
    Read (.arguments [tree]) input rest := by
  rintro closing after rfl closes stream left
  rw [arguments_some (not_rightParen_of_starts (left ▸ starts)), argumentList_eq]
  apply yields_moving
  apply yields_andThen (expression_yields_before argument (by simp [closes]) _ left)
  intro middle _ found
  have isClosing : middle.peek.kind = .rightParen := TokenStream.peek_of_ahead found ▸ closes
  rw [if_neg (by simp [isClosing])]
  apply yields_expecting isClosing
  exact yields_give (TokenStream.ahead_advance_of_ahead found)

theorem read_moreArguments {comma : Token α} {tree second : Expression (Token α)}
    {trees : List (Expression (Token α))} {input middle rest : List (Token α)}
    (starts : Starts operandKinds input) (starts_others : Starts operandKinds middle)
    (argument : Read (.expression .equality tree) input (comma :: middle))
    (isComma : comma.kind = .comma) (others : Read (.arguments (second :: trees)) middle rest) :
    Read (.arguments (tree :: second :: trees)) input rest := by
  intro closing after closed closes stream left
  rw [arguments_some (not_rightParen_of_starts (left ▸ starts)), argumentList_eq]
  apply yields_moving
  apply yields_andThen (expression_yields_before argument (by simp [isComma]) _ left)
  intro stream _ found
  have next := TokenStream.ahead_advance_of_ahead found
  rw [if_pos (TokenStream.peek_of_ahead found ▸ isComma),
    ← arguments_some (not_rightParen_of_starts (next ▸ starts_others))]
  apply yields_moving
  exact yields_map (others closing after closed closes _ next)

/-- A block ends at its brace or at the end of the text; there is nothing else to choose between. -/
theorem read_block {opening : Token α} {trees : List (Statement (Token α))}
    {input middle rest : List (Token α)} (body : Read (.statements trees) input middle)
    (closes : Closes middle rest) :
    Read (.block (.mk opening trees)) (opening :: input) rest := by
  intro stream left
  rw [block_eq, TokenStream.current_of_pending left]
  apply yields_noting rfl
  apply yields_moving
  exact yields_map (body.1 rest closes _ (TokenStream.ahead_of_pending left))

theorem read_binding {word name assign : Token α} {value : Expression (Token α)}
    {input middle rest : List (Token α)} (isLet : word.kind = .letWord)
    (isName : name.kind = .identifier) (isAssign : assign.kind = .assign)
    (bound : Read (.expression .equality value) input middle)
    (ends : Ends StartsAnew middle rest) :
    Read (.statement (.binding word ⟨name, name.literal⟩ value))
      (word :: name :: assign :: input) rest := by
  intro resumes stream left
  have next := TokenStream.ahead_of_pending left
  have next' := TokenStream.ahead_advance_of_ahead next
  rw [statement_binding (TokenStream.current_of_pending left ▸ isLet),
    TokenStream.current_of_pending left, name_of_ahead next]
  apply yields_expecting (TokenStream.peek_of_ahead next ▸ isName)
  apply yields_expecting (TokenStream.peek_of_ahead next' ▸ isAssign)
  apply yields_moving
  apply yields_andThen (expression_yields_ends bound ends resumes _
    (TokenStream.ahead_advance_of_ahead next'))
  intro after _ found
  exact ending_yields _ (found ▸ ends) resumes

theorem read_bareReturn {word : Token α} {middle rest : List (Token α)}
    (isReturn : word.kind = .returnWord) (ends : Ends (· = .rightBrace) middle rest) :
    Read (.statement (.returning word none)) (word :: middle) rest := by
  intro resumes stream left
  have next := TokenStream.ahead_of_pending left
  have bare : stream.peek.kind ∈ bareKinds := by
    cases ends with
    | semicolon rest isMark => simp [TokenStream.peek_of_ahead next, bareKinds, isMark]
    | bare follows =>
      cases middle with
      | nil =>
        have ended : stream.peek = stream.advance.ending := TokenStream.current_of_pending_nil next
        simp [ended, TokenStream.ending, bareKinds]
      | cons token more =>
        simp [TokenStream.peek_of_ahead next, bareKinds, follows token rfl]
  rw [statement_bareReturn (TokenStream.current_of_pending left ▸ isReturn) bare,
    TokenStream.current_of_pending left]
  exact ending_yields _ (next ▸ ends) resumes

theorem read_returning {word : Token α} {value : Expression (Token α)}
    {input middle rest : List (Token α)} (isReturn : word.kind = .returnWord)
    (starts : Starts operandKinds input)
    (returned : Read (.expression .equality value) input middle)
    (ends : Ends StartsAnew middle rest) :
    Read (.statement (.returning word (some value))) (word :: input) rest := by
  intro resumes stream left
  have next := TokenStream.ahead_of_pending left
  have valued : stream.peek.kind ∉ bareKinds := by
    obtain ⟨first, more, rfl, member⟩ := starts
    rw [TokenStream.peek_of_ahead next]
    intro bare
    revert member bare
    cases first.kind <;> decide
  rw [statement_returning (TokenStream.current_of_pending left ▸ isReturn) valued,
    TokenStream.current_of_pending left]
  apply yields_moving
  apply yields_andThen (expression_yields_ends returned ends resumes _ next)
  intro after _ found
  exact ending_yields _ (found ▸ ends) resumes

theorem read_expression {first : Token α} {value : Expression (Token α)}
    {input middle rest : List (Token α)} (starts : first.kind ∈ operandKinds)
    (stated : Read (.expression .equality value) (first :: input) middle)
    (ends : Ends StartsAnew middle rest) :
    Read (.statement (.expression first value)) (first :: input) rest := by
  intro resumes stream left
  have isFirst := TokenStream.current_of_pending left
  have notLet : stream.current.kind ≠ .letWord := by
    intro isLet
    simp [← isFirst, isLet, operandKinds] at starts
  have notReturn : stream.current.kind ≠ .returnWord := by
    intro isReturn
    simp [← isFirst, isReturn, operandKinds] at starts
  rw [statement_expression notLet notReturn, isFirst]
  apply yields_andThen (expression_yields_ends stated ends resumes _ left)
  intro after _ found
  exact ending_yields _ (found ▸ ends) resumes

theorem read_noStatements (rest : List (Token α)) : Read (.statements []) rest rest := by
  constructor
  · intro after closes stream left
    cases closes with
    | brace rest isBrace =>
      rw [blockStatements_done (.inl (TokenStream.current_of_pending left ▸ isBrace))]
      exact yields_noting rfl (yields_give (TokenStream.ahead_of_pending left))
    | ending =>
      have ended : stream.current.kind = .eof := by
        rw [TokenStream.current_of_pending_nil left]
        rfl
      rw [blockStatements_done (.inr ended)]
      exact yields_noting rfl (yields_give (by simp [TokenStream.ahead, left]))
  · rintro rfl stream left
    have ended : stream.current.kind = .eof := by
      rw [TokenStream.current_of_pending_nil left]
      rfl
    rw [statements_done ended]
    exact yields_give (by simp [TokenStream.ahead, left])

/-- A statement ends where the next one begins, since nothing that begins a statement continues
it. -/
theorem read_moreStatements {tree : Statement (Token α)} {trees : List (Statement (Token α))}
    {input middle rest : List (Token α)} (starts : Starts statementKinds input)
    (resumes : Resumes rest → Resumes middle) (first : Read (.statement tree) input middle)
    (others : Read (.statements trees) middle rest) :
    Read (.statements (tree :: trees)) input rest := by
  obtain ⟨token, more, rfl, member⟩ := starts
  constructor
  · intro after closes stream left
    have going : ¬ (stream.current.kind = .rightBrace ∨ stream.current.kind = .eof) := by
      rw [TokenStream.current_of_pending left]
      revert member
      cases token.kind <;> decide
    rw [blockStatements_more going]
    apply yields_andThen (yields_settle (first (resumes (resumes_of_closes closes)) stream left))
    intro stream _ found
    apply yields_moving
    exact yields_map (others.1 after closes _ found)
  · rintro rfl stream left
    have going : stream.current.kind ≠ .eof := by
      rw [TokenStream.current_of_pending left]
      revert member
      cases token.kind <;> decide
    rw [statements_more going]
    apply yields_andThen (yields_settle (first (resumes (by simp [Resumes])) stream left))
    intro stream _ found
    apply yields_moving
    exact yields_map (others.2 rfl _ found)

/-- What the grammar derives is read. -/
theorem read_of_derives {phrase : Phrase α} {input rest : List (Token α)}
    (derived : Derives phrase input rest) : Read phrase input rest := by
  induction derived with
  | tighter above _ ih =>
    intro precedence notCall fits follows
    have step := Layer.rank_of_tighter above
    exact ih precedence notCall (by omega) ⟨by have := follows.looser; omega, follows.notElse⟩
  | operation above joins _ _ left right => exact read_operation above joins left right
  | negation isSign _ operand => exact read_negation isSign operand
  | call _ opens _ closes callee list => exact read_call callee opens list closes
  | identifier rest isName =>
    apply read_of_operand
    intro _ stream left
    have first := TokenStream.current_of_pending left
    rw [operand_identifier (first ▸ isName), name, first]
    exact yields_give (TokenStream.ahead_of_pending left)
  | @integer digits rest isNumber fits =>
    have value : Decimal.word? digits.literal.toList =
        some (Int64.ofNat (Decimal.value digits.literal.toList)) := if_pos fits
    apply read_of_operand
    intro _ stream left
    have first := TokenStream.current_of_pending left
    rw [operand_integer (first ▸ isNumber) (first ▸ value), first]
    exact yields_give (TokenStream.ahead_of_pending left)
  | truth rest isTrue =>
    apply read_of_operand
    intro _ stream left
    have first := TokenStream.current_of_pending left
    rw [operand_truth (first ▸ isTrue), first]
    exact yields_give (TokenStream.ahead_of_pending left)
  | falsehood rest isFalse =>
    apply read_of_operand
    intro _ stream left
    have first := TokenStream.current_of_pending left
    rw [operand_falsehood (first ▸ isFalse), first]
    exact yields_give (TokenStream.ahead_of_pending left)
  | group opens _ closes inner => exact read_group opens inner closes
  | conditional isIf opens _ closes body tested_read body_read =>
    exact read_conditional isIf opens tested_read closes (begins_of_derives body) body_read
  | alternative isIf opens _ closes body isElse other tested_read body_read other_read =>
    exact read_alternative isIf opens tested_read closes (begins_of_derives body) body_read isElse
      (begins_of_derives other) other_read
  | function isFn opens list closes body body_read =>
    exact read_function isFn opens list closes (begins_of_derives body) body_read
  | noArguments rest => exact read_noArguments rest
  | lastArgument argument read => exact read_lastArgument (begins_of_derives argument) read
  | moreArguments argument isComma others argument_read others_read =>
    exact read_moreArguments (begins_of_derives argument) (begins_of_derives others) argument_read
      isComma others_read
  | block _ _ closes body => exact read_block body closes
  | binding isLet isName isAssign _ ends bound =>
    exact read_binding isLet isName isAssign bound ends
  | bareReturn isReturn ends => exact read_bareReturn isReturn ends
  | returning isReturn returned ends read =>
    exact read_returning isReturn (begins_of_derives returned) read ends
  | expression stated ends read =>
    obtain ⟨first, more, same, member⟩ := begins_of_derives stated
    obtain ⟨rfl, -⟩ := List.cons.inj same
    exact read_expression member read ends
  | noStatements rest => exact read_noStatements rest
  | moreStatements first others first_read others_read =>
    exact read_moreStatements (begins_of_derives first) (resumes_of_derives others) first_read
      others_read

end Parse

open Grammar Parse

/-- A text whose tokens are a program of the grammar is read without a problem, as the tree that
the grammar gives it. -/
theorem parseText_of_derives {text path : String} {trees : List (Statement (Token Location))}
    (derived : Derives (.statements trees) (Cursor.ofText text path).tokens.1 []) :
    parseText text path = (⟨trees⟩, []) := by
  have yields : (statements (.ofCursor (.ofText text path))).Yields trees [] :=
    (read_of_derives derived).2 rfl _ rfl
  rw [parseText_eq, yields.given, yields.quiet]
  rfl

/-- An operation without parentheses and a function whose brace is missing, with no semicolon: two
statements, whose trees are the ones written here. -/
theorem parseText_of_derives_unclosed :
    let text := "-f(1) * 2 fn(a) \x7b return"
    let word (kind : Kind) (literal : String) (column : Nat) : Token Location :=
      ⟨kind, literal, ⟨"p", 1, column⟩⟩
    let call : Expression (Token Location) :=
      .call (word .leftParen "(" 3) (.identifier ⟨word .identifier "f" 2, "f"⟩)
        [.integerLiteral (word .integer "1" 4) 1]
    let product : Expression (Token Location) :=
      .infixed (word .times "*" 7) "*" (.prefixed (word .minus "-" 1) "-" call)
        (.integerLiteral (word .integer "2" 9) 2)
    let function : Expression (Token Location) :=
      .function (word .fnWord "fn" 11) [⟨word .identifier "a" 14, "a"⟩]
        (.mk (word .leftBrace "\x7b" 17) [.returning (word .returnWord "return" 19) none])
    let trees : List (Statement (Token Location)) :=
      [.expression (word .minus "-" 1) product, .expression (word .fnWord "fn" 11) function]
    Derives (.statements trees) (Cursor.ofText text "p").tokens.1 [] ∧
      parseText text "p" = (⟨trees⟩, []) := by
  intro text word call product function trees
  let functionWords := [word .fnWord "fn" 11, word .leftParen "(" 13, word .identifier "a" 14,
    word .rightParen ")" 15, word .leftBrace "\x7b" 17, word .returnWord "return" 19]
  let factorWords := word .times "*" 7 :: word .integer "2" 9 :: functionWords
  let callWords := [word .identifier "f" 2, word .leftParen "(" 3, word .integer "1" 4,
    word .rightParen ")" 5]
  have tokens :
      (Cursor.ofText text "p").tokens.1 = word .minus "-" 1 :: (callWords ++ factorWords) := by
    decide +kernel
  have integer (literal : String) (column : Nat) (rest : List (Token Location)) {value : Int64}
      (fits : Decimal.value literal.toList < 2 ^ 63)
      (meant : Int64.ofNat (Decimal.value literal.toList) = value) :
      Derives (.expression .primary (.integerLiteral (word .integer literal column) value))
        (word .integer literal column :: rest) rest := by
    subst meant
    exact .integer rest rfl fits
  have called : Derives (.expression .call call) (callWords ++ factorWords) factorWords :=
    .call (.tighter rfl (.identifier _ rfl)) rfl
      (.lastArgument (integer "1" 4 _ (by decide) (by decide)).loosest) rfl
  have multiplied : Derives (.expression .product product)
      (word .minus "-" 1 :: (callWords ++ factorWords)) functionWords :=
    .operation rfl (by decide) (.tighter rfl (.negation (.inr rfl) (.tighter rfl called)))
      ((integer "2" 9 functionWords (by decide) (by decide)).lower (by decide))
  have body : Derives (.block (.mk (word .leftBrace "\x7b" 17)
        [.returning (word .returnWord "return" 19) none]))
      [word .leftBrace "\x7b" 17, word .returnWord "return" 19] [] :=
    .block rfl (.moreStatements (.bareReturn rfl (.bare (by simp))) (.noStatements [])) .ending
  have last : Derives (.expression .primary function) functionWords [] :=
    .function rfl rfl (.last _ rfl) rfl body
  have derived : Derives (.statements trees)
      (word .minus "-" 1 :: (callWords ++ factorWords)) [] :=
    .moreStatements
      (.expression multiplied.loosest (.bare (by simp [functionWords, word, StartsAnew])))
      (.moreStatements (.expression last.loosest (.bare (by simp))) (.noStatements []))
  rw [← tokens] at derived
  exact ⟨derived, parseText_of_derives derived⟩

end Scriptlet
