import Scriptlet.Proofs.Layers
import Scriptlet.Proofs.Lexing
import Scriptlet.Tree.Equality

/-!
# Soundness of parsing

Whatever is read without a problem is a phrase of the grammar, and the tree that comes of it is the
tree of that phrase. `Attempt.Sound` says so of one attempt, and has one rule for each operation
that attempts are put together by.

The loop over operators is the heart of it. When it has read `left`, that is an expression of some
layer no looser than the operator ahead; an operator that is taken in puts the whole on its own
layer, and its right operand was read until nothing tighter than that layer was ahead.
-/

namespace Scriptlet

variable {α β γ : Type}

namespace Attempt

variable {stream : TokenStream α}

/-- If no problem is reported, there is a value, and it means what it should for the tokens that
are left. -/
def Sound (attempt : Attempt stream β) (meaning : β → List (Token α) → Prop) : Prop :=
  attempt.problems = [] → ∃ value, attempt.value = some value ∧ meaning value attempt.rest.ahead

theorem Sound.weaken {attempt : Attempt stream β} {meaning weaker : β → List (Token α) → Prop}
    (sound : attempt.Sound meaning)
    (implied : ∀ value rest, meaning value rest → weaker value rest) :
    attempt.Sound weaker := by
  intro quiet
  obtain ⟨value, given, meant⟩ := sound quiet
  exact ⟨value, given, implied _ _ meant⟩

theorem sound_give {value : β} {meaning : β → List (Token α) → Prop}
    (meant : meaning value stream.ahead) : (give value : Attempt stream β).Sound meaning :=
  fun _ => ⟨value, rfl, meant⟩

/-- A refusal reports a problem, so nothing is asked of it. -/
theorem sound_refuse (problem : Problem α) (meaning : β → List (Token α) → Prop) :
    (refuse problem : Attempt stream β).Sound meaning := by
  intro quiet
  simp at quiet

theorem sound_noting {event : ParseEvent α} {attempt : Attempt stream β}
    {meaning : β → List (Token α) → Prop} (sound : attempt.Sound meaning) :
    (attempt.noting event).Sound meaning := by
  intro quiet
  rw [problems_noting, List.append_eq_nil_iff] at quiet
  exact sound quiet.2

theorem sound_moving {attempt : Attempt stream.advance β} {meaning : β → List (Token α) → Prop}
    (sound : attempt.Sound meaning) : attempt.moving.Sound meaning := by
  intro quiet
  exact sound quiet

theorem sound_expecting {kind : Kind} {next : stream.peek.kind = kind → Attempt stream.advance β}
    {meaning : β → List (Token α) → Prop} (sound : ∀ found, (next found).Sound meaning) :
    (expecting kind next).Sound meaning := by
  unfold expecting
  split
  · next found => exact sound_moving (sound found)
  · exact sound_refuse _ _

theorem sound_map {f : β → γ} {attempt : Attempt stream β} {meaning : γ → List (Token α) → Prop}
    (sound : attempt.Sound fun value rest => meaning (f value) rest) :
    (attempt.map f).Sound meaning := by
  intro quiet
  obtain ⟨value, given, meant⟩ := sound quiet
  exact ⟨f value, by simp [map, given], meant⟩

/-- If the whole has no problem, neither part has one, and what follows may rely on what the first
part means. -/
theorem sound_andThen {attempt : Attempt stream β}
    {next : β → (rest : TokenStream α) → rest.size ≤ stream.size → Attempt rest γ}
    {first : β → List (Token α) → Prop} {meaning : γ → List (Token α) → Prop}
    (sound : attempt.Sound first)
    (sound_next : ∀ value rest shorter, first value rest.ahead →
      (next value rest shorter).Sound meaning) :
    (attempt.andThen next).Sound meaning := by
  intro quiet
  have quiet_first : attempt.problems = [] := by
    cases given : attempt.value with
    | none => rwa [problems_andThen_none given] at quiet
    | some value =>
      rw [problems_andThen_some given, List.append_eq_nil_iff] at quiet
      exact quiet.1
  obtain ⟨value, given, meant⟩ := sound quiet_first
  rw [problems_andThen_some given, List.append_eq_nil_iff] at quiet
  rw [value_andThen_some given, rest_andThen_some given]
  exact sound_next value attempt.rest attempt.size_le meant quiet.2

theorem sound_settle {attempt : Attempt stream β} {meaning : β → List (Token α) → Prop}
    (sound : attempt.Sound meaning) :
    attempt.settle.Sound fun settled rest =>
      ∃ value, settled = some value ∧ meaning value rest := by
  intro quiet
  rw [problems_settle] at quiet
  obtain ⟨value, given, meant⟩ := sound quiet
  exact ⟨some value, by simp [settle, given], value, rfl, meant⟩

end Attempt

namespace Parse

open Grammar Attempt

/-- No token among these stands for the end of the text. -/
def EndFree (tokens : List (Token α)) : Prop := ∀ token ∈ tokens, token.kind ≠ .eof

theorem EndFree.suffix {input rest : List (Token α)} (clean : EndFree input)
    (tail : rest <:+ input) : EndFree rest :=
  fun token member => clean token (tail.subset member)

/-- A phrase leaves the end of its input, which is as free of end tokens as all of it. -/
theorem EndFree.rest {phrase : Phrase α} {input rest : List (Token α)} (clean : EndFree input)
    (derived : Derives phrase input rest) : EndFree rest :=
  clean.suffix derived.suffix

theorem EndFree.tail {first : Token α} {more : List (Token α)} (clean : EndFree (first :: more)) :
    EndFree more :=
  clean.suffix (List.suffix_cons first more)

/-- Among such tokens the end of the text is met only when none is left. -/
theorem EndFree.pending_eq_nil {stream : TokenStream α} (clean : EndFree stream.pending)
    (ended : stream.current.kind = .eof) : stream.pending = [] := by
  rcases stream with ⟨_ | ⟨token, _⟩, _⟩
  · rfl
  · exact absurd ended (clean token (by simp))

/-! ## What soundness says of each function -/

/-- The expression is of the layer of its precedence, and no tighter operator is left ahead. -/
def ExpressionSound (precedence : Precedence) (stream : TokenStream α) : Prop :=
  EndFree stream.pending → (expression precedence stream).Sound fun tree rest =>
    Derives (.expression (layer precedence) tree) stream.pending rest ∧ ¬ precedence < hold rest

/-- Nothing tighter than the layer of the operand is ahead of it. -/
def OperandSound (stream : TokenStream α) : Prop :=
  EndFree stream.pending → (operand stream).Sound fun tree rest =>
    ∃ inner : Layer, 5 ≤ inner.rank ∧ (hold rest).rank ≤ inner.rank ∧
      Derives (.expression inner tree) stream.pending rest

/-- Whatever tokens `left` was read from, and of whatever layer it is. -/
def OperatorsSound (precedence : Precedence) (left : Expression (Token α))
    (stream : TokenStream α) : Prop :=
  ∀ (input : List (Token α)) (inner : Layer), EndFree input →
    Derives (.expression inner left) input stream.ahead →
    (hold stream.ahead).rank ≤ inner.rank → (layer precedence).rank ≤ inner.rank →
    (operators precedence left stream).Sound fun tree rest =>
      Derives (.expression (layer precedence) tree) input rest ∧ ¬ precedence < hold rest

/-- The arguments end before a parenthesis, which is read with them. -/
def ArgumentsSound (stream : TokenStream α) : Prop :=
  EndFree stream.ahead → (arguments stream).Sound fun trees rest =>
    ∃ closing : Token α, closing.kind = .rightParen ∧
      Derives (.arguments trees) stream.ahead (closing :: rest)

/-- So do arguments of which there is one at least. -/
def ArgumentListSound (stream : TokenStream α) : Prop :=
  EndFree stream.ahead → (argumentList stream).Sound fun trees rest =>
    ∃ (closing : Token α) (tree : Expression (Token α)) (more : List (Expression (Token α))),
      closing.kind = .rightParen ∧ trees = tree :: more ∧
        Derives (.arguments (tree :: more)) stream.ahead (closing :: rest)

/-- A function is an expression of the tightest layer. -/
def FunctionSound (stream : TokenStream α) : Prop :=
  EndFree stream.pending → stream.current.kind = .fnWord → (function stream).Sound fun tree rest =>
    Derives (.expression .primary tree) stream.pending rest

/-- So is a conditional. -/
def ConditionalSound (stream : TokenStream α) : Prop :=
  EndFree stream.pending → stream.current.kind = .ifWord →
    (conditional stream).Sound fun tree rest =>
      Derives (.expression .primary tree) stream.pending rest

/-- The second block has an `else` before it; if there is none, nothing is read. -/
def AlternativeSound (stream : TokenStream α) : Prop :=
  EndFree stream.ahead → (alternative stream).Sound fun other rest =>
    match other with
    | none => rest = stream.ahead
    | some replacement => ∃ (otherwise : Token α) (last : List (Token α)),
        otherwise.kind = .elseWord ∧ stream.ahead = otherwise :: last ∧
          Derives (.block replacement) last rest

/-- A block of the grammar, from its opening brace on. -/
def BlockSound (stream : TokenStream α) : Prop :=
  EndFree stream.pending → stream.current.kind = .leftBrace → (block stream).Sound fun tree rest =>
    Derives (.block tree) stream.pending rest

/-- Statements of the grammar, and what closes the block. -/
def BlockStatementsSound (stream : TokenStream α) : Prop :=
  EndFree stream.pending → (blockStatements stream).Sound fun trees rest =>
    ∃ middle, Derives (.statements trees) stream.pending middle ∧ Closes middle rest

/-- A statement of the grammar, with its semicolon. -/
def StatementSound (stream : TokenStream α) : Prop :=
  EndFree stream.pending → stream.current.kind ≠ .eof → (statement stream).Sound fun tree rest =>
    Derives (.statement tree) stream.pending rest

/-! ## Expressions -/

/-- The operand is an expression that the loop over operators can start from. -/
theorem expressionSound {precedence : Precedence} {stream : TokenStream α}
    (operand_sound : OperandSound stream)
    (operators_sound : ∀ (left : Expression (Token α)) (rest : TokenStream α),
      rest.size ≤ stream.size → OperatorsSound precedence left rest) :
    ExpressionSound precedence stream := by
  intro clean
  rw [expression_eq]
  apply sound_noting
  apply sound_andThen (operand_sound clean)
  intro left rest shorter meant
  obtain ⟨inner, tight, held, derived⟩ := meant
  refine operators_sound left rest shorter stream.pending inner clean derived held ?_
  rw [rank_layer]
  omega

/-- An operand that nothing can be tighter than. -/
theorem operandSound_of_primary {stream : TokenStream α}
    (primary : EndFree stream.pending → (operand stream).Sound fun tree rest =>
      Derives (.expression .primary tree) stream.pending rest) : OperandSound stream := by
  intro clean
  refine (primary clean).weaken fun tree rest derived => ⟨.primary, by decide, ?_, derived⟩
  exact Nat.le_succ_of_le (rank_le_six _)

theorem operandSound_identifier {stream : TokenStream α}
    (found : stream.current.kind = .identifier) : OperandSound stream := by
  apply operandSound_of_primary
  intro _
  rw [operand_identifier found, stream.pending_eq_cons (by simp [found])]
  exact sound_give (.identifier _ found)

theorem operandSound_integer {stream : TokenStream α} {value : Int64}
    (found : stream.current.kind = .integer)
    (fits : Decimal.word? stream.current.literal.toList = some value) : OperandSound stream := by
  apply operandSound_of_primary
  intro _
  rw [operand_integer found fits, stream.pending_eq_cons (by simp [found])]
  unfold Decimal.word? at fits
  split at fits
  · next small =>
    cases fits
    exact sound_give (.integer _ found small)
  · cases fits

theorem operandSound_truth {stream : TokenStream α} (found : stream.current.kind = .trueWord) :
    OperandSound stream := by
  apply operandSound_of_primary
  intro _
  rw [operand_truth found, stream.pending_eq_cons (by simp [found])]
  exact sound_give (.truth _ found)

theorem operandSound_falsehood {stream : TokenStream α}
    (found : stream.current.kind = .falseWord) : OperandSound stream := by
  apply operandSound_of_primary
  intro _
  rw [operand_falsehood found, stream.pending_eq_cons (by simp [found])]
  exact sound_give (.falsehood _ found)

/-- The operand of a sign takes in the calls after it, so nothing tighter than the sign is left. -/
theorem operandSound_negation {stream : TokenStream α}
    (found : stream.current.kind = .not ∨ stream.current.kind = .minus)
    (operand_sound : ExpressionSound .unary stream.advance) : OperandSound stream := by
  intro clean
  rw [operand_negation found]
  rw [stream.pending_eq_cons (by rcases found with found | found <;> simp [found])] at clean ⊢
  apply sound_moving
  apply sound_map
  refine (operand_sound clean.tail).weaken ?_
  intro tree rest meant
  obtain ⟨derived, looser⟩ := meant
  refine ⟨.unary, by decide, ?_, .negation found derived⟩
  exact Nat.le_of_not_lt looser

theorem operandSound_group {stream : TokenStream α} (found : stream.current.kind = .leftParen)
    (inner_sound : ExpressionSound .lowest stream.advance) : OperandSound stream := by
  apply operandSound_of_primary
  intro clean
  rw [operand_group found]
  rw [stream.pending_eq_cons (by simp [found])] at clean ⊢
  apply sound_moving
  apply sound_andThen (inner_sound clean.tail)
  intro tree rest _ meant
  obtain ⟨derived, _⟩ := meant
  apply sound_expecting
  intro closes
  rw [rest.ahead_eq_cons (by simp [closes])] at derived
  exact sound_give (.group found derived closes)

theorem operandSound_tooLarge {stream : TokenStream α} (found : stream.current.kind = .integer)
    (large : Decimal.word? stream.current.literal.toList = none) : OperandSound stream := by
  intro _
  rw [operand_tooLarge found large]
  exact sound_refuse _ _

theorem operandSound_conditional {stream : TokenStream α} (found : stream.current.kind = .ifWord)
    (sound : ConditionalSound stream) : OperandSound stream := by
  apply operandSound_of_primary
  intro clean
  rw [operand_conditional found]
  exact sound clean found

theorem operandSound_function {stream : TokenStream α} (found : stream.current.kind = .fnWord)
    (sound : FunctionSound stream) : OperandSound stream := by
  apply operandSound_of_primary
  intro clean
  rw [operand_function found]
  exact sound clean found

theorem operandSound_refused {stream : TokenStream α}
    (found : stream.current.kind ∉ operandKinds) : OperandSound stream := by
  intro _
  rw [operand_refused found]
  exact sound_refuse _ _

/-! ## Operators -/

/-- A call is of a layer that no operator ahead of it can be tighter than. -/
theorem operatorsSound_call {precedence : Precedence} {left : Expression (Token α)}
    {stream : TokenStream α} (tighter : precedence < .ofKind stream.peek.kind)
    (found : stream.peek.kind = .leftParen) (arguments_sound : ArgumentsSound stream.advance)
    (operators_sound : ∀ (trees : List (Expression (Token α))) (rest : TokenStream α),
      rest.size ≤ stream.advance.size →
        OperatorsSound precedence (.call stream.peek left trees) rest) :
    OperatorsSound precedence left stream := by
  intro input inner clean derived held _
  rw [operators_call tighter found]
  have next := stream.ahead_eq_cons (by simp [found])
  have callee : Derives (.expression .call left) input (stream.peek :: stream.advance.ahead) := by
    rw [hold_ahead, found] at held
    exact next ▸ derived.lower held
  apply sound_moving
  apply sound_andThen (arguments_sound (clean.rest callee).tail)
  intro trees rest shorter meant
  obtain ⟨closing, closes, list⟩ := meant
  refine operators_sound trees rest shorter input .call clean (.call callee found list closes)
    (rank_le_six _) ?_
  rw [rank_layer]
  exact Nat.le_succ_of_le (Nat.min_le_right _ _)

/-- Reading the right operand took in all operators that hold more tightly, so the operation is of
the layer of its own operator and the loop can go on from it. -/
theorem operatorsSound_operation {precedence : Precedence} {left : Expression (Token α)}
    {stream : TokenStream α} (tighter : precedence < .ofKind stream.peek.kind)
    (found : stream.peek.kind ≠ .leftParen)
    (right_sound : ExpressionSound (.ofKind stream.peek.kind) stream.advance.advance)
    (operators_sound : ∀ (right : Expression (Token α)) (rest : TokenStream α),
      rest.size ≤ stream.advance.advance.size →
        OperatorsSound precedence (.infixed stream.peek stream.peek.literal left right) rest) :
    OperatorsSound precedence left stream := by
  intro input inner clean derived held _
  rw [operators_operation tighter found]
  obtain ⟨outer, above, joins, same⟩ := exists_layer_of_operator tighter found
  have next := stream.ahead_eq_cons (Precedence.ne_eof_of_lt tighter)
  have left_outer : Derives (.expression outer left) input
      (stream.peek :: stream.advance.ahead) := by
    rw [hold_ahead] at held
    exact next ▸ derived.lower (same ▸ held)
  apply sound_moving
  apply sound_moving
  apply sound_andThen (right_sound (clean.rest left_outer).tail)
  intro right rest shorter meant
  obtain ⟨right_derived, looser⟩ := meant
  refine operators_sound right rest shorter input outer clean
    (.operation above joins left_outer right_derived) ?_ ?_
  · rw [same]
    exact Nat.le_of_not_lt looser
  · rw [rank_layer, same]
    rw [lt_iff_rank] at tighter
    omega

/-- Nothing tighter is ahead, so the layer can be made as loose as the precedence asks. -/
theorem operatorsSound_done {precedence : Precedence} {left : Expression (Token α)}
    {stream : TokenStream α} (looser : ¬ precedence < .ofKind stream.peek.kind) :
    OperatorsSound precedence left stream := by
  intro input inner _ derived _ fits
  rw [operators_done looser]
  refine sound_give ⟨derived.lower fits, ?_⟩
  rwa [hold_ahead]

/-! ## Lists -/

theorem argumentsSound_none {stream : TokenStream α} (found : stream.peek.kind = .rightParen) :
    ArgumentsSound stream := by
  intro _
  rw [arguments_none found, stream.ahead_eq_cons (by simp [found])]
  exact sound_moving (sound_give ⟨stream.peek, found, .noArguments _⟩)

theorem argumentsSound_some {stream : TokenStream α} (found : stream.peek.kind ≠ .rightParen)
    (list_sound : ArgumentListSound stream) : ArgumentsSound stream := by
  intro clean
  rw [arguments_some found]
  refine (list_sound clean).weaken ?_
  intro trees rest meant
  obtain ⟨closing, tree, more, closes, rfl, derived⟩ := meant
  exact ⟨closing, closes, derived⟩

theorem argumentListSound {stream : TokenStream α}
    (argument_sound : ExpressionSound .lowest stream.advance)
    (list_sound : ∀ rest : TokenStream α, rest.size ≤ stream.advance.size →
      rest.peek.kind = .comma → ArgumentListSound rest.advance) : ArgumentListSound stream := by
  intro clean
  rw [argumentList_eq]
  apply sound_moving
  apply sound_andThen (argument_sound clean)
  intro tree rest shorter meant
  obtain ⟨derived, _⟩ := meant
  split
  · next isComma =>
    rw [rest.ahead_eq_cons (by simp [isComma])] at derived
    apply sound_moving
    apply sound_map
    refine (list_sound rest shorter isComma ?_).weaken ?_
    · exact (clean.rest derived).tail
    · intro trees last meant
      obtain ⟨closing, second, more, closes, rfl, others⟩ := meant
      exact ⟨closing, tree, second :: more, closes, rfl, .moreArguments derived isComma others⟩
  · apply sound_expecting
    intro closes
    rw [rest.ahead_eq_cons (by simp [closes])] at derived
    exact sound_give ⟨rest.peek, tree, [], closes, rfl, .lastArgument derived⟩

/-- The names of a function up to their closing parenthesis. -/
theorem parameterList_sound (stream : TokenStream α) :
    (parameterList stream).Sound fun names rest =>
      ∃ (closing : Token α) (first : Name (Token α)) (more : List (Name (Token α))),
        closing.kind = .rightParen ∧ names = first :: more ∧
          Parameters (first :: more) stream.ahead (closing :: rest) := by
  induction stream using parameterList.induct with
  | case1 stream ih =>
    rw [parameterList_eq]
    apply sound_expecting
    intro isName
    have word := stream.ahead_eq_cons (by simp [isName])
    split
    · next isComma =>
      have comma := stream.advance.ahead_eq_cons (by simp [isComma])
      apply sound_moving
      apply sound_map
      refine (ih isName).weaken ?_
      intro names rest meant
      obtain ⟨closing, first, more, closes, rfl, others⟩ := meant
      refine ⟨closing, name stream.advance, first :: more, closes, rfl, ?_⟩
      rw [word, comma]
      exact .more isName isComma others
    · apply sound_expecting
      intro closes
      have closing := stream.advance.ahead_eq_cons (by simp [closes])
      refine sound_give ⟨stream.advance.peek, name stream.advance, [], closes, rfl, ?_⟩
      rw [word, closing]
      exact .last _ isName

/-- Parameters without a problem are those of the grammar, and a parenthesis ends them. -/
theorem parameters_sound (stream : TokenStream α) :
    (parameters stream).Sound fun names rest => ∃ closing : Token α,
      closing.kind = .rightParen ∧ Parameters names stream.ahead (closing :: rest) := by
  unfold parameters
  split
  · next closes =>
    rw [stream.ahead_eq_cons (by simp [closes])]
    exact sound_moving (sound_give ⟨stream.peek, closes, .none _⟩)
  · refine (parameterList_sound stream).weaken ?_
    intro names rest meant
    obtain ⟨closing, first, more, closes, rfl, list⟩ := meant
    exact ⟨closing, closes, list⟩

/-! ## Bodies -/

theorem conditionalSound {stream : TokenStream α}
    (condition_sound : stream.peek.kind = .leftParen →
      ExpressionSound .lowest stream.advance.advance)
    (block_sound : stream.peek.kind = .leftParen → ∀ rest : TokenStream α,
      rest.size ≤ stream.advance.advance.size → BlockSound rest.advance.advance)
    (alternative_sound : stream.peek.kind = .leftParen → ∀ rest : TokenStream α,
      rest.size ≤ stream.advance.advance.size → ∀ last : TokenStream α,
        last.size ≤ rest.advance.advance.size → AlternativeSound last) :
    ConditionalSound stream := by
  intro clean isIf
  rw [conditional_eq]
  rw [stream.pending_eq_cons (by simp [isIf])] at clean ⊢
  apply sound_expecting
  intro opens
  rw [stream.ahead_eq_cons (by simp [opens])] at clean ⊢
  apply sound_moving
  apply sound_andThen (condition_sound opens clean.tail.tail)
  intro condition rest shorter meant
  obtain ⟨tested, _⟩ := meant
  apply sound_expecting
  intro closes
  rw [rest.ahead_eq_cons (by simp [closes])] at tested
  have clean_body := (clean.tail.tail.rest tested).tail
  apply sound_expecting
  intro isBrace
  apply sound_andThen (block_sound opens rest shorter clean_body isBrace)
  intro consequence last shorter_last body
  apply sound_map
  refine (alternative_sound opens rest shorter last shorter_last (clean_body.rest body)).weaken ?_
  intro other after meant
  cases other with
  | none =>
    obtain rfl : after = last.ahead := meant
    exact .conditional isIf opens tested closes body
  | some replacement =>
    obtain ⟨otherwise, middle, isElse, found, replaced⟩ := meant
    exact .alternative isIf opens tested closes (found ▸ body) isElse replaced

theorem alternativeSound_some {stream : TokenStream α} (found : stream.peek.kind = .elseWord)
    (block_sound : BlockSound stream.advance.advance) : AlternativeSound stream := by
  intro clean
  rw [alternative_some found]
  rw [stream.ahead_eq_cons (by simp [found])] at clean ⊢
  apply sound_moving
  apply sound_expecting
  intro isBrace
  apply sound_map
  refine (block_sound clean.tail isBrace).weaken ?_
  intro replacement rest derived
  exact ⟨stream.peek, stream.advance.ahead, found, rfl, derived⟩

theorem alternativeSound_none {stream : TokenStream α} (found : stream.peek.kind ≠ .elseWord) :
    AlternativeSound stream := by
  intro _
  rw [alternative_none found]
  exact sound_give rfl

theorem functionSound {stream : TokenStream α}
    (block_sound : stream.peek.kind = .leftParen → ∀ rest : TokenStream α,
      rest.size ≤ stream.advance.size → BlockSound rest.advance) : FunctionSound stream := by
  intro clean isFn
  rw [function_eq]
  rw [stream.pending_eq_cons (by simp [isFn])] at clean ⊢
  apply sound_expecting
  intro opens
  rw [stream.ahead_eq_cons (by simp [opens])] at clean ⊢
  apply sound_andThen (parameters_sound stream.advance)
  intro names rest shorter meant
  obtain ⟨closing, closes, list⟩ := meant
  apply sound_expecting
  intro isBrace
  apply sound_map
  refine (block_sound opens rest shorter ?_ isBrace).weaken ?_
  · exact (clean.tail.tail.suffix list.suffix).tail
  · intro body after derived
    exact .function isFn opens list closes derived

theorem blockSound {stream : TokenStream α}
    (statements_sound : BlockStatementsSound stream.advance) : BlockSound stream := by
  intro clean opens
  rw [block_eq]
  rw [stream.pending_eq_cons (by simp [opens])] at clean ⊢
  apply sound_noting
  apply sound_moving
  apply sound_map
  refine (statements_sound clean.tail).weaken ?_
  intro trees rest meant
  obtain ⟨middle, derived, closes⟩ := meant
  exact .block opens derived closes

/-- The statements of a block end at its brace or at the end of the text, which is where the grammar
lets them end. -/
theorem blockStatementsSound_done {stream : TokenStream α}
    (found : stream.current.kind = .rightBrace ∨ stream.current.kind = .eof) :
    BlockStatementsSound stream := by
  intro clean
  rw [blockStatements_done found]
  apply sound_noting
  refine sound_give ⟨stream.pending, .noStatements _, ?_⟩
  cases found with
  | inl isBrace =>
    rw [stream.pending_eq_cons (by simp [isBrace])]
    exact .brace _ isBrace
  | inr ended =>
    have left : stream.pending = [] := clean.pending_eq_nil ended
    simpa [TokenStream.ahead, left] using Closes.ending

theorem blockStatementsSound_more {stream : TokenStream α}
    (found : ¬ (stream.current.kind = .rightBrace ∨ stream.current.kind = .eof))
    (statement_sound : StatementSound stream)
    (statements_sound : ∀ rest : TokenStream α, rest.size ≤ stream.size →
      BlockStatementsSound rest.advance) : BlockStatementsSound stream := by
  intro clean
  rw [blockStatements_more found]
  apply sound_andThen (sound_settle (statement_sound clean (by simp_all)))
  intro _ rest shorter meant
  obtain ⟨tree, rfl, derived⟩ := meant
  apply sound_moving
  apply sound_map
  refine (statements_sound rest shorter (clean.rest derived)).weaken ?_
  intro trees after meant
  obtain ⟨middle, others, closes⟩ := meant
  exact ⟨middle, .moreStatements derived others, closes⟩

/-! ## Statements -/

/-- A semicolon is taken if it is there. Else the tokens ahead have to be of a kind that `allowed`
permits. -/
theorem ending_sound {stream : TokenStream α} (allowed : Kind → Prop)
    {tree : Statement (Token α)}
    (bare : stream.peek.kind ≠ .semicolon → ∀ next ∈ stream.ahead.head?, allowed next.kind) :
    (ending tree : Attempt stream _).Sound fun tree' rest =>
      tree' = tree ∧ Ends allowed stream.ahead rest := by
  unfold ending
  split
  · next isMark =>
    rw [stream.ahead_eq_cons (by simp [isMark])]
    exact sound_moving (sound_give ⟨rfl, .semicolon _ isMark⟩)
  · next notMark => exact sound_give ⟨rfl, .bare (bare notMark)⟩

/-- After an expression comes nothing that would go on with it. -/
theorem startsAnew_of_hold {rest : List (Token α)} (looser : ¬ Precedence.lowest < hold rest) :
    ∀ next ∈ rest.head?, StartsAnew next.kind := by
  cases rest with
  | nil => simp
  | cons token rest =>
    simp only [List.head?_cons, Option.mem_def, Option.some.injEq, forall_eq']
    constructor
    · intro isMinus
      rw [hold, isMinus] at looser
      exact looser (by decide)
    · intro isParen
      rw [hold, isParen] at looser
      exact looser (by decide)

theorem statementSound_binding {stream : TokenStream α} (isLet : stream.current.kind = .letWord)
    (value_sound : ExpressionSound .lowest stream.advance.advance.advance) :
    StatementSound stream := by
  intro clean going
  rw [statement_binding isLet]
  rw [stream.pending_eq_cons going] at clean ⊢
  apply sound_expecting
  intro isName
  rw [stream.ahead_eq_cons (by simp [isName])] at clean ⊢
  apply sound_expecting
  intro isAssign
  rw [stream.advance.ahead_eq_cons (by simp [isAssign])] at clean ⊢
  apply sound_moving
  apply sound_andThen (value_sound clean.tail.tail.tail)
  intro value rest _ meant
  obtain ⟨bound, looser⟩ := meant
  refine (ending_sound _ fun _ => startsAnew_of_hold looser).weaken ?_
  intro _ after meant
  obtain ⟨rfl, ends⟩ := meant
  exact .binding isLet isName isAssign bound ends

/-- A `return` that stands before one of the tokens that cannot begin a value has none. -/
theorem statementSound_bareReturn {stream : TokenStream α}
    (isReturn : stream.current.kind = .returnWord) (bare : stream.peek.kind ∈ bareKinds) :
    StatementSound stream := by
  intro clean going
  rw [statement_bareReturn isReturn bare]
  rw [stream.pending_eq_cons going] at clean ⊢
  refine (ending_sound (· = .rightBrace) ?_).weaken ?_
  · intro notMark next first
    obtain ⟨more, found⟩ := List.head?_eq_some_iff.mp first
    have isNext := TokenStream.peek_of_ahead found
    have notEnd : next.kind ≠ .eof := clean.tail next (by simp [found])
    simp_all [bareKinds]
  · intro _ after meant
    obtain ⟨rfl, ends⟩ := meant
    exact .bareReturn isReturn ends

theorem statementSound_returning {stream : TokenStream α}
    (isReturn : stream.current.kind = .returnWord) (valued : stream.peek.kind ∉ bareKinds)
    (value_sound : ExpressionSound .lowest stream.advance) : StatementSound stream := by
  intro clean going
  rw [statement_returning isReturn valued]
  rw [stream.pending_eq_cons going] at clean ⊢
  apply sound_moving
  apply sound_andThen (value_sound clean.tail)
  intro value rest _ meant
  obtain ⟨returned, looser⟩ := meant
  refine (ending_sound _ fun _ => startsAnew_of_hold looser).weaken ?_
  intro _ after meant
  obtain ⟨rfl, ends⟩ := meant
  exact .returning isReturn returned ends

theorem statementSound_expression {stream : TokenStream α}
    (notLet : stream.current.kind ≠ .letWord) (notReturn : stream.current.kind ≠ .returnWord)
    (value_sound : ExpressionSound .lowest stream) : StatementSound stream := by
  intro clean going
  rw [statement_expression notLet notReturn]
  apply sound_andThen (value_sound clean)
  intro value rest _ meant
  obtain ⟨stated, looser⟩ := meant
  rw [stream.pending_eq_cons going] at stated ⊢
  refine (ending_sound _ fun _ => startsAnew_of_hold looser).weaken ?_
  intro _ after meant
  obtain ⟨rfl, ends⟩ := meant
  exact .expression stated ends

/-- Soundness as a statement about every call. -/
def soundness : Calls α where
  expression := ExpressionSound
  operand := OperandSound
  operators := OperatorsSound
  arguments := ArgumentsSound
  argumentList := ArgumentListSound
  conditional := ConditionalSound
  alternative := AlternativeSound
  function := FunctionSound
  block := BlockSound
  blockStatements := BlockStatementsSound
  statement := StatementSound

/-- Each function is sound if those that it calls are. -/
theorem soundness_inductive : (soundness (α := α)).Inductive where
  expression _ _ := expressionSound
  operand_identifier _ := operandSound_identifier
  operand_integer _ _ := operandSound_integer
  operand_tooLarge _ := operandSound_tooLarge
  operand_truth _ := operandSound_truth
  operand_falsehood _ := operandSound_falsehood
  operand_negation _ := operandSound_negation
  operand_group _ := operandSound_group
  operand_conditional _ := operandSound_conditional
  operand_function _ := operandSound_function
  operand_refused _ := operandSound_refused
  operators_call _ _ _ := operatorsSound_call
  operators_operation _ _ _ := operatorsSound_operation
  operators_done _ _ _ := operatorsSound_done
  arguments_none _ := argumentsSound_none
  arguments_some _ := argumentsSound_some
  argumentList _ := argumentListSound
  conditional _ := conditionalSound
  alternative_some _ := alternativeSound_some
  alternative_none _ := alternativeSound_none
  function _ := functionSound
  block _ := blockSound
  blockStatements_done _ := blockStatementsSound_done
  blockStatements_more _ := blockStatementsSound_more
  statement_binding _ := statementSound_binding
  statement_bareReturn _ := statementSound_bareReturn
  statement_returning _ := statementSound_returning
  statement_expression _ := statementSound_expression

theorem statement_sound (stream : TokenStream α) : StatementSound stream :=
  soundness_inductive.hold.statement stream

/-- Statements that were read to the end without a problem are a program of the grammar. -/
theorem statements_sound (stream : TokenStream α) (clean : EndFree stream.pending) :
    (statements stream).Sound fun trees _ => Derives (.statements trees) stream.pending [] := by
  induction stream using statements.induct with
  | case1 stream ended =>
    rw [statements_done ended]
    have left : stream.pending = [] := clean.pending_eq_nil ended
    rw [left]
    exact sound_give (.noStatements [])
  | case2 stream going ih =>
    rw [statements_more going]
    apply sound_andThen (sound_settle (statement_sound stream clean going))
    intro _ rest shorter meant
    obtain ⟨tree, rfl, derived⟩ := meant
    apply sound_moving
    apply sound_map
    refine (ih rest shorter (clean.rest derived)).weaken ?_
    intro trees _ others
    exact .moreStatements derived others

end Parse

open Parse

/-- The tokens of a text come before its end. -/
theorem Cursor.endFree_tokens (cursor : Cursor) : EndFree cursor.tokens.1 :=
  fun token member => (cursor.genuine_of_mem_tokens token member).ne_eof

/-- A text with which nothing is wrong is a program of the grammar, up to its last token, and the
program that is read is the tree that the grammar gives it. -/
theorem derives_of_parseText (text path : String) (clean : (parseText text path).2 = []) :
    Grammar.Derives (.statements (parseText text path).1.statements)
      (Cursor.ofText text path).tokens.1 [] := by
  rw [parseText_eq] at clean ⊢
  obtain ⟨trees, given, derived⟩ :=
    statements_sound _ (Cursor.endFree_tokens _) (List.map_eq_nil_iff.mp clean)
  simp only [given]
  exact derived

/-- Signs before calls, statements without their semicolons, and a conditional whose last brace is
missing at the end of the text: four statements, whose trees are the ones written here. -/
theorem derives_of_parseText_unclosed :
    let text := "let x = -f(1)(a, 2) * 3 return !x return; if (x < y) \x7b x \x7d else \x7b y"
    let word (kind : Kind) (literal : String) (column : Nat) : Token Location :=
      ⟨kind, literal, ⟨"a", 1, column⟩⟩
    let named (literal : String) (column : Nat) : Name (Token Location) :=
      ⟨word .identifier literal column, literal⟩
    let number (value : Int64) (literal : String) (column : Nat) : Expression (Token Location) :=
      .integerLiteral (word .integer literal column) value
    let calls : Expression (Token Location) := .call (word .leftParen "(" 14)
      (.call (word .leftParen "(" 11) (.identifier (named "f" 10)) [number 1 "1" 12])
      [.identifier (named "a" 15), number 2 "2" 18]
    let product : Expression (Token Location) :=
      .infixed (word .times "*" 21) "*" (.prefixed (word .minus "-" 9) "-" calls)
        (number 3 "3" 23)
    let less : Expression (Token Location) :=
      .infixed (word .less "<" 49) "<" (.identifier (named "x" 47)) (.identifier (named "y" 51))
    let block (column : Nat) (name : Name (Token Location)) : Block (Token Location) :=
      .mk (word .leftBrace "\x7b" column) [.expression name.token (.identifier name)]
    let trees : List (Statement (Token Location)) :=
      [.binding (word .letWord "let" 1) (named "x" 5) product,
        .returning (word .returnWord "return" 25)
          (some (.prefixed (word .not "!" 32) "!" (.identifier (named "x" 33)))),
        .returning (word .returnWord "return" 35) none,
        .expression (word .ifWord "if" 43) (.conditional (word .ifWord "if" 43) less
          (block 54 (named "x" 56)) (some (block 65 (named "y" 67))))]
    parseText text "a" = (⟨trees⟩, []) ∧
      Grammar.Derives (.statements trees) (Cursor.ofText text "a").tokens.1 [] := by
  intro text word named number calls product less block trees
  have read : parseText text "a" = (⟨trees⟩, []) := by decide +kernel
  have derived := derives_of_parseText text "a" (by rw [read])
  rw [read] at derived
  exact ⟨read, derived⟩

end Scriptlet
