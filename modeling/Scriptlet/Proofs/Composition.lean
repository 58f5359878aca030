import Scriptlet.Proofs.Branches

/-!
# Composition

Attempts are put together by a few operations. So what each of these operations keeps holds of every
call of the parser: `Compositional` has one rule for each of them, and its theorems have the one
induction that goes over the calls.

The statements of a block are apart. They are not read but between an opening brace and the event
that the block is done, and a property of attempts may fail of them alone; so what is to be shown of
them can be another property. In either list a statement that is done with, kept or not, has a step
behind it, and there is one rule for both together.
-/

namespace Scriptlet

variable {α : Type}

open Parse in
/-- The operations keep the property `whole` of attempts and the property `body` of the statements
of a block. -/
structure Compositional
    (whole : (stream : TokenStream α) → (β : Type) → Attempt stream β → Prop)
    (body : (stream : TokenStream α) → Attempt stream (List (Statement (Token α))) → Prop) :
    Prop where
  give (stream : TokenStream α) {β : Type} (value : β) : whole stream β (.give value)
  unexpected (stream : TokenStream α) (β : Type) (kind : Kind) :
    stream.peek.kind ≠ kind → whole stream β (.refuse (.unexpected kind stream.peek))
  noExpression (stream : TokenStream α) (β : Type) :
    stream.current.kind ∉ operandKinds → whole stream β (.refuse (.noExpression stream.current))
  tooLarge (stream : TokenStream α) (β : Type) :
    stream.current.kind = .integer → whole stream β (.refuse (.tooLarge stream.current))
  entered {stream : TokenStream α} {β : Type} {attempt : Attempt stream β}
    (precedence : Precedence) :
    whole stream β attempt → whole stream β (attempt.noting (.entered precedence stream.current))
  moving {stream : TokenStream α} {β : Type} {attempt : Attempt stream.advance β} :
    whole stream.advance β attempt → whole stream β attempt.moving
  map {stream : TokenStream α} {β γ : Type} {attempt : Attempt stream β} (f : β → γ) :
    whole stream β attempt → whole stream γ (attempt.map f)
  andThen {stream : TokenStream α} {β γ : Type} {attempt : Attempt stream β}
    {next : β → (rest : TokenStream α) → rest.size ≤ stream.size → Attempt rest γ} :
    whole stream β attempt →
    (∀ value rest shorter, whole rest γ (next value rest shorter)) →
    whole stream γ (attempt.andThen next)
  more {stream : TokenStream α} {attempt : Attempt stream (Statement (Token α))}
    {next : (rest : TokenStream α) → Attempt rest.advance (List (Statement (Token α)))} :
    whole stream _ attempt →
    (∀ rest : TokenStream α, rest.size ≤ stream.size → whole rest.advance _ (next rest)) →
    whole stream _ (attempt.settle.andThen fun tree rest _ =>
      .moving ((next rest).map (tree.toList ++ ·)))
  block {stream : TokenStream α}
    {attempt : Attempt stream.advance (List (Statement (Token α)))} :
    stream.current.kind = .leftBrace → body stream.advance attempt →
    whole stream _ (.noting (.opened stream.current) (.moving (attempt.map (Block.mk stream.current))))
  bodyDone (stream : TokenStream α) :
    stream.current.kind = .rightBrace ∨ stream.current.kind = .eof →
    body stream (.noting (.closed stream.current) (.give []))
  bodyMore {stream : TokenStream α} {attempt : Attempt stream (Statement (Token α))}
    {next : (rest : TokenStream α) → Attempt rest.advance (List (Statement (Token α)))} :
    ¬ (stream.current.kind = .rightBrace ∨ stream.current.kind = .eof) →
    whole stream _ attempt →
    (∀ rest : TokenStream α, rest.size ≤ stream.size → body rest.advance (next rest)) →
    body stream (attempt.settle.andThen fun tree rest _ =>
      .moving ((next rest).map (tree.toList ++ ·)))

namespace Compositional

open Parse

variable {whole : (stream : TokenStream α) → (β : Type) → Attempt stream β → Prop}
  {body : (stream : TokenStream α) → Attempt stream (List (Statement (Token α))) → Prop}

theorem expecting (rules : Compositional whole body) {stream : TokenStream α} {β : Type}
    {kind : Kind} {next : stream.peek.kind = kind → Attempt stream.advance β}
    (kept : ∀ found, whole stream.advance β (next found)) :
    whole stream β (.expecting kind next) := by
  unfold Attempt.expecting
  split
  · next found => exact rules.moving (kept found)
  · next absent => exact rules.unexpected stream β kind absent

theorem ending (rules : Compositional whole body) (stream : TokenStream α)
    (tree : Statement (Token α)) : whole stream _ (ending tree) := by
  unfold Parse.ending
  split
  · exact rules.moving (rules.give _ tree)
  · exact rules.give stream tree

/-- The loop over parameters, by induction on the tokens left. -/
theorem parameterList (rules : Compositional whole body) (stream : TokenStream α) :
    whole stream _ (parameterList stream) := by
  induction stream using parameterList.induct with
  | case1 stream ih =>
    rw [parameterList_eq]
    apply rules.expecting
    intro found
    split
    · exact rules.moving (rules.map _ (ih found))
    · exact rules.expecting fun _ => rules.give _ _

theorem parameters (rules : Compositional whole body) (stream : TokenStream α) :
    whole stream _ (parameters stream) := by
  unfold Parse.parameters
  split
  · exact rules.moving (rules.give _ [])
  · exact rules.parameterList stream

/-- Every call has the property. -/
def calls (whole : (stream : TokenStream α) → (β : Type) → Attempt stream β → Prop)
    (body : (stream : TokenStream α) → Attempt stream (List (Statement (Token α))) → Prop) :
    Calls α where
  expression precedence stream := whole stream _ (expression precedence stream)
  operand stream := whole stream _ (operand stream)
  operators precedence left stream := whole stream _ (operators precedence left stream)
  arguments stream := whole stream _ (arguments stream)
  argumentList stream := whole stream _ (argumentList stream)
  conditional stream := whole stream _ (conditional stream)
  alternative stream := whole stream _ (alternative stream)
  function stream := whole stream _ (function stream)
  block stream := stream.current.kind = .leftBrace → whole stream _ (Parse.block stream)
  blockStatements stream := body stream (blockStatements stream)
  statement stream := whole stream _ (statement stream)

/-- One pass over the functions of the parser, for all properties that have the rules. -/
theorem calls_inductive (rules : Compositional whole body) : (calls whole body).Inductive where
  expression precedence stream operand_kept operators_kept := by
    show whole stream _ (expression precedence stream)
    rw [expression_eq]
    exact rules.entered precedence (rules.andThen operand_kept operators_kept)
  operand_identifier stream found := by
    show whole stream _ (operand stream)
    rw [operand_identifier found]
    exact rules.give stream _
  operand_integer stream value found fits := by
    show whole stream _ (operand stream)
    rw [operand_integer found fits]
    exact rules.give stream _
  operand_tooLarge stream found large := by
    show whole stream _ (operand stream)
    rw [operand_tooLarge found large]
    exact rules.tooLarge stream _ found
  operand_truth stream found := by
    show whole stream _ (operand stream)
    rw [operand_truth found]
    exact rules.give stream _
  operand_falsehood stream found := by
    show whole stream _ (operand stream)
    rw [operand_falsehood found]
    exact rules.give stream _
  operand_negation stream found operand_kept := by
    show whole stream _ (operand stream)
    rw [operand_negation found]
    exact rules.moving (rules.map _ operand_kept)
  operand_group stream found inner_kept := by
    show whole stream _ (operand stream)
    rw [operand_group found]
    refine rules.moving (rules.andThen inner_kept fun inner rest _ => ?_)
    exact rules.expecting fun _ => rules.give _ inner
  operand_conditional stream found conditional_kept := by
    show whole stream _ (operand stream)
    rw [operand_conditional found]
    exact conditional_kept
  operand_function stream found function_kept := by
    show whole stream _ (operand stream)
    rw [operand_function found]
    exact function_kept
  operand_refused stream found := by
    show whole stream _ (operand stream)
    rw [operand_refused found]
    exact rules.noExpression stream _ found
  operators_call precedence left stream tighter found arguments_kept operators_kept := by
    show whole stream _ (operators precedence left stream)
    rw [operators_call tighter found]
    exact rules.moving (rules.andThen arguments_kept operators_kept)
  operators_operation precedence left stream tighter found right_kept operators_kept := by
    show whole stream _ (operators precedence left stream)
    rw [operators_operation tighter found]
    exact rules.moving (rules.moving (rules.andThen right_kept operators_kept))
  operators_done precedence left stream looser := by
    show whole stream _ (operators precedence left stream)
    rw [operators_done looser]
    exact rules.give stream left
  arguments_none stream found := by
    show whole stream _ (arguments stream)
    rw [arguments_none found]
    exact rules.moving (rules.give _ [])
  arguments_some stream found list_kept := by
    show whole stream _ (arguments stream)
    rw [arguments_some found]
    exact list_kept
  argumentList stream argument_kept list_kept := by
    show whole stream _ (argumentList stream)
    rw [argumentList_eq]
    refine rules.moving (rules.andThen argument_kept fun argument rest shorter => ?_)
    split
    · next comma => exact rules.moving (rules.map _ (list_kept rest shorter comma))
    · exact rules.expecting fun _ => rules.give _ _
  conditional stream condition_kept block_kept alternative_kept := by
    show whole stream _ (conditional stream)
    rw [conditional_eq]
    refine rules.expecting fun opens =>
      rules.moving (rules.andThen (condition_kept opens) fun condition rest shorter => ?_)
    refine rules.expecting fun _ => rules.expecting fun isBrace =>
      rules.andThen (block_kept opens rest shorter isBrace) fun consequence last shorter_last => ?_
    exact rules.map _ (alternative_kept opens rest shorter last shorter_last)
  alternative_some stream found block_kept := by
    show whole stream _ (alternative stream)
    rw [alternative_some found]
    exact rules.moving (rules.expecting fun isBrace => rules.map _ (block_kept isBrace))
  alternative_none stream found := by
    show whole stream _ (alternative stream)
    rw [alternative_none found]
    exact rules.give stream none
  function stream block_kept := by
    show whole stream _ (function stream)
    rw [function_eq]
    refine rules.expecting fun opens =>
      rules.andThen (rules.parameters _) fun names rest shorter => ?_
    exact rules.expecting fun isBrace => rules.map _ (block_kept opens rest shorter isBrace)
  block stream statements_kept := by
    intro isBrace
    rw [block_eq]
    exact rules.block isBrace statements_kept
  blockStatements_done stream found := by
    show body stream (blockStatements stream)
    rw [blockStatements_done found]
    exact rules.bodyDone stream found
  blockStatements_more stream found statement_kept statements_kept := by
    show body stream (blockStatements stream)
    rw [blockStatements_more found]
    exact rules.bodyMore found statement_kept statements_kept
  statement_binding stream found value_kept := by
    show whole stream _ (statement stream)
    rw [statement_binding found]
    refine rules.expecting fun _ => rules.expecting fun _ =>
      rules.moving (rules.andThen value_kept fun value rest _ => ?_)
    exact rules.ending rest _
  statement_bareReturn stream found bare := by
    show whole stream _ (statement stream)
    rw [statement_bareReturn found bare]
    exact rules.ending stream _
  statement_returning stream found valued value_kept := by
    show whole stream _ (statement stream)
    rw [statement_returning found valued]
    refine rules.moving (rules.andThen value_kept fun value rest _ => ?_)
    exact rules.ending rest _
  statement_expression stream notLet notReturn value_kept := by
    show whole stream _ (statement stream)
    rw [statement_expression notLet notReturn]
    refine rules.andThen value_kept fun value rest _ => ?_
    exact rules.ending rest _

theorem expression (rules : Compositional whole body) (precedence : Precedence)
    (stream : TokenStream α) : whole stream _ (expression precedence stream) :=
  rules.calls_inductive.hold.expression precedence stream

theorem statement (rules : Compositional whole body) (stream : TokenStream α) :
    whole stream _ (statement stream) :=
  rules.calls_inductive.hold.statement stream

/-- What the operations keep holds of the statements of a whole text. -/
theorem statements (rules : Compositional whole body) (stream : TokenStream α) :
    whole stream _ (statements stream) := by
  induction stream using statements.induct with
  | case1 stream found =>
    rw [statements_done found]
    exact rules.give stream []
  | case2 stream found ih =>
    rw [statements_more found]
    exact rules.more (rules.statement stream) ih

end Compositional

end Scriptlet
