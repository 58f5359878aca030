import Mathlib.Logic.Basic
import Scriptlet.Proofs.Branches
import Scriptlet.Proofs.Trees

/-!
# Parallel readings

Two token streams are read side by side, and what is to be shown is how the two readings compare.
`Parallel` has one rule for each operation that attempts are put together by, and one for each kind
of test that the parser makes of a token; its theorems have the one induction that goes over the
calls. The tokens of the second stream may have other marks.

A relation between two readings says itself where they have to begin. An expression ends on a token
that is no semicolon, and whatever goes on there may rely on it: such a place is `firm`. A statement
may take in a semicolon, so it is told apart how far a reading has come.
-/

namespace Scriptlet

variable {α β γ : Type}

/-! ## Other marks -/

/-- The token with another mark. -/
def Token.mapMark (f : α → β) (token : Token α) : Token β :=
  ⟨token.kind, token.literal, f token.location⟩

/-- The problem with another mark. -/
def Problem.mapMark (f : α → β) : Problem α → Problem β
  | .unexpected wanted found => .unexpected wanted (found.mapMark f)
  | .noExpression found => .noExpression (found.mapMark f)
  | .tooLarge found => .tooLarge (found.mapMark f)

/-- The event with another mark. -/
def ParseEvent.mapMark (f : α → β) : ParseEvent α → ParseEvent β
  | .moved current => .moved (current.mapMark f)
  | .entered precedence current => .entered precedence (current.mapMark f)
  | .reported problem => .reported (problem.mapMark f)
  | .settled kept current => .settled kept (current.mapMark f)
  | .opened current => .opened (current.mapMark f)
  | .closed current => .closed (current.mapMark f)

@[simp] theorem Token.kind_mapMark (f : α → β) (token : Token α) :
    (token.mapMark f).kind = token.kind := rfl

@[simp] theorem Token.mapMark_id : Token.mapMark (id : α → α) = id := rfl

@[simp] theorem Problem.mapMark_id (problem : Problem α) : problem.mapMark id = problem := by
  cases problem <;> rfl

@[simp] theorem ParseEvent.mapMark_id (event : ParseEvent α) : event.mapMark id = event := by
  cases event with
  | reported problem => exact congrArg reported problem.mapMark_id
  | _ => rfl

/-- The event is that something begins, or that a block is done. -/
def ParseEvent.quiet : ParseEvent α → Bool
  | .entered _ _ | .opened _ | .closed _ => true
  | .moved _ | .reported _ | .settled _ _ => false

/-- One of a list of statements, and those after it. -/
def Attempt.more {stream : TokenStream α} (attempt : Attempt stream (Statement (Token α)))
    (next : (rest : TokenStream α) → Attempt rest (List (Statement (Token α)))) :
    Attempt stream (List (Statement (Token α))) :=
  attempt.settle.andThen fun tree rest _ => .moving ((next rest.advance).map (tree.toList ++ ·))

/-! ## The rules -/

/-- How far a reading comes: it ends on the last token of what it has read, or behind a statement,
which may have taken in a semicolon. -/
inductive Extent where
  | part
  | statement

/-- A relation between attempts on two streams, where a function tells how their values compare. -/
abbrev Pairing (α β : Type) : Type 1 :=
  Extent → {γ δ : Type} → (γ → δ) → {stream : TokenStream α} → {other : TokenStream β} →
    Attempt stream γ → Attempt other δ → Prop

/-- Lists of statements are paired if what they begin with is, and what comes after that. -/
def Pairing.More (paired : Pairing α β) (f : α → β)
    (next : (rest : TokenStream α) → Attempt rest (List (Statement (Token α))))
    (next' : (rest : TokenStream β) → Attempt rest (List (Statement (Token β)))) : Prop :=
  ∀ {stream : TokenStream α} {other : TokenStream β}
    {attempt : Attempt stream (Statement (Token α))}
    {image : Attempt other (Statement (Token β))},
    paired .statement (Statement.mapTokens (Token.mapMark f)) attempt image →
    (∀ (rest : TokenStream α) (rest' : TokenStream β), rest.size ≤ stream.size →
      paired .part (mapStatements (Token.mapMark f)) (next rest.advance) (next' rest'.advance)) →
    paired .part (mapStatements (Token.mapMark f)) (attempt.more next) (image.more next')

/-- The operations keep two readings paired, and no test tells them apart. -/
structure Parallel (f : α → β) (firm : TokenStream α → Prop) (paired : Pairing α β) : Prop where
  /-- At any token but a semicolon a stream is firm. -/
  firm_of {stream : TokenStream α} : stream.current.kind ≠ .semicolon → firm stream
  /-- The streams may be taken to stand on the same token. -/
  current {extent : Extent} {γ δ : Type} {g : γ → δ} {stream : TokenStream α}
    {other : TokenStream β} {attempt : Attempt stream γ} {image : Attempt other δ} :
    (other.current = stream.current.mapMark f → paired extent g attempt image) →
    paired extent g attempt image
  /-- Where a step is taken because of the next token, that may be taken to be the same. -/
  step {extent : Extent} {γ δ : Type} {g : γ → δ} {stream : TokenStream α} {other : TokenStream β}
    {attempt : Attempt stream.advance γ} {image : Attempt other δ} : firm stream →
    (other.peek = stream.peek.mapMark f → paired extent g attempt.moving image) →
    paired extent g attempt.moving image
  /-- Where no step is taken because of the next token, none is taken because of a semicolon. -/
  stay {extent : Extent} {γ δ : Type} {g : γ → δ} {stream : TokenStream α} {other : TokenStream β}
    {attempt : Attempt stream γ} {image : Attempt other δ} (idle : Kind → Prop) : firm stream →
    idle stream.peek.kind → idle .semicolon →
    (idle other.peek.kind → paired extent g attempt image) → paired extent g attempt image
  give {γ δ : Type} {g : γ → δ} {stream : TokenStream α} {other : TokenStream β} (value : γ) :
    firm stream →
    paired .part g (.give value : Attempt stream γ) (.give (g value) : Attempt other δ)
  refuse {extent : Extent} {γ δ : Type} {g : γ → δ} {stream : TokenStream α}
    {other : TokenStream β} (problem : Problem α) :
    paired extent g (.refuse problem : Attempt stream γ)
      (.refuse (problem.mapMark f) : Attempt other δ)
  noting {extent : Extent} {γ δ : Type} {g : γ → δ} {stream : TokenStream α}
    {other : TokenStream β} {attempt : Attempt stream γ} {image : Attempt other δ}
    {event : ParseEvent α} : event.quiet = true → paired extent g attempt image →
    paired extent g (attempt.noting event) (image.noting (event.mapMark f))
  moving {extent : Extent} {γ δ : Type} {g : γ → δ} {stream : TokenStream α}
    {other : TokenStream β} {attempt : Attempt stream.advance γ} {image : Attempt other.advance δ} :
    firm stream → paired extent g attempt image → paired extent g attempt.moving image.moving
  expecting {extent : Extent} {γ δ : Type} {g : γ → δ} {stream : TokenStream α}
    {other : TokenStream β} {kind : Kind}
    {next : stream.peek.kind = kind → Attempt stream.advance γ}
    {next' : other.peek.kind = kind → Attempt other.advance δ} : firm stream →
    (∀ found found', paired extent g (next found) (next' found')) →
    paired extent g (.expecting kind next) (.expecting kind next')
  map {extent : Extent} {γ δ ε ζ : Type} {g : γ → δ} {h : ε → ζ} {stream : TokenStream α}
    {other : TokenStream β} {attempt : Attempt stream γ} {image : Attempt other δ} {k : γ → ε}
    {k' : δ → ζ} : (∀ value, k' (g value) = h (k value)) → paired extent g attempt image →
    paired extent h (attempt.map k) (image.map k')
  andThen {extent : Extent} {γ δ ε ζ : Type} {g : γ → δ} {h : ε → ζ} {stream : TokenStream α}
    {other : TokenStream β} {attempt : Attempt stream γ} {image : Attempt other δ}
    {next : γ → (rest : TokenStream α) → rest.size ≤ stream.size → Attempt rest ε}
    {next' : δ → (rest : TokenStream β) → rest.size ≤ other.size → Attempt rest ζ} :
    paired .part g attempt image →
    (∀ value rest shorter rest' shorter', firm rest →
      paired extent h (next value rest shorter) (next' (g value) rest' shorter')) →
    paired extent h (attempt.andThen next) (image.andThen next')
  ending {stream : TokenStream α} {other : TokenStream β} (tree : Statement (Token α)) :
    firm stream → paired .statement (Statement.mapTokens (Token.mapMark f))
      (Parse.ending tree : Attempt stream _)
      (Parse.ending (tree.mapTokens (Token.mapMark f)) : Attempt other _)
  more : paired.More f Parse.blockStatements Parse.blockStatements

namespace Parallel

open Parse

variable {f : α → β} {firm : TokenStream α → Prop} {paired : Pairing α β}
  {stream : TokenStream α} {other : TokenStream β}

theorem firm_at (rules : Parallel f firm paired) {kind : Kind} (found : stream.current.kind = kind)
    (different : kind ≠ .semicolon) : firm stream :=
  rules.firm_of (found.trans_ne different)

theorem kind_eq {token : Token α} {token' : Token β} (same : token' = token.mapMark f) :
    token'.kind = token.kind := by
  rw [same, Token.kind_mapMark]

/-- Where two streams stand on the same token up to its mark, they stand on the same name. -/
theorem name_eq (same : other.current = stream.current.mapMark f) :
    name other = (name stream).mapTokens (Token.mapMark f) := by
  rw [name, name, same]
  rfl

/-- No operator is a semicolon, so wherever one is looked for the stream is firm. -/
theorem ne_semicolon_of_tighter {precedence : Precedence} {kind : Kind}
    (tighter : precedence < .ofKind kind) : kind ≠ .semicolon := by
  rintro rfl
  exact Nat.not_lt_zero _ tighter

theorem parameterList (rules : Parallel f firm paired) (steady : firm stream)
    (other : TokenStream β) : paired .part (List.map (Name.mapTokens (Token.mapMark f)))
      (parameterList stream) (parameterList other) := by
  induction stream using parameterList.induct generalizing other with
  | case1 stream ih =>
    rw [parameterList_eq stream, parameterList_eq other]
    refine rules.expecting steady fun isName _ => rules.current fun same => ?_
    have steady_name : firm stream.advance := rules.firm_at isName (by decide)
    rw [name_eq same]
    by_cases comma : stream.advance.peek.kind = .comma
    · rw [if_pos comma]
      refine rules.step steady_name fun same_peek => ?_
      rw [if_pos ((kind_eq same_peek).trans comma)]
      have steady_comma : firm stream.advance.advance := rules.firm_at comma (by decide)
      exact rules.moving steady_name (rules.map (fun _ => rfl) (ih isName steady_comma _))
    · rw [if_neg comma]
      refine rules.stay (· ≠ .comma) steady_name comma (by decide) fun comma' => ?_
      rw [if_neg comma']
      exact rules.expecting steady_name fun closes _ =>
        rules.give _ (rules.firm_at closes (by decide))

theorem parameters (rules : Parallel f firm paired) (steady : firm stream)
    (other : TokenStream β) : paired .part (List.map (Name.mapTokens (Token.mapMark f)))
      (parameters stream) (parameters other) := by
  rw [Parse.parameters, Parse.parameters]
  by_cases none : stream.peek.kind = .rightParen
  · rw [if_pos none]
    refine rules.step steady fun same_peek => ?_
    rw [if_pos ((kind_eq same_peek).trans none)]
    exact rules.moving steady (rules.give _ (rules.firm_at none (by decide)))
  · rw [if_neg none]
    refine rules.stay (· ≠ .rightParen) steady none (by decide) fun none' => ?_
    rw [if_neg none']
    exact rules.parameterList steady other

/-- Every call on the first stream is paired with the same call on the second one. -/
def calls (f : α → β) (firm : TokenStream α → Prop) (paired : Pairing α β) : Calls α where
  expression precedence stream := ∀ other, paired .part (Expression.mapTokens (Token.mapMark f))
    (expression precedence stream) (expression precedence other)
  operand stream := ∀ other, paired .part (Expression.mapTokens (Token.mapMark f))
    (operand stream) (operand other)
  operators precedence left stream := firm stream → ∀ other,
    paired .part (Expression.mapTokens (Token.mapMark f)) (operators precedence left stream)
      (operators precedence (left.mapTokens (Token.mapMark f)) other)
  arguments stream := firm stream → ∀ other,
    paired .part (mapArguments (Token.mapMark f)) (arguments stream) (arguments other)
  argumentList stream := firm stream → ∀ other,
    paired .part (mapArguments (Token.mapMark f)) (argumentList stream) (argumentList other)
  conditional stream := firm stream → ∀ other,
    paired .part (Expression.mapTokens (Token.mapMark f)) (conditional stream) (conditional other)
  alternative stream := firm stream → ∀ other,
    paired .part (Option.map (Block.mapTokens (Token.mapMark f))) (alternative stream)
      (alternative other)
  function stream := firm stream → ∀ other,
    paired .part (Expression.mapTokens (Token.mapMark f)) (function stream) (function other)
  block stream := stream.current.kind = .leftBrace → ∀ other,
    paired .part (Block.mapTokens (Token.mapMark f)) (block stream) (block other)
  blockStatements stream := ∀ other, paired .part (mapStatements (Token.mapMark f))
    (blockStatements stream) (blockStatements other)
  statement stream := ∀ other, paired .statement (Statement.mapTokens (Token.mapMark f))
    (statement stream) (statement other)

/-- If all that a function calls does alike on both streams, so does the function. -/
theorem calls_inductive (rules : Parallel f firm paired) : (calls f firm paired).Inductive where
  expression precedence stream operand_paired operators_paired := by
    intro other
    refine rules.current fun same => ?_
    rw [expression_eq, expression_eq, same]
    refine rules.noting rfl (rules.andThen (operand_paired other) ?_)
    intro left rest shorter rest' _ steady
    exact operators_paired left rest shorter steady rest'
  operand_identifier stream found := by
    intro other
    refine rules.current fun same => ?_
    rw [operand_identifier found, operand_identifier ((kind_eq same).trans found), name_eq same]
    exact rules.give _ (rules.firm_at found (by decide))
  operand_integer stream value found fits := by
    intro other
    refine rules.current fun same => ?_
    have fits' : Decimal.word? other.current.literal.toList = some value := by rwa [same]
    rw [operand_integer found fits, operand_integer ((kind_eq same).trans found) fits', same]
    exact rules.give _ (rules.firm_at found (by decide))
  operand_tooLarge stream found large := by
    intro other
    refine rules.current fun same => ?_
    have large' : Decimal.word? other.current.literal.toList = none := by rwa [same]
    rw [operand_tooLarge found large, operand_tooLarge ((kind_eq same).trans found) large', same]
    exact rules.refuse _
  operand_truth stream found := by
    intro other
    refine rules.current fun same => ?_
    rw [operand_truth found, operand_truth ((kind_eq same).trans found), same]
    exact rules.give _ (rules.firm_at found (by decide))
  operand_falsehood stream found := by
    intro other
    refine rules.current fun same => ?_
    rw [operand_falsehood found, operand_falsehood ((kind_eq same).trans found), same]
    exact rules.give _ (rules.firm_at found (by decide))
  operand_negation stream found operand_paired := by
    intro other
    refine rules.current fun same => ?_
    have steady : firm stream := by
      rcases found with found | found <;> exact rules.firm_at found (by decide)
    rw [operand_negation found, operand_negation (kind_eq same ▸ found), same]
    exact rules.moving steady (rules.map (fun _ => rfl) (operand_paired _))
  operand_group stream found inner_paired := by
    intro other
    refine rules.current fun same => ?_
    rw [operand_group found, operand_group ((kind_eq same).trans found)]
    refine rules.moving (rules.firm_at found (by decide)) (rules.andThen (inner_paired _) ?_)
    intro inner rest _ rest' _ steady
    exact rules.expecting steady fun closes _ => rules.give _ (rules.firm_at closes (by decide))
  operand_conditional stream found conditional_paired := by
    intro other
    refine rules.current fun same => ?_
    rw [operand_conditional found, operand_conditional ((kind_eq same).trans found)]
    exact conditional_paired (rules.firm_at found (by decide)) other
  operand_function stream found function_paired := by
    intro other
    refine rules.current fun same => ?_
    rw [operand_function found, operand_function ((kind_eq same).trans found)]
    exact function_paired (rules.firm_at found (by decide)) other
  operand_refused stream found := by
    intro other
    refine rules.current fun same => ?_
    rw [operand_refused found, operand_refused (kind_eq same ▸ found), same]
    exact rules.refuse _
  operators_call precedence left stream tighter found arguments_paired operators_paired := by
    intro steady other
    rw [operators_call tighter found]
    refine rules.step steady fun same => ?_
    rw [operators_call (kind_eq same ▸ tighter) (kind_eq same ▸ found), same]
    have steady_paren : firm stream.advance := rules.firm_at found (by decide)
    refine rules.moving steady (rules.andThen (arguments_paired steady_paren _) ?_)
    intro trees rest shorter rest' _ steady_rest
    exact operators_paired trees rest shorter steady_rest rest'
  operators_operation precedence left stream tighter found right_paired operators_paired := by
    intro steady other
    rw [operators_operation tighter found]
    refine rules.step steady fun same => ?_
    rw [operators_operation (kind_eq same ▸ tighter) (kind_eq same ▸ found), same]
    have steady_operator : firm stream.advance := rules.firm_of (ne_semicolon_of_tighter tighter)
    refine rules.moving steady
      (rules.moving steady_operator (rules.andThen (right_paired _) ?_))
    intro right rest shorter rest' _ steady_rest
    exact operators_paired right rest shorter steady_rest rest'
  operators_done precedence left stream looser := by
    intro steady other
    -- The second stream may have a semicolon here, and that holds no operand either.
    refine rules.stay (fun kind => ¬ precedence < .ofKind kind) steady looser (Nat.not_lt_zero _)
      fun looser' => ?_
    rw [operators_done looser, operators_done looser']
    exact rules.give left steady
  arguments_none stream found := by
    intro steady other
    rw [arguments_none found]
    refine rules.step steady fun same => ?_
    rw [arguments_none ((kind_eq same).trans found)]
    exact rules.moving steady (rules.give _ (rules.firm_at found (by decide)))
  arguments_some stream found list_paired := by
    intro steady other
    refine rules.stay (· ≠ .rightParen) steady found (by decide) fun found' => ?_
    rw [arguments_some found, arguments_some found']
    exact list_paired steady other
  argumentList stream argument_paired list_paired := by
    intro steady other
    rw [argumentList_eq, argumentList_eq]
    refine rules.moving steady (rules.andThen (argument_paired _) ?_)
    intro argument rest shorter rest' _ steady_rest
    by_cases comma : rest.peek.kind = .comma
    · rw [if_pos comma]
      refine rules.step steady_rest fun same => ?_
      rw [if_pos ((kind_eq same).trans comma)]
      have steady_comma : firm rest.advance := rules.firm_at comma (by decide)
      exact rules.moving steady_rest
        (rules.map (fun _ => rfl) (list_paired rest shorter comma steady_comma _))
    · rw [if_neg comma]
      refine rules.stay (· ≠ .comma) steady_rest comma (by decide) fun comma' => ?_
      rw [if_neg comma']
      exact rules.expecting steady_rest fun closes _ =>
        rules.give _ (rules.firm_at closes (by decide))
  conditional stream condition_paired block_paired alternative_paired := by
    intro steady other
    refine rules.current fun same => ?_
    rw [conditional_eq, conditional_eq, same]
    refine rules.expecting steady fun opens _ =>
      rules.moving (rules.firm_at opens (by decide)) (rules.andThen (condition_paired opens _) ?_)
    intro condition rest shorter rest' _ steady_rest
    refine rules.expecting steady_rest fun closes _ =>
      rules.expecting (rules.firm_at closes (by decide)) fun isBrace _ =>
        rules.andThen (block_paired opens rest shorter isBrace _) ?_
    intro consequence last shorter_last last' _ steady_last
    refine rules.map (fun replacement => ?_)
      (alternative_paired opens rest shorter last shorter_last steady_last last')
    exact (Expression.mapTokens_conditional _ _ condition consequence replacement).symm
  alternative_some stream found block_paired := by
    intro steady other
    rw [alternative_some found]
    refine rules.step steady fun same => ?_
    rw [alternative_some ((kind_eq same).trans found)]
    have steady_else : firm stream.advance := rules.firm_at found (by decide)
    exact rules.moving steady (rules.expecting steady_else fun isBrace _ =>
      rules.map (fun _ => rfl) (block_paired isBrace _))
  alternative_none stream found := by
    intro steady other
    refine rules.stay (· ≠ .elseWord) steady found (by decide) fun found' => ?_
    rw [alternative_none found, alternative_none found']
    exact rules.give _ steady
  function stream block_paired := by
    intro steady other
    refine rules.current fun same => ?_
    rw [function_eq, function_eq, same]
    refine rules.expecting steady fun opens _ =>
      rules.andThen (rules.parameters (rules.firm_at opens (by decide)) _) ?_
    intro names rest shorter rest' _ steady_rest
    exact rules.expecting steady_rest fun isBrace _ =>
      rules.map (fun _ => rfl) (block_paired opens rest shorter isBrace _)
  block stream statements_paired := by
    intro isBrace other
    refine rules.current fun same => ?_
    rw [block_eq, block_eq, same]
    exact rules.noting rfl (rules.moving (rules.firm_at isBrace (by decide))
      (rules.map (fun _ => rfl) (statements_paired _)))
  blockStatements_done stream found := by
    intro other
    refine rules.current fun same => ?_
    have steady : firm stream := by
      rcases found with found | found <;> exact rules.firm_at found (by decide)
    rw [blockStatements_done found, blockStatements_done (kind_eq same ▸ found), same]
    exact rules.noting rfl (rules.give _ steady)
  blockStatements_more stream found statement_paired statements_paired := by
    intro other
    refine rules.current fun same => ?_
    rw [blockStatements_more found, blockStatements_more (kind_eq same ▸ found)]
    exact rules.more (statement_paired other) fun rest rest' shorter =>
      statements_paired rest shorter _
  statement_binding stream found value_paired := by
    intro other
    refine rules.current fun same => ?_
    rw [statement_binding found, statement_binding ((kind_eq same).trans found), same]
    refine rules.expecting (rules.firm_at found (by decide)) fun isName _ =>
      rules.current fun same_name => ?_
    rw [name_eq same_name]
    refine rules.expecting (rules.firm_at isName (by decide)) fun isAssign _ =>
      rules.moving (rules.firm_at isAssign (by decide)) (rules.andThen (value_paired _) ?_)
    intro value rest _ rest' _ steady
    exact rules.ending _ steady
  statement_bareReturn stream found bare := by
    intro other
    have steady : firm stream := rules.firm_at found (by decide)
    refine rules.current fun same =>
      rules.stay (· ∈ bareKinds) steady bare (by decide) fun bare' => ?_
    rw [statement_bareReturn found bare,
      statement_bareReturn ((kind_eq same).trans found) bare', same]
    exact rules.ending _ steady
  statement_returning stream found valued value_paired := by
    intro other
    have steady : firm stream := rules.firm_at found (by decide)
    rw [statement_returning found valued]
    refine rules.current fun same => rules.step steady fun same_peek => ?_
    rw [statement_returning ((kind_eq same).trans found) (kind_eq same_peek ▸ valued), same]
    refine rules.moving steady (rules.andThen (value_paired _) ?_)
    intro value rest _ rest' _ steady_rest
    exact rules.ending _ steady_rest
  statement_expression stream notLet notReturn value_paired := by
    intro other
    refine rules.current fun same => ?_
    rw [statement_expression notLet notReturn,
      statement_expression (kind_eq same ▸ notLet) (kind_eq same ▸ notReturn), same]
    refine rules.andThen (value_paired other) ?_
    intro value rest _ rest' _ steady
    exact rules.ending _ steady

/-- What the operations keep compares the first statements of two streams. -/
theorem statement (rules : Parallel f firm paired) (stream : TokenStream α)
    (other : TokenStream β) : paired .statement (Statement.mapTokens (Token.mapMark f))
      (statement stream) (statement other) :=
  rules.calls_inductive.hold.statement stream other

/-- What the operations keep compares the statements of two blocks. -/
theorem blockStatements (rules : Parallel f firm paired) (stream : TokenStream α)
    (other : TokenStream β) : paired .part (mapStatements (Token.mapMark f))
      (blockStatements stream) (blockStatements other) :=
  rules.calls_inductive.hold.blockStatements stream other

/-- What the operations keep compares the statements of two texts. -/
theorem statements (rules : Parallel f firm paired)
    (more : paired.More f Parse.statements Parse.statements) (stream : TokenStream α)
    (other : TokenStream β) :
    paired .part (mapStatements (Token.mapMark f)) (statements stream) (statements other) := by
  induction stream using statements.induct generalizing other with
  | case1 stream found =>
    refine rules.current fun same => ?_
    rw [statements_done found, statements_done ((kind_eq same).trans found)]
    exact rules.give [] (rules.firm_at found (by decide))
  | case2 stream found ih =>
    refine rules.current fun same => ?_
    rw [statements_more found, statements_more (kind_eq same ▸ found)]
    exact more (rules.statement stream other) fun rest rest' shorter => ih rest shorter _

end Parallel

end Scriptlet
