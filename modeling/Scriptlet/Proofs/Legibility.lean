import Scriptlet.Proofs.Reader
import Scriptlet.Proofs.Spelling

/-!
# Legibility

The canonical text of a tree tells the tree, also where the grammar cannot write it. A number may be
negative there and a statement may be a block; only names have to be names and operators have to be
operators. A reader that is given the words of such a text has the tree in the end, in whatever
frames it stands and whatever comes next. So no two trees have one text.
-/

namespace Scriptlet

open Reader

variable {τ υ : Type}

/-- The name in the node is a name, and the operator in it is an operator. -/
def Node.Legible : Node τ → Prop
  | .name word => IsName word.text
  | .expression (.identifier word) => IsName word.text
  | .expression (.prefixed _ operator _) => operator ∈ prefixOperators
  | .expression (.infixed _ operator _ _) => operator ∈ infixOperators
  | _ => True

instance : DecidablePred (Node.Legible : Node τ → Prop)
  | .name word => inferInstanceAs (Decidable (IsName word.text))
  | .expression (.identifier word) => inferInstanceAs (Decidable (IsName word.text))
  | .expression (.prefixed _ operator _) =>
    inferInstanceAs (Decidable (operator ∈ prefixOperators))
  | .expression (.infixed _ operator _ _) =>
    inferInstanceAs (Decidable (operator ∈ infixOperators))
  | .expression (.integerLiteral ..) => .isTrue trivial
  | .expression (.booleanLiteral ..) => .isTrue trivial
  | .expression (.conditional ..) => .isTrue trivial
  | .expression (.function ..) => .isTrue trivial
  | .expression (.call ..) => .isTrue trivial
  | .statement (.binding ..) => .isTrue trivial
  | .statement (.returning ..) => .isTrue trivial
  | .statement (.expression ..) => .isTrue trivial
  | .statement (.block _) => .isTrue trivial
  | .block _ => .isTrue trivial

/-! ## Expressions -/

/-- The canonical text of the expression is read as the expression. -/
def Expression.Restored (tree : Expression τ) : Prop :=
  ∀ frames tail, Apart tail → run ⟨.anew, frames⟩ (words (tree.render.toList ++ tail)) =
    run (after (tree.mapTokens fun _ => ()) frames) (words tail)

/-- The canonical text of the block is read as its statements. -/
def Block.Restored (tree : Block τ) : Prop :=
  ∀ outer tail, run ⟨.brace, outer⟩ (words (tree.render.toList ++ tail)) =
    (close (mapStatements (fun _ => ()) tree.statements) outer).bind (run · (words tail))

theorem chars_commaEach (text : String) (texts : List String) (rest : List Char) :
    (commaEach (text :: texts)).toList ++ rest =
      ',' :: ' ' :: (text.toList ++ ((commaEach texts).toList ++ rest)) := by
  simp [commaEach]

theorem chars_commaSeparated (text : String) (texts : List String) (rest : List Char) :
    (commaSeparated (text :: texts)).toList ++ rest =
      text.toList ++ ((commaEach texts).toList ++ rest) := by
  simp [commaSeparated]

theorem apart_commaEach (texts : List String) (rest : List Char) :
    Apart ((commaEach texts).toList ++ ')' :: rest) := by
  cases texts with
  | nil => exact apart_cons rfl rfl
  | cons text texts =>
    rw [chars_commaEach]
    exact apart_cons rfl rfl

namespace Expression

theorem restored_identifier {name : Name τ} (isName : IsName name.text) :
    (identifier name).Restored := by
  intro frames tail apart
  rw [after_of_isNegative_false rfl, render, words_name isName apart]
  rfl

theorem restored_booleanLiteral {token : τ} {value : Bool} :
    (booleanLiteral token value).Restored := by
  intro frames tail apart
  rw [after_of_isNegative_false rfl]
  cases value with
  | true =>
    rw [render, words_keyword (by decide) apart]
    rfl
  | false =>
    rw [render, words_keyword (by decide) apart]
    rfl

/-- A number is read whatever its sign is; a negative one is two words. -/
theorem restored_integerLiteral {token : τ} {value : Int64} :
    (integerLiteral token value).Restored := by
  intro frames tail apart
  cases same : value.toInt with
  | ofNat n =>
    have value_eq : Int64.ofNat n = value := by
      rw [← Int64.ofInt_toInt value, same]
      rfl
    have text : (integerLiteral token value).render = Decimal.natural n := by
      rw [render, same]
      rfl
    have unsigned : ((integerLiteral token value).mapTokens fun _ => ()).isNegative = false := by
      simp [mapTokens, isNegative, same]
    rw [text, words_natural n apart, after_of_isNegative_false unsigned, mapTokens, ← value_eq,
      ← number_natural]
    rfl
  | negSucc n =>
    have value_eq : -Int64.ofNat (n + 1) = value := by
      rw [← Int64.ofInt_toInt value, same, Int.negSucc_eq, Int64.ofInt_neg]
      rfl
    have text : (integerLiteral token value).render.toList ++ tail =
        '-' :: ((Decimal.natural (n + 1)).toList ++ tail) := by
      rw [render, same]
      simp [Decimal.integer]
    have signed : ((integerLiteral token value).mapTokens fun _ => ()).isNegative = true := by
      simp [mapTokens, isNegative, same]
    rw [text, words_symbol _ (by decide), words_natural (n + 1) apart, mapTokens, ← value_eq,
      ← number_natural]
    rw [mapTokens, ← value_eq, ← number_natural] at signed
    -- Only behind a parenthesis does the reader take the sign for something else.
    cases frames with
    | nil => rfl
    | cons frame outer =>
      cases frame with
      | group =>
        rw [after, if_pos signed, negate, Int64.neg_neg]
        rfl
      | _ => rfl

/-- The text of an expression does not make another operator of a sign before it. -/
theorem Restored.head_ne {tree : Expression τ} (restored : tree.Restored) (tail : List Char) :
    (tree.render.toList ++ tail).head? ≠ some '=' := by
  have whole := restored [] [] apart_nil
  rw [List.append_nil, words_nil, run] at whole
  obtain ⟨first, more, begun, notAssign, notEqual⟩ := exists_first_of_run whole (by simp [after])
  have differs := head_ne_of_words begun notAssign notEqual
  cases chars : tree.render.toList with
  | nil =>
    rw [chars, words_nil] at begun
    cases begun
  | cons c rest => simpa [chars] using differs

/-- A sign right after a parenthesis is an operator, and its operand ends at the closing one. -/
theorem restored_prefixed {token : τ} {operator : String} {operand : Expression τ}
    (known : operator ∈ prefixOperators) (restored : operand.Restored) :
    (prefixed token operator operand).Restored := by
  intro frames tail apart
  obtain ⟨kind, isSign, word⟩ := exists_words_prefix known (restored.head_ne (')' :: tail))
  have opens : run ⟨.anew, frames⟩ (symbolToken '(' :: ⟨kind, operator, ()⟩ ::
      words (operand.render.toList ++ ')' :: tail)) =
        run ⟨.anew, .prefixed operator :: frames⟩
          (words (operand.render.toList ++ ')' :: tail)) := by
    rcases isSign with rfl | rfl <;> rfl
  rw [after_of_isNegative_false rfl, chars_prefixed, words_symbol _ (by decide), word, opens,
    restored _ _ (apart_cons rfl rfl), words_symbol _ (by decide)]
  rfl

/-- The left operand waits in a frame until the right one has come. -/
theorem restored_infixed {token : τ} {operator : String} {left right : Expression τ}
    (known : operator ∈ infixOperators) (left_restored : left.Restored)
    (right_restored : right.Restored) : (infixed token operator left right).Restored := by
  intro frames tail apart
  obtain ⟨kind, layer, _, -, joins, word⟩ := exists_words_infix known
  have opens (rest : List Char) : run ⟨.anew, frames⟩ (symbolToken '(' :: words rest) =
      run ⟨.anew, .group :: frames⟩ (words rest) := rfl
  rw [after_of_isNegative_false rfl, chars_infixed, words_symbol _ (by decide), opens,
    left_restored _ _ (apart_cons rfl rfl), words_blank _ rfl, word, run, step_operator joins,
    Option.bind_some, words_blank _ rfl, right_restored _ _ (apart_cons rfl rfl),
    words_symbol _ (by decide)]
  rfl

/-- The argument of a call is followed by others, each after a comma. -/
theorem run_arguments {trees : List (Expression τ)} (restored : ∀ tree ∈ trees, tree.Restored)
    (first callee : Expression Unit) (earlier : List (Expression Unit)) (outer : List Frame)
    (rest : List Char) :
    run ⟨.tree first, .call callee earlier :: outer⟩
        (words ((commaEach (renderEach trees)).toList ++ ')' :: rest)) =
      run ⟨.tree (.call () callee (earlier ++ first :: mapArguments (fun _ => ()) trees)), outer⟩
        (words rest) := by
  induction trees generalizing first earlier with
  | nil => exact congrArg (run _) (words_symbol (c := ')') rest (by decide))
  | cons tree trees ih =>
    have takes (tokens : List (Token Unit)) : run ⟨.tree first, .call callee earlier :: outer⟩
        (symbolToken ',' :: tokens) =
          run ⟨.anew, .call callee (earlier ++ [first]) :: outer⟩ tokens := rfl
    rw [renderEach, chars_commaEach, words_symbol _ (by decide), words_blank _ rfl, takes,
      restored tree List.mem_cons_self _ _ (apart_commaEach _ _)]
    refine (ih (fun other member => restored other (List.mem_cons_of_mem _ member))
      (tree.mapTokens fun _ => ()) (earlier ++ [first])).trans ?_
    rw [List.append_assoc]
    rfl

/-- The parenthesis stands right behind the callee, which waits in a frame for its arguments. -/
theorem restored_call {token : τ} {callee : Expression τ} {arguments : List (Expression τ)}
    (callee_restored : callee.Restored)
    (arguments_restored : ∀ argument ∈ arguments, argument.Restored) :
    (call token callee arguments).Restored := by
  intro frames tail apart
  obtain ⟨other, outer, taken, called⟩ :=
    exists_after_call (callee.mapTokens fun _ => ()) frames
  have opens (rest : List Char) : run ⟨.tree other, outer⟩ (symbolToken '(' :: words rest) =
      run ⟨.anew, .call other [] :: outer⟩ (words rest) := rfl
  rw [chars_call, callee_restored _ _ (apart_cons rfl rfl), taken, words_symbol _ (by decide), opens,
    mapTokens, called]
  cases arguments with
  | nil => exact congrArg (run _) (words_symbol (c := ')') tail (by decide))
  | cons argument arguments =>
    rw [renderEach, chars_commaSeparated,
      arguments_restored argument List.mem_cons_self _ _ (apart_commaEach _ _)]
    exact run_arguments (fun other member => arguments_restored other
      (List.mem_cons_of_mem _ member)) (argument.mapTokens fun _ => ()) other [] outer tail

/-- A condition is read up to its parenthesis, with the blank behind it. -/
theorem run_condition {condition : Expression τ} (restored : condition.Restored)
    (frames : List Frame) (rest : List Char) :
    run ⟨.anew, frames⟩ (words ("if".toList ++ ' ' :: '(' ::
        (condition.render.toList ++ ')' :: ' ' :: rest))) =
      run ⟨.brace, .consequence (condition.mapTokens fun _ => ()) :: frames⟩ (words rest) := by
  have opens (rest : List Char) :
      run ⟨.anew, frames⟩ (wordToken "if" :: symbolToken '(' :: words rest) =
        run ⟨.anew, .condition :: frames⟩ (words rest) := rfl
  rw [words_if, opens, restored _ _ (apart_cons rfl rfl), words_symbol _ (by decide),
    words_blank _ rfl]
  rfl

theorem restored_conditional_none {token : τ} {condition : Expression τ} {consequence : Block τ}
    (condition_restored : condition.Restored) (consequence_restored : consequence.Restored) :
    (conditional token condition consequence none).Restored := by
  intro frames tail apart
  rw [after_of_isNegative_false rfl, chars_conditional_none, run_condition condition_restored,
    consequence_restored]
  cases consequence
  rfl

theorem restored_conditional_some {token : τ} {condition : Expression τ}
    {consequence alternative : Block τ} (condition_restored : condition.Restored)
    (consequence_restored : consequence.Restored) (alternative_restored : alternative.Restored) :
    (conditional token condition consequence (some alternative)).Restored := by
  intro frames tail apart
  have goes_on (rest : List Char) : (close (mapStatements (fun _ => ()) consequence.statements)
      (.consequence (condition.mapTokens fun _ => ()) :: frames)).bind
        (run · (wordToken "else" :: words rest)) =
      run ⟨.brace, .alternative (condition.mapTokens fun _ => ())
        (consequence.mapTokens fun _ => ()) :: frames⟩ (words rest) := by
    cases consequence
    rfl
  rw [after_of_isNegative_false rfl, chars_conditional_some, run_condition condition_restored,
    consequence_restored, words_else, goes_on, alternative_restored]
  cases alternative
  rfl

/-- The names of a function behind the first one, each after a comma, are more parameters. -/
theorem run_names {names : List (Name τ)} (known : ∀ name ∈ names, IsName name.text)
    (earlier : List (Name Unit)) (outer : List Frame) (rest : List Char) :
    run ⟨.parameters earlier, outer⟩
        (words ((commaEach (names.map Name.text)).toList ++ ')' :: rest)) =
      run ⟨.brace, .function (earlier ++ names.map (Name.mapTokens fun _ => ())) :: outer⟩
        (words rest) := by
  induction names generalizing earlier with
  | nil =>
    rw [List.map_nil, List.map_nil, List.append_nil]
    exact congrArg (run _) (words_symbol (c := ')') rest (by decide))
  | cons name names ih =>
    have isName := known name List.mem_cons_self
    have takes (tokens : List (Token Unit)) : run ⟨.parameters earlier, outer⟩
        (symbolToken ',' :: ⟨.identifier, name.text, ()⟩ :: tokens) =
          run ⟨.parameters (earlier ++ [name.mapTokens fun _ => ()]), outer⟩ tokens := rfl
    rw [List.map_cons, chars_commaEach, words_symbol _ (by decide), words_blank _ rfl,
      words_name isName (apart_commaEach _ _), takes,
      ih fun other member => known other (List.mem_cons_of_mem _ member)]
    simp

theorem restored_function {token : τ} {names : List (Name τ)} {body : Block τ}
    (known : ∀ name ∈ names, IsName name.text) (restored : body.Restored) :
    (function token names body).Restored := by
  intro frames tail apart
  have opens (rest : List Char) : run ⟨.anew, frames⟩ (wordToken "fn" :: symbolToken '(' ::
      words rest) = run ⟨.parameters [], frames⟩ (words rest) := rfl
  have listed (rest : List Char) : run ⟨.parameters [], frames⟩
      (words ((commaSeparated (names.map Name.text)).toList ++ ')' :: rest)) =
        run ⟨.brace, .function (names.map (Name.mapTokens fun _ => ())) :: frames⟩
          (words rest) := by
    cases names with
    | nil => exact run_names known [] frames rest
    | cons name names =>
      have isName := known name List.mem_cons_self
      rw [List.map_cons, chars_commaSeparated, words_name isName (apart_commaEach _ _)]
      exact run_names (fun other member => known other (List.mem_cons_of_mem _ member))
        [name.mapTokens fun _ => ()] frames rest
  rw [after_of_isNegative_false rfl, chars_function, words_keyword (by decide) (apart_cons rfl rfl),
    words_symbol _ (by decide), opens, listed, words_blank _ rfl, restored]
  cases body
  rfl

end Expression

/-! ## Statements -/

/-- The canonical text of the statement is read as the statement, before others and as the last
one. -/
structure Statement.Restored (tree : Statement τ) : Prop where
  followed (earlier : List (Statement Unit)) (outer : List Frame) (tail : List Char) :
    run ⟨.anew, .statements earlier :: outer⟩
        (words ((tree.render ++ tree.separator false).toList ++ tail)) =
      run ⟨.anew, .statements (earlier ++ [tree.mapTokens fun _ => ()]) :: outer⟩ (words tail)
  last (earlier : List (Statement Unit)) (outer : List Frame) : ∃ reader : Reader,
    reader.read? = some (earlier ++ [tree.mapTokens fun _ => ()], outer) ∧
    ∀ tail, Apart tail → run ⟨.anew, .statements earlier :: outer⟩
        (words ((tree.render ++ tree.separator true).toList ++ tail)) =
      run reader (words tail)

/-- The canonical texts of statements are read as the statements. -/
theorem exists_reader_of_restored {trees : List (Statement τ)}
    (restored : ∀ tree ∈ trees, tree.Restored) (earlier : List (Statement Unit))
    (outer : List Frame) : ∃ reader : Reader,
      reader.read? = some (earlier ++ mapStatements (fun _ => ()) trees, outer) ∧
      ∀ tail, Apart tail → run ⟨.anew, .statements earlier :: outer⟩
          (words ((renderStatements trees).toList ++ tail)) =
        run reader (words tail) := by
  induction trees generalizing earlier with
  | nil =>
    refine ⟨⟨.anew, .statements earlier :: outer⟩, ?_, fun tail _ => rfl⟩
    rw [mapStatements, List.append_nil]
    rfl
  | cons tree trees ih =>
    have first := restored tree List.mem_cons_self
    cases trees with
    | nil =>
      obtain ⟨reader, read, runs⟩ := first.last earlier outer
      refine ⟨reader, read, fun tail apart => ?_⟩
      rw [← runs tail apart]
      simp [renderStatements]
    | cons second trees =>
      obtain ⟨reader, read, runs⟩ := ih
        (fun other member => restored other (List.mem_cons_of_mem _ member))
        (earlier ++ [tree.mapTokens fun _ => ()])
      refine ⟨reader, by rw [read, List.append_assoc]; rfl, fun tail apart => ?_⟩
      rw [← runs tail apart, ← first.followed]
      simp [renderStatements]

/-- The statements between the braces are read in a frame of their own. -/
theorem Block.restored_mk {token : τ} {trees : List (Statement τ)}
    (restored : ∀ tree ∈ trees, tree.Restored) : (Block.mk token trees).Restored := by
  intro outer tail
  obtain ⟨reader, read, runs⟩ := exists_reader_of_restored restored [] outer
  have opens (rest : List Char) : run ⟨.brace, outer⟩ (symbolToken '\x7b' :: words rest) =
      run ⟨.anew, .statements [] :: outer⟩ (words rest) := rfl
  rw [chars_mk, words_symbol _ (by decide), opens, runs _ (apart_cons rfl rfl),
    words_symbol _ (by decide), run, step_rightBrace read]
  rfl

namespace Statement

/-- A statement that nothing separates from the next one is the same in either place. -/
theorem Restored.of_followed {tree : Statement τ} (joined : ∀ last, tree.separator last = "")
    (followed : ∀ earlier outer tail, run ⟨.anew, .statements earlier :: outer⟩
        (words (tree.render.toList ++ tail)) =
      run ⟨.anew, .statements (earlier ++ [tree.mapTokens fun _ => ()]) :: outer⟩ (words tail)) :
    tree.Restored where
  followed earlier outer tail := by
    rw [joined, String.append_empty]
    exact followed earlier outer tail
  last earlier outer := by
    refine ⟨⟨.anew, .statements (earlier ++ [tree.mapTokens fun _ => ()]) :: outer⟩, rfl,
      fun tail _ => ?_⟩
    rw [joined, String.append_empty]
    exact followed earlier outer tail

theorem restored_binding {token : τ} {name : Name τ} {value : Expression τ}
    (isName : IsName name.text) (restored : value.Restored) :
    (binding token name value).Restored := by
  refine .of_followed (separator_of_kind_ne (by simp [kind])) fun earlier outer tail => ?_
  have opens (rest : List Char) : run ⟨.anew, .statements earlier :: outer⟩
      (wordToken "let" :: ⟨.identifier, name.text, ()⟩ :: symbolToken '=' :: words rest) =
        run ⟨.anew, .binding name.text :: .statements earlier :: outer⟩ (words rest) := rfl
  rw [chars_binding, words_keyword (by decide) (apart_cons rfl rfl), words_blank _ rfl,
    words_name isName (apart_cons rfl rfl), words_blank _ rfl, words_sign (by decide) (by simp),
    words_blank _ rfl, opens, restored _ _ (apart_cons rfl rfl), words_symbol _ (by decide)]
  rfl

theorem restored_returning_none {token : τ} : (returning token none).Restored := by
  refine .of_followed (separator_of_kind_ne (by simp [kind])) fun earlier outer tail => ?_
  rw [chars_returning_none, words_keyword (by decide) (apart_cons rfl rfl), words_symbol _ (by decide)]
  rfl

theorem restored_returning_some {token : τ} {value : Expression τ} (restored : value.Restored) :
    (returning token (some value)).Restored := by
  refine .of_followed (separator_of_kind_ne (by simp [kind])) fun earlier outer tail => ?_
  have opens (rest : List Char) : run ⟨.anew, .statements earlier :: outer⟩
      (wordToken "return" :: words rest) =
        run ⟨.anew, .returning :: .statements earlier :: outer⟩ (words rest) := rfl
  rw [chars_returning_some, words_keyword (by decide) (apart_cons rfl rfl), words_blank _ rfl, opens,
    restored _ _ (apart_cons rfl rfl), words_symbol _ (by decide)]
  rfl

/-- An expression statement that others follow ends with its semicolon; the last one ends with what
is around it. -/
theorem restored_expression {token : τ} {value : Expression τ} (restored : value.Restored) :
    (expression token value).Restored where
  followed earlier outer tail := by
    have text : ((expression token value).render ++
        (expression token value).separator false).toList ++ tail =
          value.render.toList ++ ';' :: tail := by
      simp [render, separator, kind]
    rw [text, restored _ _ (apart_cons rfl rfl), words_symbol _ (by decide)]
    rfl
  last earlier outer := by
    refine ⟨⟨.tree (value.mapTokens fun _ => ()), .statements earlier :: outer⟩, rfl,
      fun tail apart => ?_⟩
    have text : ((expression token value).render ++
        (expression token value).separator true).toList ++ tail = value.render.toList ++ tail := by
      simp [render, separator]
    rw [text, restored _ _ apart]
    rfl

theorem restored_block {body : Block τ} (restored : body.Restored) :
    (block body).Restored := by
  refine .of_followed (separator_of_kind_ne (by simp [kind])) fun earlier outer tail => ?_
  have opens : run ⟨.anew, .statements earlier :: outer⟩ (words (body.render.toList ++ tail)) =
      run ⟨.brace, .block :: .statements earlier :: outer⟩
        (words (body.render.toList ++ tail)) := by
    obtain ⟨token, trees⟩ := body
    rw [Block.chars_mk, words_symbol _ (by decide)]
    rfl
  rw [render, opens, restored]
  cases body
  rfl

end Statement

/-! ## Every legible tree -/

mutual

/-- Every legible expression is read from its canonical text; the induction is on the tree, and each
case is one of the lemmas above. -/
theorem Expression.restored : (tree : Expression τ) → tree.Every Node.Legible → tree.Restored
  | .identifier _, known => Expression.restored_identifier known
  | .integerLiteral _ _, _ => Expression.restored_integerLiteral
  | .booleanLiteral _ _, _ => Expression.restored_booleanLiteral
  | .prefixed _ _ operand, ⟨known, below⟩ =>
    Expression.restored_prefixed known (operand.restored below)
  | .infixed _ _ left right, ⟨known, below_left, below_right⟩ =>
    Expression.restored_infixed known (left.restored below_left) (right.restored below_right)
  | .conditional _ condition body none, ⟨_, below, below_body⟩ =>
    Expression.restored_conditional_none (condition.restored below) (body.restored below_body)
  | .conditional _ condition body (some alternative), ⟨_, below, below_body, below_other⟩ =>
    Expression.restored_conditional_some (condition.restored below) (body.restored below_body)
      (alternative.restored below_other)
  | .function _ _ body, ⟨_, known, below⟩ =>
    Expression.restored_function known (body.restored below)
  | .call _ callee arguments, ⟨_, below, below_arguments⟩ =>
    Expression.restored_call (callee.restored below)
      (restored_of_everyArgument arguments below_arguments)

theorem restored_of_everyArgument : (trees : List (Expression τ)) →
    EveryArgument Node.Legible trees → ∀ tree ∈ trees, tree.Restored
  | [], _ => by simp
  | tree :: trees, ⟨below, below_trees⟩ =>
    List.forall_mem_cons.mpr
      ⟨tree.restored below, restored_of_everyArgument trees below_trees⟩

theorem Statement.restored : (tree : Statement τ) → tree.Every Node.Legible → tree.Restored
  | .binding _ _ value, ⟨_, known, below⟩ =>
    Statement.restored_binding known (value.restored below)
  | .returning _ none, _ => Statement.restored_returning_none
  | .returning _ (some value), ⟨_, below⟩ =>
    Statement.restored_returning_some (value.restored below)
  | .expression _ value, ⟨_, below⟩ => Statement.restored_expression (value.restored below)
  | .block body, ⟨_, below⟩ => Statement.restored_block (body.restored below)

theorem restored_of_everyStatement : (trees : List (Statement τ)) →
    EveryStatement Node.Legible trees → ∀ tree ∈ trees, tree.Restored
  | [], _ => by simp
  | tree :: trees, ⟨below, below_trees⟩ =>
    List.forall_mem_cons.mpr
      ⟨tree.restored below, restored_of_everyStatement trees below_trees⟩

theorem Block.restored : (tree : Block τ) → tree.Every Node.Legible → tree.Restored
  | .mk _ statements, ⟨_, below⟩ =>
    Block.restored_mk (restored_of_everyStatement statements below)

end

/-- What a reader has in the end when it is given the canonical text of the statements. -/
theorem exists_reader_of_every {trees : List (Statement τ)}
    (legible : EveryStatement Node.Legible trees) : ∃ reader : Reader,
      reader.read? = some (mapStatements (fun _ => ()) trees, []) ∧
      run ⟨.anew, [.statements []]⟩ (words (renderStatements trees).toList) = some reader := by
  obtain ⟨reader, read, runs⟩ :=
    exists_reader_of_restored (restored_of_everyStatement trees legible) [] []
  have whole := runs [] apart_nil
  rw [List.append_nil, words_nil] at whole
  exact ⟨reader, read, whole⟩

/-- Statements with one text are the same but for their tokens: one reader is given that text and
comes to both. -/
theorem mapStatements_eq_of_render_eq {trees : List (Statement τ)} {others : List (Statement υ)}
    (legible : EveryStatement Node.Legible trees) (legible' : EveryStatement Node.Legible others)
    (same : renderStatements trees = renderStatements others) :
    mapStatements (fun _ => ()) trees = mapStatements (fun _ => ()) others := by
  obtain ⟨reader, read, runs⟩ := exists_reader_of_every legible
  obtain ⟨reader', read', runs'⟩ := exists_reader_of_every legible'
  rw [same, runs'] at runs
  obtain rfl := Option.some.inj runs
  exact (Prod.mk.inj (Option.some.inj (read.symm.trans read'))).1

/-- Legible programs have one canonical text exactly if they are equal but for their tokens, and so
have legible expressions and legible blocks. -/
theorem render_eq_iff_bare_eq :
    (∀ (program : Program τ) (other : Program υ), program.Every Node.Legible →
      other.Every Node.Legible → (program.render = other.render ↔ program.bare = other.bare)) ∧
    (∀ (tree : Expression τ) (other : Expression υ), tree.Every Node.Legible →
      other.Every Node.Legible → (tree.render = other.render ↔
        tree.mapTokens (fun _ => ()) = other.mapTokens (fun _ => ()))) ∧
    ∀ (tree : Block τ) (other : Block υ), tree.Every Node.Legible →
      other.Every Node.Legible → (tree.render = other.render ↔
        tree.mapTokens (fun _ => ()) = other.mapTokens (fun _ => ())) := by
  refine ⟨?_, ?_, ?_⟩
  · intro program other legible legible'
    constructor
    · intro same
      exact congrArg Program.mk (mapStatements_eq_of_render_eq legible legible' same)
    · intro same
      rw [← program.render_mapTokens fun _ => (), ← other.render_mapTokens fun _ => ()]
      exact congrArg Program.render same
  · intro tree other legible legible'
    constructor
    · intro same
      -- An expression is the only statement of a program that has the same text.
      have wrapped : mapStatements (fun _ => ()) [.expression tree.token tree] =
          mapStatements (fun _ => ()) [.expression other.token other] :=
        mapStatements_eq_of_render_eq ⟨⟨trivial, legible⟩, trivial⟩ ⟨⟨trivial, legible'⟩, trivial⟩
          (by simp [renderStatements, Statement.render, Statement.separator, same])
      simpa [mapStatements, Statement.mapTokens] using wrapped
    · intro same
      rw [← tree.render_mapTokens fun _ => (), ← other.render_mapTokens fun _ => (), same]
  · intro tree other legible legible'
    constructor
    · intro same
      have wrapped :
          mapStatements (fun _ => ()) [.block tree] = mapStatements (fun _ => ()) [.block other] :=
        mapStatements_eq_of_render_eq ⟨⟨trivial, legible⟩, trivial⟩ ⟨⟨trivial, legible'⟩, trivial⟩
          (by simp [renderStatements, Statement.render, Statement.separator, Statement.kind, same])
      simpa [mapStatements, Statement.mapTokens] using wrapped
    · intro same
      rw [← tree.render_mapTokens fun _ => (), ← other.render_mapTokens fun _ => (), same]

/-- A call of a negative number is not written as the negation of a call is. The tokens of the two,
and of a block among statements, make no difference. -/
theorem render_eq_iff_bare_eq_signs :
    let called : Expression Nat := .call 1 (.integerLiteral 2 (-5)) []
    let negated : Expression Nat := .prefixed 3 "-" (.call 4 (.integerLiteral 5 5) [])
    let body : Block Nat := .mk 6 [.expression 7 (.infixed 8 "-" called negated)]
    let body' : Block Unit := .mk () [.expression () (.infixed () "-"
      (.call () (.integerLiteral () (-5)) []) (.prefixed () "-" (.call () (.integerLiteral () 5) [])))]
    let program : Program Nat := ⟨[.block body, .expression 9 called]⟩
    let program' : Program Unit := ⟨[.block body', .expression () (called.mapTokens fun _ => ())]⟩
    (called.Every Node.Legible ∧ negated.Every Node.Legible ∧ called.render ≠ negated.render) ∧
    (body.Every Node.Legible ∧ body'.Every Node.Legible ∧ body.render = body'.render ∧
      body.mapTokens (fun _ => ()) = body'.mapTokens (fun _ => ())) ∧
    program.Every Node.Legible ∧ program'.Every Node.Legible ∧ program.render = program'.render ∧
      program.bare = program'.bare := by
  intro called negated body body' program program'
  have called_legible : called.Every Node.Legible := ⟨trivial, trivial, trivial⟩
  have negated_legible : negated.Every Node.Legible := ⟨by decide, trivial, trivial, trivial⟩
  have body_legible : body.Every Node.Legible :=
    ⟨trivial, ⟨trivial, by decide, called_legible, negated_legible⟩, trivial⟩
  have body'_legible : body'.Every Node.Legible :=
    ⟨trivial, ⟨trivial, by decide, ⟨trivial, trivial, trivial⟩, by decide, trivial, trivial,
      trivial⟩, trivial⟩
  have legible : program.Every Node.Legible :=
    ⟨⟨trivial, body_legible⟩, ⟨trivial, called_legible⟩, trivial⟩
  have legible' : program'.Every Node.Legible :=
    ⟨⟨trivial, body'_legible⟩, ⟨trivial, trivial, trivial, trivial⟩, trivial⟩
  have body_same : body.render = body'.render := by decide +kernel
  have program_same : program.render = program'.render := by decide +kernel
  obtain ⟨programs, -, blocks⟩ := render_eq_iff_bare_eq (τ := Nat) (υ := Unit)
  have expressions := (render_eq_iff_bare_eq (τ := Nat) (υ := Nat)).2.1
  refine ⟨⟨called_legible, negated_legible, ?_⟩, ⟨body_legible, body'_legible, body_same, ?_⟩,
    legible, legible', program_same, ?_⟩
  · intro same
    cases (expressions called negated called_legible negated_legible).mp same
  · exact (blocks body body' body_legible body'_legible).mp body_same
  · exact (programs program program' legible legible').mp program_same

end Scriptlet
