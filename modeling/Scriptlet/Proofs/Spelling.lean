import Scriptlet.Proofs.Completeness
import Scriptlet.Proofs.Nodes
import Scriptlet.Proofs.Words
import Scriptlet.Tree.Render

/-!
# Spelling

The canonical text of a tree is written by the grammar: its words derive the tree. `Writable` says
which trees have such a text. Every operation stands in parentheses there, so that the text of any
expression can be called, and every layer takes it in.

The words of a text depend on what comes after it, as does a statement at the end of a list; so the
text of a tree is looked at with any continuation that does not run into it.
-/

namespace Scriptlet

open Grammar

variable {τ : Type}

/-- The texts of the operators before an operand. -/
def prefixOperators : List String := ["!", "-"]

/-- The texts of the operators between two operands. -/
def infixOperators : List String := ["+", "-", "*", "/", "<", ">", "==", "!="]

/-- The grammar can write the node. -/
def Node.Writable : Node τ → Prop
  | .name word => IsName word.text
  | .expression (.identifier word) => IsName word.text
  | .expression (.integerLiteral _ value) => 0 ≤ value.toInt
  | .expression (.prefixed _ operator _) => operator ∈ prefixOperators
  | .expression (.infixed _ operator _ _) => operator ∈ infixOperators
  | .statement (.block _) => False
  | _ => True

instance : DecidablePred (Node.Writable : Node τ → Prop)
  | .name word => inferInstanceAs (Decidable (IsName word.text))
  | .expression (.identifier word) => inferInstanceAs (Decidable (IsName word.text))
  | .expression (.integerLiteral _ value) => inferInstanceAs (Decidable (0 ≤ value.toInt))
  | .expression (.prefixed _ operator _) =>
    inferInstanceAs (Decidable (operator ∈ prefixOperators))
  | .expression (.infixed _ operator _ _) =>
    inferInstanceAs (Decidable (operator ∈ infixOperators))
  | .expression (.booleanLiteral ..) => .isTrue trivial
  | .expression (.conditional ..) => .isTrue trivial
  | .expression (.function ..) => .isTrue trivial
  | .expression (.call ..) => .isTrue trivial
  | .statement (.binding ..) => .isTrue trivial
  | .statement (.returning ..) => .isTrue trivial
  | .statement (.expression ..) => .isTrue trivial
  | .statement (.block _) => .isFalse id
  | .block _ => .isTrue trivial

/-! ## Single words -/

theorem apart_cons {c : Char} {rest : List Char} (notLetter : isLetter c = false)
    (notDigit : c.isDigit = false) : Apart (c :: rest) := by
  intro d first
  obtain rfl : c = d := by simpa using first
  exact ⟨notLetter, notDigit⟩

theorem apart_nil : Apart [] := by
  simp [Apart]

/-- The token of an operator between two operands, and the layer that it belongs to. -/
theorem exists_words_infix {operator : String} (known : operator ∈ infixOperators) :
    ∃ kind outer next, Layer.tighter outer = some next ∧ kind ∈ outer.operators ∧
      ∀ rest, words (operator.toList ++ ' ' :: rest) =
        ⟨kind, operator, ()⟩ :: words (' ' :: rest) := by
  simp only [infixOperators, List.mem_cons, List.not_mem_nil, or_false] at known
  rcases known with rfl | rfl | rfl | rfl | rfl | rfl | rfl | rfl
  · exact ⟨.plus, .sum, .product, rfl, by decide, fun rest => words_symbol _ (by decide)⟩
  · exact ⟨.minus, .sum, .product, rfl, by decide, fun rest => words_symbol _ (by decide)⟩
  · exact ⟨.times, .product, .unary, rfl, by decide, fun rest => words_symbol _ (by decide)⟩
  · exact ⟨.divide, .product, .unary, rfl, by decide, fun rest => words_symbol _ (by decide)⟩
  · exact ⟨.less, .comparison, .sum, rfl, by decide, fun rest => words_symbol _ (by decide)⟩
  · exact ⟨.greater, .comparison, .sum, rfl, by decide, fun rest => words_symbol _ (by decide)⟩
  · exact ⟨.equal, .equality, .comparison, rfl, by decide, fun rest => words_equal _⟩
  · exact ⟨.notEqual, .equality, .comparison, rfl, by decide, fun rest => words_notEqual _⟩

/-- A text that begins with another token than `=` and `==` begins with another character. -/
theorem head_ne_of_words {chars : List Char} {token : Token Unit} {more : List (Token Unit)}
    (begun : words chars = token :: more) (notAssign : token.kind ≠ .assign)
    (notEqual : token.kind ≠ .equal) : chars.head? ≠ some '=' := by
  intro first
  cases chars with
  | nil => cases first
  | cons c rest =>
    obtain rfl : c = '=' := by simpa using first
    by_cases double : rest.head? = some '='
    · cases rest with
      | nil => cases double
      | cons d rest =>
        obtain rfl : d = '=' := by simpa using double
        rw [words_equal] at begun
        obtain ⟨rfl, -⟩ := List.cons.inj begun
        exact notEqual rfl
    · rw [words_sign (by decide) double] at begun
      obtain ⟨rfl, -⟩ := List.cons.inj begun
      exact notAssign rfl

/-- What begins an expression does not turn a sign before it into another operator. -/
theorem head_ne_of_starts {chars : List Char}
    (starts : Parse.Starts Parse.operandKinds (words chars)) : chars.head? ≠ some '=' := by
  obtain ⟨token, more, begun, member⟩ := starts
  refine head_ne_of_words begun ?_ ?_
  · intro isAssign
    exact absurd (isAssign ▸ member) (by decide)
  · intro isEqual
    exact absurd (isEqual ▸ member) (by decide)

theorem exists_words_prefix {operator : String} {rest : List Char}
    (known : operator ∈ prefixOperators) (alone : rest.head? ≠ some '=') :
    ∃ kind, (kind = .not ∨ kind = .minus) ∧
      words (operator.toList ++ rest) = ⟨kind, operator, ()⟩ :: words rest := by
  simp only [prefixOperators, List.mem_cons, List.not_mem_nil, or_false] at known
  rcases known with rfl | rfl
  · exact ⟨.not, .inl rfl, words_sign (by decide) alone⟩
  · exact ⟨.minus, .inr rfl, words_symbol _ (by decide)⟩

theorem words_name {text : String} {rest : List Char} (isName : IsName text)
    (apart : Apart rest) :
    words (text.toList ++ rest) = ⟨.identifier, text, ()⟩ :: words rest := by
  rw [words_letters isName.nonempty isName.letters apart,
    (Kind.ofWord_eq_identifier_iff text).mpr isName.notKeyword]

theorem words_natural (number : Nat) {rest : List Char} (apart : Apart rest) :
    words ((Decimal.natural number).toList ++ rest) =
      ⟨.integer, Decimal.natural number, ()⟩ :: words rest :=
  words_digits Nat.repr_ne_empty (fun _ => Decimal.isDigit_of_mem_natural) apart

/-! ## The characters of a canonical text -/

section chars

variable (token : τ) (tail : List Char)

theorem Expression.chars_prefixed (operator : String) (operand : Expression τ) :
    (prefixed token operator operand).render.toList ++ tail =
      '(' :: (operator.toList ++ (operand.render.toList ++ ')' :: tail)) := by
  simp [render]

theorem Expression.chars_infixed (operator : String) (left right : Expression τ) :
    (infixed token operator left right).render.toList ++ tail =
      '(' :: (left.render.toList ++ ' ' :: (operator.toList ++ ' ' ::
        (right.render.toList ++ ')' :: tail))) := by
  simp [render]

theorem Expression.chars_conditional_none (condition : Expression τ) (consequence : Block τ) :
    (conditional token condition consequence none).render.toList ++ tail =
      "if".toList ++ ' ' :: '(' :: (condition.render.toList ++ ')' :: ' ' ::
        (consequence.render.toList ++ tail)) := by
  simp [render]

theorem Expression.chars_conditional_some (condition : Expression τ)
    (consequence alternative : Block τ) :
    (conditional token condition consequence (some alternative)).render.toList ++ tail =
      "if".toList ++ ' ' :: '(' :: (condition.render.toList ++ ')' :: ' ' ::
        (consequence.render.toList ++ ' ' :: ("else".toList ++ ' ' ::
          (alternative.render.toList ++ tail)))) := by
  simp [render]

theorem Expression.chars_function (names : List (Name τ)) (body : Block τ) :
    (function token names body).render.toList ++ tail =
      "fn".toList ++ '(' :: ((commaSeparated (names.map Name.text)).toList ++
        ')' :: ' ' :: (body.render.toList ++ tail)) := by
  simp [render]

theorem Expression.chars_call (callee : Expression τ) (arguments : List (Expression τ)) :
    (call token callee arguments).render.toList ++ tail =
      callee.render.toList ++ '(' ::
        ((commaSeparated (renderEach arguments)).toList ++ ')' :: tail) := by
  simp [render]

theorem Statement.chars_binding (name : Name τ) (value : Expression τ) :
    (binding token name value).render.toList ++ tail =
      "let".toList ++ ' ' :: (name.text.toList ++ ' ' :: '=' :: ' ' ::
        (value.render.toList ++ ';' :: tail)) := by
  simp [render]

theorem Statement.chars_returning_none :
    (returning token none).render.toList ++ tail = "return".toList ++ ';' :: tail := by
  simp [render]

theorem Statement.chars_returning_some (value : Expression τ) :
    (returning token (some value)).render.toList ++ tail =
      "return".toList ++ ' ' :: (value.render.toList ++ ';' :: tail) := by
  simp [render]

theorem Block.chars_mk (trees : List (Statement τ)) :
    (mk token trees).render.toList ++ tail =
      '\x7b' :: ((renderStatements trees).toList ++ '\x7d' :: tail) := by
  simp [render]

end chars

/-- Nothing but a semicolon after an expression separates statements. -/
theorem Statement.separator_of_kind_ne {tree : Statement τ} (other : tree.kind ≠ .expression)
    (last : Bool) : tree.separator last = "" :=
  if_neg fun found => other found.1

/-! ## Expressions -/

/-- The canonical text of the expression is one that can be called. -/
def Expression.Spelled (tree : Expression τ) : Prop :=
  ∀ tail, Apart tail → ∃ read : Expression (Token Unit),
    read.mapTokens (fun _ => ()) = tree.mapTokens (fun _ => ()) ∧
    Derives (.expression .call read) (words (tree.render.toList ++ tail)) (words tail)

/-- The canonical texts of the expressions, between commas, are arguments. -/
def SpelledArguments (trees : List (Expression τ)) : Prop :=
  ∀ tail, ∃ read : List (Expression (Token Unit)),
    mapArguments (fun _ => ()) read = mapArguments (fun _ => ()) trees ∧
    Derives (.arguments read) (words ((commaSeparated (renderEach trees)).toList ++ ')' :: tail))
      (words (')' :: tail))

/-- The canonical text of the block is one. -/
def Block.Spelled (tree : Block τ) : Prop :=
  ∀ tail, ∃ read : Block (Token Unit),
    read.mapTokens (fun _ => ()) = tree.mapTokens (fun _ => ()) ∧
    Derives (.block read) (words (tree.render.toList ++ tail)) (words tail)

namespace Expression

theorem spelled_identifier {name : Name τ} (isName : IsName name.text) :
    (identifier name).Spelled := by
  intro tail apart
  refine ⟨.identifier ⟨⟨.identifier, name.text, ()⟩, name.text⟩, rfl, ?_⟩
  rw [render, words_name isName apart]
  exact .tighter rfl (.identifier _ rfl)

theorem spelled_integerLiteral {token : τ} {value : Int64} (nonnegative : 0 ≤ value.toInt) :
    (integerLiteral token value).Spelled := by
  intro tail apart
  obtain ⟨number, same⟩ := Int.eq_ofNat_of_zero_le nonnegative
  have small : number < 2 ^ 63 := by
    have := value.toInt_lt
    omega
  have value_eq : Int64.ofNat number = value := by
    rw [← Int64.toInt_inj, Int64.toInt_ofNat_of_lt small, same]
  have text : (integerLiteral token value).render = Decimal.natural number := by
    rw [render, same]
    rfl
  have read := Decimal.value_natural number
  have fits : Decimal.value (Decimal.natural number).toList < 2 ^ 63 := by
    rw [read]
    exact small
  have derived : Derives (.expression .primary
      (.integerLiteral ⟨.integer, Decimal.natural number, ()⟩ _)) _ _ :=
    .integer (words tail) rfl fits
  rw [read, value_eq] at derived
  refine ⟨.integerLiteral ⟨.integer, Decimal.natural number, ()⟩ value, rfl, ?_⟩
  rw [text, words_natural number apart]
  exact .tighter rfl derived

theorem spelled_booleanLiteral {token : τ} {value : Bool} :
    (booleanLiteral token value).Spelled := by
  intro tail apart
  refine ⟨.booleanLiteral (wordToken (truthText value)) value, rfl, ?_⟩
  cases value with
  | true =>
    rw [render, words_keyword (by decide) apart]
    exact .tighter rfl (.truth _ rfl)
  | false =>
    rw [render, words_keyword (by decide) apart]
    exact .tighter rfl (.falsehood _ rfl)

/-- An operation is written in parentheses, which make it an expression that can be called. -/
theorem spelled_prefixed {token : τ} {operator : String} {operand : Expression τ}
    (known : operator ∈ prefixOperators) (spelled : operand.Spelled) :
    (prefixed token operator operand).Spelled := by
  intro tail apart
  obtain ⟨read, same, derived⟩ := spelled (')' :: tail) (apart_cons rfl rfl)
  obtain ⟨kind, isSign, word⟩ :=
    exists_words_prefix known (head_ne_of_starts (Parse.begins_of_derives derived))
  refine ⟨.prefixed ⟨kind, operator, ()⟩ operator read, by simp [mapTokens, same], ?_⟩
  rw [chars_prefixed, words_symbol _ (by decide), word]
  rw [words_symbol _ (by decide)] at derived
  have signed : Derives (.expression .unary (.prefixed ⟨kind, operator, ()⟩ operator read)) _ _ :=
    .negation isSign (derived.lower (by decide))
  exact .tighter rfl (.group rfl signed.loosest rfl)

theorem spelled_infixed {token : τ} {operator : String} {left right : Expression τ}
    (known : operator ∈ infixOperators) (left_spelled : left.Spelled)
    (right_spelled : right.Spelled) : (infixed token operator left right).Spelled := by
  intro tail apart
  obtain ⟨kind, outer, next, above, joins, word⟩ := exists_words_infix known
  have loose : outer.rank ≤ 4 := by cases outer <;> simp_all [Layer.operators, Layer.rank]
  have step := Layer.rank_of_tighter above
  obtain ⟨read_right, same_right, derived_right⟩ :=
    right_spelled (')' :: tail) (apart_cons rfl rfl)
  obtain ⟨read_left, same_left, derived_left⟩ := left_spelled
    (' ' :: (operator.toList ++ ' ' :: (right.render.toList ++ ')' :: tail))) (apart_cons rfl rfl)
  refine ⟨.infixed ⟨kind, operator, ()⟩ operator read_left read_right,
    by simp [mapTokens, same_left, same_right], ?_⟩
  rw [chars_infixed, words_symbol _ (by decide)]
  rw [words_blank _ rfl, word, words_blank _ rfl] at derived_left
  rw [words_symbol _ (by decide)] at derived_right
  have joined : Derives (.expression outer _) _ _ := .operation above joins
    (derived_left.lower (Nat.le_trans loose (by decide)))
    (derived_right.lower (by rw [step]; exact Nat.le_trans (Nat.succ_le_succ loose) (by decide)))
  exact .tighter rfl (.group rfl joined.loosest rfl)

/-- A callee needs no parentheses beyond its own. -/
theorem spelled_call {token : τ} {callee : Expression τ} {arguments : List (Expression τ)}
    (callee_spelled : callee.Spelled) (arguments_spelled : SpelledArguments arguments) :
    (call token callee arguments).Spelled := by
  intro tail apart
  obtain ⟨trees, same_trees, list⟩ := arguments_spelled tail
  obtain ⟨read, same, derived⟩ := callee_spelled
    ('(' :: ((commaSeparated (renderEach arguments)).toList ++ ')' :: tail)) (apart_cons rfl rfl)
  refine ⟨.call (symbolToken '(') read trees, by simp [mapTokens, same, same_trees], ?_⟩
  rw [chars_call]
  rw [words_symbol _ (by decide)] at derived list
  exact .call derived rfl list rfl

theorem words_if (rest : List Char) :
    words ("if".toList ++ ' ' :: '(' :: rest) =
      wordToken "if" :: symbolToken '(' :: words rest := by
  rw [words_keyword (by decide) (apart_cons rfl rfl), words_blank _ rfl,
    words_symbol _ (by decide)]

theorem words_else (rest : List Char) :
    words (' ' :: ("else".toList ++ ' ' :: rest)) = wordToken "else" :: words rest := by
  rw [words_blank _ rfl, words_keyword (by decide) (apart_cons rfl rfl), words_blank _ rfl]

/-- A condition is an expression of any layer, up to its parenthesis and the blank after it. -/
theorem Spelled.condition {condition : Expression τ} (spelled : condition.Spelled)
    (rest : List Char) : ∃ read : Expression (Token Unit),
      read.mapTokens (fun _ => ()) = condition.mapTokens (fun _ => ()) ∧
      Derives (.expression .equality read)
        (words (condition.render.toList ++ ')' :: ' ' :: rest))
        (symbolToken ')' :: words rest) := by
  obtain ⟨read, same, derived⟩ := spelled (')' :: ' ' :: rest) (apart_cons rfl rfl)
  rw [words_symbol (' ' :: rest) (by decide), words_blank _ rfl] at derived
  exact ⟨read, same, derived.loosest⟩

/-- The condition is written in parentheses, and the block ends with its brace. -/
theorem spelled_conditional_none {token : τ} {condition : Expression τ} {consequence : Block τ}
    (condition_spelled : condition.Spelled) (consequence_spelled : consequence.Spelled) :
    (conditional token condition consequence none).Spelled := by
  intro tail apart
  obtain ⟨body, same_body, derived_body⟩ := consequence_spelled tail
  obtain ⟨read, same, derived⟩ :=
    condition_spelled.condition (consequence.render.toList ++ tail)
  refine ⟨.conditional (wordToken "if") read body none, by simp [mapTokens, same, same_body], ?_⟩
  rw [chars_conditional_none, words_if]
  exact .tighter rfl (.conditional rfl rfl derived rfl derived_body)

theorem spelled_conditional_some {token : τ} {condition : Expression τ}
    {consequence alternative : Block τ} (condition_spelled : condition.Spelled)
    (consequence_spelled : consequence.Spelled) (alternative_spelled : alternative.Spelled) :
    (conditional token condition consequence (some alternative)).Spelled := by
  intro tail apart
  obtain ⟨other, same_other, derived_other⟩ := alternative_spelled tail
  obtain ⟨body, same_body, derived_body⟩ := consequence_spelled
    (' ' :: ("else".toList ++ ' ' :: (alternative.render.toList ++ tail)))
  obtain ⟨read, same, derived⟩ := condition_spelled.condition
    (consequence.render.toList ++ ' ' :: ("else".toList ++ ' ' ::
      (alternative.render.toList ++ tail)))
  refine ⟨.conditional (wordToken "if") read body (some other),
    by simp [mapTokens, same, same_body, same_other], ?_⟩
  rw [chars_conditional_some, words_if]
  rw [words_else] at derived_body
  exact .tighter rfl (.alternative rfl rfl derived rfl derived_body rfl derived_other)

/-- The names of a function, between commas, are its parameters. -/
theorem parameters_of_names {names : List (Name τ)} (known : ∀ name ∈ names, IsName name.text)
    (tail : List Char) : ∃ read : List (Name (Token Unit)),
      read.map (Name.mapTokens fun _ => ()) = names.map (Name.mapTokens fun _ => ()) ∧
      Parameters read (words ((commaSeparated (names.map Name.text)).toList ++ ')' :: tail))
        (words (')' :: tail)) := by
  induction names with
  | nil => exact ⟨[], rfl, .none _⟩
  | cons name names ih =>
    have isName := known name List.mem_cons_self
    obtain ⟨read, same, list⟩ :=
      ih fun other member => known other (List.mem_cons_of_mem _ member)
    refine ⟨⟨⟨.identifier, name.text, ()⟩, name.text⟩ :: read, ?_, ?_⟩
    · rw [List.map_cons, List.map_cons, same]
      rfl
    · cases names with
      | nil =>
        obtain rfl : read = [] := List.map_eq_nil_iff.mp same
        have text : (commaSeparated ([name].map Name.text)).toList ++ ')' :: tail =
            name.text.toList ++ ')' :: tail := by
          simp [commaSeparated, commaEach]
        rw [text, words_name isName (apart_cons rfl rfl)]
        exact .last _ rfl
      | cons second names =>
        obtain ⟨name', read, rfl⟩ := List.exists_cons_of_ne_nil (l := read) (by
          rintro rfl
          simp at same)
        have text : (commaSeparated ((name :: second :: names).map Name.text)).toList ++
            ')' :: tail = name.text.toList ++ ',' :: ' ' ::
              ((commaSeparated ((second :: names).map Name.text)).toList ++ ')' :: tail) := by
          simp [commaSeparated, commaEach]
        rw [text, words_name isName (apart_cons rfl rfl), words_symbol _ (by decide),
          words_blank _ rfl]
        exact .more rfl rfl list

theorem spelled_function {token : τ} {names : List (Name τ)} {body : Block τ}
    (known : ∀ name ∈ names, IsName name.text) (spelled : body.Spelled) :
    (function token names body).Spelled := by
  intro tail apart
  obtain ⟨code, same_code, derived⟩ := spelled tail
  obtain ⟨read, same, list⟩ := parameters_of_names known (' ' :: (body.render.toList ++ tail))
  refine ⟨.function (wordToken "fn") read code, by simp [mapTokens, same, same_code], ?_⟩
  rw [words_symbol (c := ')') _ (by decide), words_blank _ rfl] at list
  rw [chars_function, words_keyword (by decide) (apart_cons rfl rfl),
    words_symbol _ (by decide)]
  exact .tighter rfl (.function rfl rfl list rfl derived)

end Expression

theorem spelledArguments_nil : SpelledArguments ([] : List (Expression τ)) :=
  fun _ => ⟨[], rfl, .noArguments _⟩

theorem spelledArguments_cons {tree : Expression τ} {trees : List (Expression τ)}
    (spelled : tree.Spelled) (spelled_trees : SpelledArguments trees) :
    SpelledArguments (tree :: trees) := by
  intro tail
  cases trees with
  | nil =>
    obtain ⟨read, same, derived⟩ := spelled (')' :: tail) (apart_cons rfl rfl)
    refine ⟨[read], by simp [mapArguments, same], ?_⟩
    have text : (commaSeparated (renderEach [tree])).toList ++ ')' :: tail =
        tree.render.toList ++ ')' :: tail := by
      simp [renderEach, commaSeparated, commaEach]
    rw [text]
    exact .lastArgument derived.loosest
  | cons second trees =>
    obtain ⟨reads, same_reads, list⟩ := spelled_trees tail
    obtain ⟨read', reads, rfl⟩ := List.exists_cons_of_ne_nil (l := reads) (by
      rintro rfl
      simp [mapArguments] at same_reads)
    obtain ⟨read, same, derived⟩ := spelled (',' :: ' ' ::
      ((commaSeparated (renderEach (second :: trees))).toList ++ ')' :: tail)) (apart_cons rfl rfl)
    refine ⟨read :: read' :: reads, by rw [mapArguments, same, same_reads]; rfl, ?_⟩
    · have text : (commaSeparated (renderEach (tree :: second :: trees))).toList ++ ')' :: tail =
          tree.render.toList ++ ',' :: ' ' ::
            ((commaSeparated (renderEach (second :: trees))).toList ++ ')' :: tail) := by
        simp [renderEach, commaSeparated, commaEach]
      rw [text]
      rw [words_symbol (c := ',') _ (by decide), words_blank _ rfl] at derived
      exact .moreArguments derived.loosest rfl list

/-! ## Statements -/

/-- The end of the text, or the brace that closes a block. -/
def Closing (tail : List Char) : Prop := tail = [] ∨ ∃ rest, tail = '\x7d' :: rest

/-- The canonical text of the statement, with what separates it from the next one, is one. -/
def Statement.Spelled (tree : Statement τ) : Prop :=
  ∀ (last : Bool) (tail : List Char), (last = true → Closing tail) →
    ∃ read : Statement (Token Unit),
      read.mapTokens (fun _ => ()) = tree.mapTokens (fun _ => ()) ∧
      Derives (.statement read)
        (words ((tree.render ++ tree.separator last).toList ++ tail)) (words tail)

/-- The canonical text of the statements is a list of them. -/
def SpelledStatements (trees : List (Statement τ)) : Prop :=
  ∀ tail, Closing tail → ∃ read : List (Statement (Token Unit)),
    mapStatements (fun _ => ()) read = mapStatements (fun _ => ()) trees ∧
    Derives (.statements read) (words ((renderStatements trees).toList ++ tail)) (words tail)

theorem Closing.apart {tail : List Char} (closing : Closing tail) : Apart tail := by
  rcases closing with rfl | ⟨rest, rfl⟩
  · exact apart_nil
  · exact apart_cons rfl rfl

/-- A statement may lack its semicolon at the end of a list. -/
theorem Closing.ends {tail : List Char} (closing : Closing tail) :
    Ends StartsAnew (words tail) (words tail) := by
  refine .bare ?_
  rcases closing with rfl | ⟨rest, rfl⟩
  · simp [words_nil]
  · rw [words_symbol _ (by decide)]
    intro next first
    obtain rfl := Option.some.inj first
    exact ⟨by decide, by decide⟩

namespace Statement

theorem spelled_binding {token : τ} {name : Name τ} {value : Expression τ}
    (isName : IsName name.text) (spelled : value.Spelled) :
    (binding token name value).Spelled := by
  intro last tail _
  obtain ⟨read, same, derived⟩ := spelled (';' :: tail) (apart_cons rfl rfl)
  refine ⟨.binding (wordToken "let") ⟨⟨.identifier, name.text, ()⟩, name.text⟩ read,
    by simp [mapTokens, same, Name.mapTokens], ?_⟩
  rw [separator_of_kind_ne (by simp [kind]), String.append_empty, chars_binding,
    words_keyword (by decide) (apart_cons rfl rfl), words_blank _ rfl,
    words_name isName (apart_cons rfl rfl), words_blank _ rfl, words_sign (by decide) (by simp),
    words_blank _ rfl]
  rw [words_symbol (c := ';') _ (by decide)] at derived
  exact .binding rfl rfl rfl derived.loosest (.semicolon _ rfl)

theorem spelled_returning_none {token : τ} : (returning token none).Spelled := by
  intro last tail _
  refine ⟨.returning (wordToken "return") none, rfl, ?_⟩
  rw [separator_of_kind_ne (by simp [kind]), String.append_empty, chars_returning_none,
    words_keyword (by decide) (apart_cons rfl rfl), words_symbol _ (by decide)]
  exact .bareReturn rfl (.semicolon _ rfl)

/-- The blank after `return` keeps the word apart from its value. -/
theorem spelled_returning_some {token : τ} {value : Expression τ} (spelled : value.Spelled) :
    (returning token (some value)).Spelled := by
  intro last tail _
  obtain ⟨read, same, derived⟩ := spelled (';' :: tail) (apart_cons rfl rfl)
  refine ⟨.returning (wordToken "return") (some read), by simp [mapTokens, same], ?_⟩
  rw [separator_of_kind_ne (by simp [kind]), String.append_empty, chars_returning_some,
    words_keyword (by decide) (apart_cons rfl rfl), words_blank _ rfl]
  rw [words_symbol (c := ';') _ (by decide)] at derived
  exact .returning rfl derived.loosest (.semicolon _ rfl)

/-- The text of an expression makes a statement, whatever its first token is. -/
theorem exists_derives_expression {value : Expression (Token Unit)}
    {input middle rest : List (Token Unit)}
    (derived : Derives (.expression .call value) input middle)
    (ends : Ends StartsAnew middle rest) :
    ∃ first, Derives (.statement (.expression first value)) input rest := by
  obtain ⟨first, more, rfl, -⟩ := Parse.begins_of_derives derived
  exact ⟨first, .expression derived.loosest ends⟩

/-- An expression statement ends with its semicolon, or else the block or the text does. -/
theorem spelled_expression {token : τ} {value : Expression τ} (spelled : value.Spelled) :
    (expression token value).Spelled := by
  intro last tail closing
  cases last with
  | true =>
    obtain ⟨read, same, derived⟩ := spelled tail (closing rfl).apart
    obtain ⟨first, stated⟩ := exists_derives_expression derived (closing rfl).ends
    refine ⟨.expression first read, by simp [mapTokens, same], ?_⟩
    simpa [render, separator] using stated
  | false =>
    obtain ⟨read, same, derived⟩ := spelled (';' :: tail) (apart_cons rfl rfl)
    rw [words_symbol (c := ';') _ (by decide)] at derived
    obtain ⟨first, stated⟩ := exists_derives_expression derived (.semicolon _ rfl)
    refine ⟨.expression first read, by simp [mapTokens, same], ?_⟩
    simpa [render, separator, kind] using stated

end Statement

theorem spelledStatements_nil : SpelledStatements ([] : List (Statement τ)) :=
  fun _ _ => ⟨[], rfl, .noStatements _⟩

/-- Each statement is written so that the next one does not run into it. -/
theorem spelledStatements_cons {tree : Statement τ} {trees : List (Statement τ)}
    (spelled : tree.Spelled) (spelled_trees : SpelledStatements trees) :
    SpelledStatements (tree :: trees) := by
  intro tail closing
  obtain ⟨reads, same_reads, derived_trees⟩ := spelled_trees tail closing
  have closing_last : trees.isEmpty = true → Closing ((renderStatements trees).toList ++ tail) := by
    intro none
    rw [List.isEmpty_iff.mp none]
    exact closing
  obtain ⟨read, same, derived⟩ :=
    spelled trees.isEmpty ((renderStatements trees).toList ++ tail) closing_last
  refine ⟨read :: reads, by rw [mapStatements, mapStatements, same, same_reads], ?_⟩
  have text : (renderStatements (tree :: trees)).toList ++ tail =
      (tree.render ++ tree.separator trees.isEmpty).toList ++
        ((renderStatements trees).toList ++ tail) := by
    simp [renderStatements]
  rw [text]
  exact .moreStatements derived derived_trees

theorem Block.spelled_mk {token : τ} {trees : List (Statement τ)}
    (spelled : SpelledStatements trees) : (Block.mk token trees).Spelled := by
  intro tail
  obtain ⟨read, same, derived⟩ := spelled ('\x7d' :: tail) (.inr ⟨tail, rfl⟩)
  refine ⟨.mk (symbolToken '\x7b') read, by simp [mapTokens, same], ?_⟩
  rw [chars_mk, words_symbol _ (by decide)]
  rw [words_symbol (c := '\x7d') _ (by decide)] at derived
  exact .block rfl derived (.brace _ rfl)

/-! ## Every writable tree -/

mutual

/-- Every writable expression is spelled by its canonical text; the induction is on the tree, and
each case is one of the lemmas above. -/
theorem Expression.spelled : (tree : Expression τ) → tree.Every Node.Writable → tree.Spelled
  | .identifier _, known => Expression.spelled_identifier known
  | .integerLiteral _ _, known => Expression.spelled_integerLiteral known
  | .booleanLiteral _ _, _ => Expression.spelled_booleanLiteral
  | .prefixed _ _ operand, ⟨known, below⟩ =>
    Expression.spelled_prefixed known (operand.spelled below)
  | .infixed _ _ left right, ⟨known, below_left, below_right⟩ =>
    Expression.spelled_infixed known (left.spelled below_left) (right.spelled below_right)
  | .conditional _ condition body none, ⟨_, below, below_body⟩ =>
    Expression.spelled_conditional_none (condition.spelled below) (body.spelled below_body)
  | .conditional _ condition body (some alternative), ⟨_, below, below_body, below_other⟩ =>
    Expression.spelled_conditional_some (condition.spelled below) (body.spelled below_body)
      (alternative.spelled below_other)
  | .function _ _ body, ⟨_, known, below⟩ =>
    Expression.spelled_function known (body.spelled below)
  | .call _ callee arguments, ⟨_, below, below_arguments⟩ =>
    Expression.spelled_call (callee.spelled below)
      (spelledArguments_of_every arguments below_arguments)

theorem spelledArguments_of_every :
    (trees : List (Expression τ)) → EveryArgument Node.Writable trees → SpelledArguments trees
  | [], _ => spelledArguments_nil
  | tree :: trees, ⟨below, below_trees⟩ =>
    spelledArguments_cons (tree.spelled below) (spelledArguments_of_every trees below_trees)

theorem Statement.spelled : (tree : Statement τ) → tree.Every Node.Writable → tree.Spelled
  | .binding _ _ value, ⟨_, known, below⟩ =>
    Statement.spelled_binding known (value.spelled below)
  | .returning _ none, _ => Statement.spelled_returning_none
  | .returning _ (some value), ⟨_, below⟩ =>
    Statement.spelled_returning_some (value.spelled below)
  | .expression _ value, ⟨_, below⟩ => Statement.spelled_expression (value.spelled below)
  | .block _, ⟨excluded, _⟩ => excluded.elim

theorem spelledStatements_of_every :
    (trees : List (Statement τ)) → EveryStatement Node.Writable trees → SpelledStatements trees
  | [], _ => spelledStatements_nil
  | tree :: trees, ⟨below, below_trees⟩ =>
    spelledStatements_cons (tree.spelled below) (spelledStatements_of_every trees below_trees)

theorem Block.spelled : (tree : Block τ) → tree.Every Node.Writable → tree.Spelled
  | .mk _ statements, ⟨_, below⟩ =>
    Block.spelled_mk (spelledStatements_of_every statements below)

end

end Scriptlet
