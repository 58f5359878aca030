import Scriptlet.Proofs.Completeness
import Scriptlet.Proofs.Soundness
import Scriptlet.Script

/-!
# Texts that come to a value

Which texts come to a value, and to which, said of their tokens alone. `Denotes` is the small part
of the grammar that can be evaluated, and `Amounts` goes through statements of it from first to
last. A text comes to a value exactly if its tokens amount to it: what is read without a problem is
derived by the grammar, and of what the grammar derives only this part has a value.
-/

namespace Scriptlet

open Grammar

variable {α : Type}

/-- The tokens of `input` before `rest` are a literal, a negation or one of these in parentheses,
and stand for a value. Of the values only `false` and null count as false. -/
inductive Denotes : Value → List (Token α) → List (Token α) → Prop where
  | integer {digits : Token α} {value : Int64} (rest : List (Token α))
      (isNumber : digits.kind = .integer)
      (isDecimal : value.toInt = Decimal.value digits.literal.toList) :
      Denotes (.integer value) (digits :: rest) rest
  | truth {word : Token α} (rest : List (Token α)) (isTrue : word.kind = .trueWord) :
      Denotes (.boolean true) (word :: rest) rest
  | falsehood {word : Token α} (rest : List (Token α)) (isFalse : word.kind = .falseWord) :
      Denotes (.boolean false) (word :: rest) rest
  | negation {sign : Token α} {value : Value} {input rest : List (Token α)}
      (isNot : sign.kind = .not) (operand : Denotes value input rest) :
      Denotes (.boolean (decide (value = .boolean false ∨ value = .null))) (sign :: input) rest
  | group {opening closing : Token α} {value : Value} {input rest : List (Token α)}
      (opens : opening.kind = .leftParen) (inner : Denotes value input (closing :: rest))
      (closes : closing.kind = .rightParen) : Denotes value (opening :: input) rest

/-- The tokens are statements with values, the last of which is `result`; `last` is the value before
the first of them. A statement without its semicolon does not stand before a parenthesis. -/
inductive Amounts : Value → List (Token α) → Value → Prop where
  | nothing (last : Value) : Amounts last [] last
  | more {last value result : Value} {input middle rest : List (Token α)}
      (first : Denotes value input middle) (ends : Ends (· ≠ .leftParen) middle rest)
      (others : Amounts value rest result) : Amounts last input result

/-! ## Evaluation -/

namespace Evaluation

theorem result_andThen (evaluation : Evaluation α) (next : Value → Evaluation α) :
    (evaluation.andThen next).result =
      evaluation.result.bind fun value => (next value).result := by
  unfold andThen
  cases evaluation.result <;> rfl

/-- Going on from a value comes to something only if there is such a value. -/
theorem result_andThen_eq_ok {evaluation : Evaluation α} {next : Value → Evaluation α}
    {result : Value} : (evaluation.andThen next).result = .ok result ↔
      ∃ value, evaluation.result = .ok value ∧ (next value).result = .ok result := by
  rw [result_andThen]
  cases evaluation.result with
  | error error => simp [Except.bind]
  | ok value => simp [Except.bind]

end Evaluation

theorem Value.not_truthy (value : Value) :
    (!value.truthy) = decide (value = .boolean false ∨ value = .null) := by
  cases value with
  | integer _ => rfl
  | boolean truth => cases truth <;> rfl
  | null => rfl

/-- Only the sign for negation has a value, and of any value it makes a truth value. -/
theorem Expression.evaluate_prefixed {token : Token α} {operator : String}
    {operand : Expression (Token α)} {result : Value} :
    (prefixed token operator operand).evaluate.result = .ok result ↔
      token.kind = .not ∧ ∃ value, operand.evaluate.result = .ok value ∧
        result = .boolean (decide (value = .boolean false ∨ value = .null)) := by
  rw [evaluate, Evaluation.result_andThen_eq_ok]
  by_cases isNot : token.kind = .not
  · simp only [Value.not_truthy, isNot, true_and]
    simp [Evaluation.give, eq_comm]
  · simp [isNot, Evaluation.stop]

theorem evaluateStatements_cons {last result : Value} {tree : Statement (Token α)}
    {trees : List (Statement (Token α))} :
    (evaluateStatements last (tree :: trees)).result = .ok result ↔
      ∃ value, tree.evaluate.result = .ok value ∧
        (evaluateStatements value trees).result = .ok result := by
  rw [evaluateStatements, Evaluation.result_andThen_eq_ok]
  rfl

/-! ## What is derived and has a value -/

/-- If the tree of a phrase has a value, then its tokens stand for it. -/
def Valued : Phrase α → List (Token α) → List (Token α) → Prop
  | .expression _ tree, input, rest =>
    ∀ value, tree.evaluate.result = .ok value → Denotes value input rest
  | .statement tree, input, rest => ∀ value, tree.evaluate.result = .ok value →
    ∃ middle, Denotes value input middle ∧ Ends (· ≠ .leftParen) middle rest
  | .statements trees, input, rest => rest = [] → ∀ last result,
    (evaluateStatements last trees).result = .ok result → Amounts last input result
  | .arguments _, _, _ => True
  | .block _, _, _ => True

theorem Grammar.Ends.weaken {allowed weaker : Kind → Prop} {middle rest : List (Token α)}
    (ends : Ends allowed middle rest)
    (implied : ∀ next ∈ rest.head?, allowed next.kind → weaker next.kind) :
    Ends weaker middle rest := by
  cases ends with
  | semicolon rest isMark => exact .semicolon rest isMark
  | bare follows => exact .bare fun next first => implied next first (follows next first)

/-- Of what the grammar derives, only literals, negations and parentheses have a value. -/
theorem valued_of_derives {phrase : Phrase α} {input rest : List (Token α)}
    (derived : Derives phrase input rest) : Valued phrase input rest := by
  induction derived with
  | tighter _ _ ih => exact ih
  | negation _ _ ih =>
    intro value given
    obtain ⟨isNot, inner, known, rfl⟩ := Expression.evaluate_prefixed.mp given
    exact .negation isNot (ih inner known)
  | integer rest isNumber fits =>
    rintro _ ⟨⟩
    exact .integer rest isNumber (Int64.toInt_ofNat_of_lt fits)
  | truth rest isTrue =>
    rintro _ ⟨⟩
    exact .truth rest isTrue
  | falsehood rest isFalse =>
    rintro _ ⟨⟩
    exact .falsehood rest isFalse
  | group opens _ closes ih =>
    intro value given
    exact .group opens (ih value given) closes
  | operation | call | identifier | conditional | alternative | function =>
    intro value given
    cases given
  | noArguments | lastArgument | moreArguments | block => trivial
  | binding | bareReturn | returning =>
    intro value given
    cases given
  | expression _ ends ih =>
    intro value given
    exact ⟨_, ih value given, ends.weaken fun _ _ startsAnew => startsAnew.2⟩
  | noStatements rest =>
    rintro rfl last _ ⟨⟩
    exact .nothing last
  | moreStatements _ _ first_valued others_valued =>
    intro ended last result given
    obtain ⟨value, known, following⟩ := evaluateStatements_cons.mp given
    obtain ⟨middle, denoted, ends⟩ := first_valued value known
    exact .more denoted ends (others_valued ended value result following)

/-! ## What has a value is derived -/

theorem exists_derives_of_denotes {value : Value} {input rest : List (Token α)}
    (denoted : Denotes value input rest) : ∃ tree : Expression (Token α),
      Derives (.expression .unary tree) input rest ∧ tree.evaluate.result = .ok value := by
  induction denoted with
  | @integer digits value rest isNumber isDecimal =>
    have fits : Decimal.value digits.literal.toList < 2 ^ 63 := by
      have small := value.toInt_lt
      omega
    have same : Int64.ofNat (Decimal.value digits.literal.toList) = value :=
      Int64.toInt_inj.mp ((Int64.toInt_ofNat_of_lt fits).trans isDecimal.symm)
    exact ⟨.integerLiteral digits value,
      (same ▸ Derives.integer rest isNumber fits).lower (by decide), rfl⟩
  | truth rest isTrue => exact ⟨_, (Derives.truth rest isTrue).lower (by decide), rfl⟩
  | falsehood rest isFalse => exact ⟨_, (Derives.falsehood rest isFalse).lower (by decide), rfl⟩
  | negation isNot _ ih =>
    obtain ⟨tree, derived, known⟩ := ih
    exact ⟨_, .negation (.inl isNot) derived,
      Expression.evaluate_prefixed.mpr ⟨isNot, _, known, rfl⟩⟩
  | group opens _ closes ih =>
    obtain ⟨tree, derived, known⟩ := ih
    exact ⟨tree, (Derives.group opens derived.loosest closes).lower (by decide), known⟩

/-- No minus begins what has a value. -/
theorem notMinus_of_amounts {last result : Value} {input : List (Token α)}
    (amounts : Amounts last input result) : ∀ next ∈ input.head?, next.kind ≠ .minus := by
  cases amounts with
  | nothing _ => simp
  | more first _ _ => cases first <;> simp_all

/-- Tokens that amount to a value are statements of the grammar that come to it. -/
theorem exists_derives_of_amounts {last result : Value} {input : List (Token α)}
    (amounts : Amounts last input result) : ∃ trees : List (Statement (Token α)),
      Derives (.statements trees) input [] ∧
        (evaluateStatements last trees).result = .ok result := by
  induction amounts with
  | nothing last => exact ⟨[], .noStatements [], rfl⟩
  | more first ends others ih =>
    obtain ⟨value, derived, known⟩ := exists_derives_of_denotes first
    obtain ⟨trees, derived_trees, following⟩ := ih
    obtain ⟨head, tail, rfl, -⟩ := Parse.begins_of_derives derived
    have anew : Ends StartsAnew _ _ := ends.weaken fun next begun notParen =>
      ⟨notMinus_of_amounts others next begun, notParen⟩
    exact ⟨_, .moreStatements (.expression derived.loosest anew) derived_trees,
      evaluateStatements_cons.mpr ⟨_, known, following⟩⟩

/-! ## Texts -/

theorem mapError_eq_ok {ε ε' : Type} {f : ε → ε'} {result : Except ε α} {value : α} :
    result.mapError f = .ok value ↔ result = .ok value := by
  cases result with
  | error error => exact ⟨nofun, nofun⟩
  | ok given => exact ⟨fun same => by cases same; rfl, fun same => by cases same; rfl⟩

theorem runText_of_quiet {text path : String} (quiet : (parseText text path).2 = []) :
    runText text path = (parseText text path).1.evaluate.result.mapError .stopped := by
  unfold runText
  split
  · next program found => rw [found]
  · next program diagnostics wrong found =>
    rw [found] at quiet
    exact absurd quiet wrong

theorem runText_of_problems {text path : String} (wrong : (parseText text path).2 ≠ []) :
    runText text path = .error (.malformed (parseText text path).2) := by
  unfold runText
  split
  · next program found =>
    rw [found] at wrong
    exact absurd rfl wrong
  · next program diagnostics _ found => rw [found]

/-- A text comes to a value exactly if it has no problem and its program has that value. -/
theorem runText_eq_ok {text path : String} {value : Value} : runText text path = .ok value ↔
    (parseText text path).2 = [] ∧ (parseText text path).1.evaluate.result = .ok value := by
  by_cases quiet : (parseText text path).2 = []
  · rw [runText_of_quiet quiet, mapError_eq_ok]
    simp [quiet]
  · rw [runText_of_problems quiet]
    simp [quiet]

/-- What a text comes to is what its tokens amount to. -/
theorem amounts_of_runText {text path : String} {value : Value}
    (comes : runText text path = .ok value) :
    Amounts .null (Cursor.ofText text path).tokens.1 value := by
  obtain ⟨quiet, given⟩ := runText_eq_ok.mp comes
  rw [parseText_eq] at quiet given
  obtain ⟨trees, read, derived⟩ :=
    Parse.statements_sound _ (Cursor.endFree_tokens _) (List.map_eq_nil_iff.mp quiet)
  rw [read] at given
  exact valued_of_derives derived rfl .null value given

theorem runText_of_amounts {text path : String} {value : Value}
    (amounts : Amounts .null (Cursor.ofText text path).tokens.1 value) :
    runText text path = .ok value := by
  obtain ⟨trees, derived, known⟩ := exists_derives_of_amounts amounts
  have yields : (Parse.statements (.ofCursor (.ofText text path))).Yields trees [] :=
    (Parse.read_of_derives derived).2 rfl _ rfl
  rw [runText_eq_ok, parseText_eq, yields.given, yields.quiet]
  exact ⟨rfl, known⟩

/-- A text comes to a value if its tokens amount to it, and to no other value. Any other text fails:
with all of its problems if it has some, and else with the error of its evaluation. -/
theorem runText_iff_amounts (text path : String) :
    (∀ value, runText text path = .ok value ↔
      Amounts .null (Cursor.ofText text path).tokens.1 value) ∧
    ((∃ value, Amounts .null (Cursor.ofText text path).tokens.1 value) ∨
      ((parseText text path).2 ≠ [] ∧
        runText text path = .error (.malformed (parseText text path).2)) ∨
      ((parseText text path).2 = [] ∧ ∃ error, runText text path = .error (.stopped error))) := by
  refine ⟨fun value => ⟨amounts_of_runText, runText_of_amounts⟩, ?_⟩
  by_cases quiet : (parseText text path).2 = []
  · rw [runText_of_quiet quiet]
    cases given : (parseText text path).1.evaluate.result with
    | ok value => exact .inl ⟨value, amounts_of_runText (runText_eq_ok.mpr ⟨quiet, given⟩)⟩
    | error error => exact .inr (.inr ⟨quiet, error, rfl⟩)
  · exact .inr (.inl ⟨quiet, runText_of_problems quiet⟩)

end Scriptlet
