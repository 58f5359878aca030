import Mathlib.Logic.Function.Iterate
import Scriptlet.Proofs.Success

/-!
# Faults

Which trees have a value, and what is wrong with the others, said of the trees alone. An expression
consists of its prefixes and a core: it has a value if the core is a literal and every prefix is a
`!`, and otherwise the fault is the core or, of the prefixes that are none, the innermost. Of
statements the first one with a fault decides, and a block is searched where it stands.

Nothing here asks where a tree comes from. The token of a prefix may contradict its operator text,
and blocks may stand among statements at any depth.
-/

namespace Scriptlet

variable {α τ : Type}

namespace Expression

/-- The value that a literal stands for. -/
def literal? : Expression τ → Option Value
  | .integerLiteral _ value => some (.integer value)
  | .booleanLiteral _ value => some (.boolean value)
  | _ => none

/-- The tokens of the prefixes with which an expression begins, the outermost first. -/
def prefixes : Expression τ → List τ
  | .prefixed token _ operand => token :: operand.prefixes
  | _ => []

/-- What is left of an expression without its prefixes. -/
def core : Expression τ → Expression τ
  | .prefixed _ _ operand => operand.core
  | tree => tree

/-- The expression is a literal, or a `!` before a supported expression. -/
inductive Supported : Expression (Token α) → Prop where
  | integer (token : Token α) (value : Int64) : Supported (.integerLiteral token value)
  | boolean (token : Token α) (value : Bool) : Supported (.booleanLiteral token value)
  | negation {token : Token α} {operator : String} {operand : Expression (Token α)}
      (isNot : token.kind = .not) (supported : Supported operand) :
      Supported (.prefixed token operator operand)

/-- A literal has its value. Prefixes before a literal leave only whether it counts as true, and
each of them turns that round. -/
inductive HasValue : Expression (Token α) → Value → Prop where
  | literal {tree : Expression (Token α)} {value : Value} (isLiteral : tree.literal? = some value) :
      HasValue tree value
  | negations {tree : Expression (Token α)} {value : Value}
      (isLiteral : tree.core.literal? = some value) (begins : tree.prefixes ≠ []) :
      HasValue tree (.boolean (not^[tree.prefixes.length] value.truthy))

/-- What is wrong with an expression: its core if that is no literal, and else the innermost prefix
that is no `!`. -/
inductive HasFault : Expression (Token α) → EvaluationError α → Prop where
  | core {tree : Expression (Token α)} (noLiteral : tree.core.literal? = none) :
      HasFault tree (.unsupported tree.core.kind tree.core.token.location)
  | sign {tree : Expression (Token α)} {value : Value} {outer inner : List (Token α)}
      {token : Token α} (isLiteral : tree.core.literal? = some value)
      (parts : tree.prefixes = outer ++ token :: inner) (notNot : token.kind ≠ .not)
      (innermost : ∀ other ∈ inner, other.kind = .not) :
      HasFault tree (.unsupportedOperator token.literal token.location)

end Expression

/-- The statement is a supported expression, or a block of supported statements. -/
inductive Statement.Supported : Statement (Token α) → Prop where
  | expression (token : Token α) {value : Expression (Token α)} (supported : value.Supported) :
      Supported (.expression token value)
  | block {body : Block (Token α)} (supported : ∀ tree ∈ body.statements, Supported tree) :
      Supported (.block body)

mutual

/-- The value of a statement. -/
inductive Statement.HasValue : Statement (Token α) → Value → Prop where
  | expression (token : Token α) {value : Expression (Token α)} {result : Value}
      (known : value.HasValue result) : Statement.HasValue (.expression token value) result
  | block {body : Block (Token α)} {result : Value}
      (known : LastValue .null body.statements result) : Statement.HasValue (.block body) result

/-- The value of the last of some statements, and the value before them if there is none. -/
inductive LastValue : Value → List (Statement (Token α)) → Value → Prop where
  | none (before : Value) : LastValue before [] before
  | last (before : Value) (trees : List (Statement (Token α))) {tree : Statement (Token α)}
      {result : Value} (known : tree.HasValue result) : LastValue before (trees ++ [tree]) result

end

mutual

/-- What is wrong with a statement. -/
inductive Statement.HasFault : Statement (Token α) → EvaluationError α → Prop where
  | binding (token : Token α) (name : Name (Token α)) (value : Expression (Token α)) :
      Statement.HasFault (.binding token name value) (.unsupported .binding token.location)
  | returning (token : Token α) (value : Option (Expression (Token α))) :
      Statement.HasFault (.returning token value) (.unsupported .returning token.location)
  | expression (token : Token α) {value : Expression (Token α)} {error : EvaluationError α}
      (wrong : value.HasFault error) : Statement.HasFault (.expression token value) error
  | block {body : Block (Token α)} {error : EvaluationError α}
      (wrong : FirstFault body.statements error) : Statement.HasFault (.block body) error

/-- What is wrong with the first of some statements that is not supported. -/
inductive FirstFault : List (Statement (Token α)) → EvaluationError α → Prop where
  | first {before after : List (Statement (Token α))} {tree : Statement (Token α)}
      {error : EvaluationError α} (supported : ∀ earlier ∈ before, earlier.Supported)
      (wrong : tree.HasFault error) : FirstFault (before ++ tree :: after) error

end

/-! ## Judgements -/

/-- The result is a value that the tree has, and the tree is supported; or it is a fault of the
tree, which is not supported. -/
inductive Judged (supported : Prop) (value : Value → Prop) (fault : EvaluationError α → Prop) :
    Except (EvaluationError α) Value → Prop where
  | ok {result : Value} (holds : supported) (known : value result) :
      Judged supported value fault (.ok result)
  | error {error : EvaluationError α} (fails : ¬ supported) (wrong : fault error) :
      Judged supported value fault (.error error)

/-- A judgement tells when there is a value, which one, and what is wrong otherwise. -/
theorem Judged.ok_iff {supported : Prop} {value : Value → Prop} {fault : EvaluationError α → Prop}
    {result : Except (EvaluationError α) Value} (judged : Judged supported value fault result) :
    ((∃ known, result = .ok known) ↔ supported) ∧ (∀ known, result = .ok known → value known) ∧
      ∀ error, result = .error error → fault error := by
  cases judged with
  | ok holds known =>
    refine ⟨⟨fun _ => holds, fun _ => ⟨_, rfl⟩⟩, ?_, nofun⟩
    rintro _ ⟨⟩
    exact known
  | error fails wrong =>
    refine ⟨⟨nofun, fun holds => absurd holds fails⟩, nofun, ?_⟩
    rintro _ ⟨⟩
    exact wrong

namespace Expression

variable {token : Token α} {operator : String} {operand : Expression (Token α)}

theorem supported_prefixed : (prefixed token operator operand).Supported ↔
    token.kind = .not ∧ operand.Supported := by
  constructor
  · intro all
    cases all with
    | negation isNot supported => exact ⟨isNot, supported⟩
  · rintro ⟨isNot, supported⟩
    exact .negation isNot supported

/-- A literal has no prefixes. -/
theorem prefixes_of_literal {tree : Expression τ} {value : Value}
    (isLiteral : tree.literal? = some value) : tree.prefixes = [] ∧ tree.core = tree := by
  cases tree with
  | integerLiteral _ _ => exact ⟨rfl, rfl⟩
  | booleanLiteral _ _ => exact ⟨rfl, rfl⟩
  | _ => cases isLiteral

theorem Supported.core_and_prefixes {tree : Expression (Token α)} (supported : tree.Supported) :
    (∃ value, tree.core.literal? = some value) ∧ ∀ token ∈ tree.prefixes, token.kind = .not := by
  induction supported with
  | integer _ value => exact ⟨⟨.integer value, rfl⟩, by simp [prefixes]⟩
  | boolean _ value => exact ⟨⟨.boolean value, rfl⟩, by simp [prefixes]⟩
  | negation isNot _ ih => exact ⟨ih.1, List.forall_mem_cons.mpr ⟨isNot, ih.2⟩⟩

/-- One more `!` turns the value round. -/
theorem HasValue.negation {value : Value} (known : operand.HasValue value) :
    (prefixed token operator operand).HasValue (.boolean !value.truthy) := by
  have negations {literal : Value} (isLiteral : operand.core.literal? = some literal) :
      (prefixed token operator operand).HasValue
        (.boolean (not^[operand.prefixes.length + 1] literal.truthy)) :=
    .negations isLiteral (List.cons_ne_nil token operand.prefixes)
  cases known with
  | literal isLiteral =>
    obtain ⟨none_before, same⟩ := prefixes_of_literal isLiteral
    rw [← same] at isLiteral
    simpa [none_before] using negations isLiteral
  | negations isLiteral _ =>
    rw [Value.truthy, ← Function.iterate_succ_apply' not]
    exact negations isLiteral

/-- A prefix does not hide what is wrong with the operand. -/
theorem HasFault.behind {error : EvaluationError α} (wrong : operand.HasFault error) :
    (prefixed token operator operand).HasFault error := by
  cases wrong with
  | core noLiteral => exact .core noLiteral
  | @sign _ outer inner other isLiteral parts notNot innermost =>
    have more : (prefixed token operator operand).prefixes =
        (token :: outer) ++ other :: inner := by
      rw [prefixes, parts, List.cons_append]
    exact .sign isLiteral more notNot innermost

/-- The induction is on the expression: its operand is judged before its sign is. -/
theorem judged_evaluate : (tree : Expression (Token α)) →
    Judged tree.Supported tree.HasValue tree.HasFault tree.evaluate.result
  | .integerLiteral token value => .ok (.integer token value) (.literal rfl)
  | .booleanLiteral token value => .ok (.boolean token value) (.literal rfl)
  | .prefixed token operator operand => by
    have judged := operand.judged_evaluate
    rw [evaluate, Evaluation.result_andThen]
    generalize operand.evaluate.result = result at judged
    cases judged with
    | @ok value supported known =>
      by_cases isNot : token.kind = .not
      · simp only [Except.bind, if_pos isNot]
        exact .ok (.negation isNot supported) known.negation
      · simp only [Except.bind, if_neg isNot]
        obtain ⟨⟨literal, isLiteral⟩, innermost⟩ := supported.core_and_prefixes
        refine .error (fun all => isNot (supported_prefixed.mp all).1) ?_
        have parts : (prefixed token operator operand).prefixes = [] ++ token :: operand.prefixes :=
          rfl
        exact .sign isLiteral parts isNot innermost
    | error fails wrong =>
      exact .error (fun all => fails (supported_prefixed.mp all).2) wrong.behind
  | .identifier _ => .error nofun (.core rfl)
  | .infixed _ _ _ _ => .error nofun (.core rfl)
  | .conditional _ _ _ _ => .error nofun (.core rfl)
  | .function _ _ _ => .error nofun (.core rfl)
  | .call _ _ _ => .error nofun (.core rfl)

end Expression

theorem Statement.supported_expression {token : Token α} {value : Expression (Token α)} :
    (expression token value).Supported ↔ value.Supported := by
  constructor
  · intro all
    cases all with
    | expression _ supported => exact supported
  · exact .expression token

theorem Statement.supported_block {body : Block (Token α)} :
    (block body).Supported ↔ ∀ tree ∈ body.statements, tree.Supported := by
  constructor
  · intro all
    cases all with
    | block supported => exact supported
  · exact .block

theorem LastValue.cons {before value result : Value} {tree : Statement (Token α)}
    {trees : List (Statement (Token α))} (known : tree.HasValue value)
    (following : LastValue value trees result) : LastValue before (tree :: trees) result := by
  cases following with
  | none _ => exact .last before [] known
  | last _ others known_last => exact .last before (tree :: others) known_last

/-- A supported statement more in front leaves the first fault the first. -/
theorem FirstFault.cons {tree : Statement (Token α)} {trees : List (Statement (Token α))}
    {error : EvaluationError α} (supported : tree.Supported) (wrong : FirstFault trees error) :
    FirstFault (tree :: trees) error := by
  cases wrong with
  | @first before after other _ earlier wrong =>
    show FirstFault ((tree :: before) ++ other :: after) error
    exact .first (List.forall_mem_cons.mpr ⟨supported, earlier⟩) wrong

mutual

theorem Statement.judged_evaluate : (tree : Statement (Token α)) →
    Judged tree.Supported tree.HasValue tree.HasFault tree.evaluate.result
  | .binding token name value => .error nofun (.binding token name value)
  | .returning token value => .error nofun (.returning token value)
  | .expression token value => by
    have judged := value.judged_evaluate
    rw [Statement.evaluate]
    generalize value.evaluate.result = result at judged
    cases judged with
    | ok supported known => exact .ok (.expression token supported) (.expression token known)
    | error fails wrong =>
      refine .error (fun all => fails (Statement.supported_expression.mp all)) ?_
      exact .expression token wrong
  | .block body => by
    have judged := body.judged_evaluate
    rw [Statement.evaluate]
    generalize body.evaluate.result = result at judged
    cases judged with
    | ok supported known => exact .ok (.block supported) (.block known)
    | error fails wrong =>
      exact .error (fun all => fails (Statement.supported_block.mp all)) (.block wrong)

/-- Statements are judged one after another, and those after a fault not at all. -/
theorem judged_evaluateStatements : (before : Value) → (trees : List (Statement (Token α))) →
    Judged (∀ tree ∈ trees, tree.Supported) (LastValue before trees) (FirstFault trees)
      (evaluateStatements before trees).result
  | before, [] => .ok (by simp) (.none before)
  | before, tree :: trees => by
    have judged := tree.judged_evaluate
    rw [evaluateStatements, Evaluation.result_andThen]
    generalize tree.evaluate.result = result at judged
    cases judged with
    | @ok value supported known =>
      show Judged _ _ _ (evaluateStatements value trees).result
      have others := judged_evaluateStatements value trees
      generalize (evaluateStatements value trees).result = last at others
      cases others with
      | ok all following =>
        exact .ok (List.forall_mem_cons.mpr ⟨supported, all⟩) (.cons known following)
      | error fails wrong =>
        exact .error (fun all => fails (List.forall_mem_cons.mp all).2) (.cons supported wrong)
    | error fails wrong =>
      refine .error (fun all => fails (List.forall_mem_cons.mp all).1) ?_
      show FirstFault ([] ++ tree :: trees) _
      exact .first (by simp) wrong

theorem Block.judged_evaluate : (tree : Block (Token α)) →
    Judged (∀ statement ∈ tree.statements, statement.Supported) (LastValue .null tree.statements)
      (FirstFault tree.statements) tree.evaluate.result
  | .mk _ statements => judged_evaluateStatements .null statements

end

/-- A program or a block has a value if all of its statements are supported, and only then: the
value of the last of them. Otherwise the error says what is wrong with the first of them that is
not. -/
theorem evaluate_ok_iff_supported :
    (∀ program : Program (Token α),
      ((∃ value, program.evaluate.result = .ok value) ↔
        ∀ tree ∈ program.statements, tree.Supported) ∧
      (∀ value, program.evaluate.result = .ok value →
        LastValue .null program.statements value) ∧
      ∀ error, program.evaluate.result = .error error →
        FirstFault program.statements error) ∧
    ∀ block : Block (Token α),
      ((∃ value, block.evaluate.result = .ok value) ↔
        ∀ tree ∈ block.statements, tree.Supported) ∧
      (∀ value, block.evaluate.result = .ok value → LastValue .null block.statements value) ∧
      ∀ error, block.evaluate.result = .error error → FirstFault block.statements error :=
  ⟨fun program => (judged_evaluateStatements .null program.statements).ok_iff,
    fun block => block.judged_evaluate.ok_iff⟩

/-- The minus is at fault, whatever the operators say, behind a statement that is supported. -/
example : let minus : Token Nat := ⟨.minus, "-", 4⟩
    let one : Expression (Token Nat) := .integerLiteral ⟨.integer, "1", 6⟩ 1
    let truth : Expression (Token Nat) := .booleanLiteral ⟨.trueWord, "true", 1⟩ true
    let wrong : Expression (Token Nat) :=
      .prefixed ⟨.not, "!", 3⟩ "-" (.prefixed minus "!" (.prefixed ⟨.not, "!", 5⟩ "!" one))
    let inner : Block (Token Nat) := .mk ⟨.leftBrace, "\x7b", 2⟩ [.expression minus wrong]
    (Block.mk ⟨.leftBrace, "\x7b", 0⟩ [.expression minus truth, .block inner]).evaluate.result =
      .error (.unsupportedOperator "-" 4) := rfl

end Scriptlet
