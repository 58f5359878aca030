import Mathlib.Data.List.Forall2
import Scriptlet.Trace

/-!
# Accounts

The log of an evaluation gives an account of it. A statement is entered when it has been evaluated,
with its value and after the statements of its block; an error is entered last, and nothing else is.
So the log names the statements up to the first one without a value, in the order in which they are
done with, and whether there was such a statement.
-/

namespace Scriptlet

variable {α τ : Type}

mutual

/-- The statement, and before it the statements at every depth of it if it is a block. -/
def Statement.postorder : Statement τ → List (Statement τ)
  | .binding token name value => [.binding token name value]
  | .returning token value => [.returning token value]
  | .expression token value => [.expression token value]
  | .block body => body.postorder ++ [.block body]

/-- The statements at every depth, those of a block before the block. -/
def postorderStatements : List (Statement τ) → List (Statement τ)
  | [] => []
  | tree :: trees => tree.postorder ++ postorderStatements trees

/-- The statements at every depth of a block. -/
def Block.postorder : Block τ → List (Statement τ)
  | .mk _ statements => postorderStatements statements

end

/-- The statement by itself has the value. -/
def Statement.Gives (tree : Statement (Token α)) (value : Value) : Prop :=
  tree.evaluate.result = .ok value

/-- The evaluation goes through statements in their order and enters their values. If all of them
have one it has a value too, and otherwise it ends with the error of the first that has none. -/
inductive Accounts : List (Statement (Token α)) → Evaluation α → Prop where
  | finished {order : List (Statement (Token α))} {values : List Value} (value : Value)
      (all : List.Forall₂ Statement.Gives order values) :
      Accounts order ⟨.ok value, values.map .evaluated⟩
  | stopped {before : List (Statement (Token α))} {values : List Value}
      {tree : Statement (Token α)} {error : EvaluationError α}
      (done : List.Forall₂ Statement.Gives before values)
      (fails : tree.evaluate.result = .error error) (after : List (Statement (Token α))) :
      Accounts (before ++ tree :: after)
        ⟨.error error, values.map .evaluated ++ [.stopped error]⟩

namespace Accounts

theorem give (value : Value) : Accounts ([] : List (Statement (Token α))) (.give value) :=
  .finished value .nil

/-- What comes behind an error does not matter. -/
theorem andThen {order more : List (Statement (Token α))} {evaluation : Evaluation α}
    {next : Value → Evaluation α} (accounts : Accounts order evaluation)
    (accounts_next : ∀ value, evaluation.result = .ok value → Accounts more (next value)) :
    Accounts (order ++ more) (evaluation.andThen next) := by
  cases accounts with
  | @finished _ values value all =>
    have following := accounts_next value rfl
    show Accounts _ ⟨(next value).result, values.map .evaluated ++ (next value).log⟩
    generalize next value = onward at following
    -- What is done first stays done if the error comes later.
    cases following with
    | @finished _ others last all_others =>
      rw [← List.map_append]
      exact .finished last (List.rel_append all all_others)
    | @stopped before others tree error done fails after =>
      rw [← List.append_assoc, ← List.append_assoc, ← List.map_append]
      exact .stopped (List.rel_append all done) fails after
  | @stopped before values tree error done fails after =>
    rw [List.append_assoc, List.cons_append]
    exact .stopped done fails (after ++ more)

end Accounts

/-- An expression is evaluated in silence, but for an error. -/
theorem Expression.evaluate_silent : (tree : Expression (Token α)) →
    (∃ value, tree.evaluate = .give value) ∨ ∃ error, tree.evaluate = .stop error
  | .integerLiteral _ value => .inl ⟨.integer value, rfl⟩
  | .booleanLiteral _ value => .inl ⟨.boolean value, rfl⟩
  | .prefixed token operator operand => by
    rw [evaluate]
    rcases operand.evaluate_silent with ⟨value, given⟩ | ⟨error, stopped⟩
    · rw [given]
      by_cases isNot : token.kind = .not
      · left
        refine ⟨.boolean !value.truthy, ?_⟩
        simp [Evaluation.andThen, Evaluation.give, isNot]
      · right
        refine ⟨.unsupportedOperator token.literal token.location, ?_⟩
        simp [Evaluation.andThen, Evaluation.give, Evaluation.stop, isNot]
    · rw [stopped]
      exact .inr ⟨error, rfl⟩
  | .identifier name => .inr ⟨.unsupported .identifier name.token.location, rfl⟩
  | .infixed token _ _ _ => .inr ⟨.unsupported .infixed token.location, rfl⟩
  | .conditional token _ _ _ => .inr ⟨.unsupported .conditional token.location, rfl⟩
  | .function token _ _ => .inr ⟨.unsupported .function token.location, rfl⟩
  | .call token _ _ => .inr ⟨.unsupported .call token.location, rfl⟩

/-- The evaluation of a statement with the entry that is made behind it. -/
def Statement.entered (tree : Statement (Token α)) : Evaluation α :=
  tree.evaluate.andThen fun value => .noting value (.give value)

theorem evaluateStatements_entered (last : Value) (tree : Statement (Token α))
    (trees : List (Statement (Token α))) : evaluateStatements last (tree :: trees) =
      tree.entered.andThen fun value => evaluateStatements value trees := by
  rw [evaluateStatements, Statement.entered]
  unfold Evaluation.andThen
  cases tree.evaluate.result with
  | error error => rfl
  | ok value => simp [Evaluation.noting, Evaluation.give]

/-- A statement that is evaluated in silence is the only one of its account. -/
theorem Statement.accounts_of_silent {tree : Statement (Token α)}
    (silent : (∃ value, tree.evaluate = .give value) ∨ ∃ error, tree.evaluate = .stop error) :
    Accounts [tree] tree.entered := by
  unfold entered
  rcases silent with ⟨value, given⟩ | ⟨error, stopped⟩
  · have gives : tree.Gives value := by rw [Gives, given]; rfl
    rw [given]
    exact .finished value (.cons gives .nil)
  · have fails : tree.evaluate.result = .error error := by rw [stopped]; rfl
    rw [stopped]
    exact .stopped .nil fails []

/-- A block is entered with its value, behind all that is in it. -/
theorem Accounts.block {body : Block (Token α)} (accounts : Accounts body.postorder body.evaluate) :
    Accounts (body.postorder ++ [.block body]) (Statement.block body).entered := by
  refine accounts.andThen fun value given => ?_
  have gives : (Statement.block body).Gives value := given
  exact .finished value (.cons gives .nil)

mutual

/-- What a statement and its entry say accounts for the statement and all statements inside it; the
induction is on the tree. -/
theorem Statement.accounts_entered : (tree : Statement (Token α)) →
    Accounts tree.postorder tree.entered
  | .binding token _ _ =>
    Statement.accounts_of_silent (.inr ⟨.unsupported .binding token.location, rfl⟩)
  | .returning token _ =>
    Statement.accounts_of_silent (.inr ⟨.unsupported .returning token.location, rfl⟩)
  | .expression _ value => Statement.accounts_of_silent value.evaluate_silent
  | .block body => body.accounts_evaluate.block

/-- The value before the first statement has no part in the account. -/
theorem accounts_evaluateStatements : (last : Value) → (trees : List (Statement (Token α))) →
    Accounts (postorderStatements trees) (evaluateStatements last trees)
  | last, [] => .give last
  | last, tree :: trees => by
    rw [evaluateStatements_entered]
    exact tree.accounts_entered.andThen fun value _ => accounts_evaluateStatements value trees

theorem Block.accounts_evaluate : (tree : Block (Token α)) →
    Accounts tree.postorder tree.evaluate
  | .mk _ statements => accounts_evaluateStatements .null statements

end

/-! ## Records -/

/-- The record of the value of a statement. -/
def Value.record (value : Value) : Record :=
  ⟨.trace, [("message", "evaluated statement"), ("result", value.text)]⟩

/-- The record of an error: what it stopped at, and where. -/
def EvaluationError.record (error : EvaluationError Location) : Record :=
  match error with
  | .unsupported _ _ =>
    ⟨.debug, [("message", "unsupported node"), ("kind", error.detail),
      ("location", error.location.text)]⟩
  | .unsupportedOperator _ _ =>
    ⟨.debug, [("message", "unsupported prefix operator"), ("operator", error.detail),
      ("location", error.location.text)]⟩

theorem EvaluationError.level_record (error : EvaluationError Location) :
    error.record.level = .debug := by
  cases error <;> rfl

theorem EvaluationEvent.record_stopped (error : EvaluationError Location) :
    (stopped error).record = error.record := by
  cases error <;> rfl

theorem map_record_evaluated (values : List Value) :
    (values.map EvaluationEvent.evaluated).map EvaluationEvent.record =
      values.map Value.record :=
  List.map_map ..

theorem level_of_mem_values {values : List Value} {record : Record}
    (member : record ∈ values.map Value.record) : record.level = .trace := by
  obtain ⟨_, -, rfl⟩ := List.mem_map.mp member
  rfl

theorem quiet_values (values : List Value) :
    ∀ record ∈ values.map Value.record, record.level ≠ .debug := by
  intro record member
  rw [level_of_mem_values member]
  decide

theorem filter_trace_values (values : List Value) :
    (values.map Value.record).filter (·.level = .trace) = values.map Value.record :=
  List.filter_eq_self.mpr fun _ member => decide_eq_true (level_of_mem_values member)

namespace Evaluation

/-- The record of an evaluation. -/
def records (evaluation : Evaluation Location) : List Record :=
  evaluation.log.map EvaluationEvent.record

/-- The record of an evaluation says what came of it, where `order` are the statements in the order
in which they are done with. -/
structure Mirrored (order : List (Statement (Token Location)))
    (evaluation : Evaluation Location) : Prop where
  quiet_iff : (∃ value, evaluation.result = .ok value) ↔
    ∀ record ∈ evaluation.records, record.level ≠ .debug
  error_last : ∀ error, evaluation.result = .error error → ∃ earlier,
    evaluation.records = earlier ++ [error.record] ∧ ∀ record ∈ earlier, record.level ≠ .debug
  evaluated : ∃ done left, order = done ++ left ∧
    List.Forall₂ (fun tree record => ∃ value, tree.Gives value ∧ record = value.record) done
      (evaluation.records.filter (·.level = .trace)) ∧
    (∀ value, evaluation.result = .ok value → left = []) ∧
    ∀ error, evaluation.result = .error error →
      ∃ tree others, left = tree :: others ∧ tree.evaluate.result = .error error

end Evaluation

theorem forall₂_records {trees : List (Statement (Token Location))} {values : List Value}
    (all : List.Forall₂ Statement.Gives trees values) :
    List.Forall₂ (fun tree record => ∃ value, tree.Gives value ∧ record = value.record) trees
      (values.map Value.record) :=
  List.forall₂_map_right_iff.mpr (all.imp fun _ value gives => ⟨value, gives, rfl⟩)

theorem Accounts.mirrored {order : List (Statement (Token Location))}
    {evaluation : Evaluation Location} (accounts : Accounts order evaluation) :
    evaluation.Mirrored order := by
  cases accounts with
  | @finished _ values value all =>
    have records_eq : Evaluation.records ⟨.ok value, values.map .evaluated⟩ =
        values.map Value.record := map_record_evaluated values
    refine ⟨?_, nofun, order, [], (List.append_nil order).symm, ?_, fun _ _ => rfl, nofun⟩
    · rw [records_eq]
      exact iff_of_true ⟨value, rfl⟩ (quiet_values values)
    · rw [records_eq, filter_trace_values]
      exact forall₂_records all
  | @stopped before values tree error done fails after =>
    have records_eq : Evaluation.records ⟨.error error, values.map .evaluated ++ [.stopped error]⟩ =
        values.map Value.record ++ [error.record] := by
      rw [Evaluation.records, List.map_append, map_record_evaluated, List.map_singleton,
        EvaluationEvent.record_stopped]
    refine ⟨?_, ?_, before, tree :: after, rfl, ?_, nofun, ?_⟩
    · rw [records_eq]
      refine iff_of_false nofun fun all => ?_
      exact all error.record (by simp) error.level_record
    · rintro _ ⟨⟩
      exact ⟨_, records_eq, quiet_values values⟩
    · have unlisted : [error.record].filter (·.level = .trace) = [] := by
        simp [error.level_record]
      rw [records_eq, List.filter_append, filter_trace_values, unlisted, List.append_nil]
      exact forall₂_records done
    · rintro _ ⟨⟩
      exact ⟨tree, after, rfl, fails⟩

/-- The record of evaluating a program or a block mirrors the result. There is an error in it
exactly if there is one as the result; it is the same one, it is the only one, and nothing comes
after it. Before it stand the statements at every depth that were done with, each with the value
that it has by itself, those of a block before the block: all of them if there is no error, and
otherwise those before the statement that the error comes from. -/
theorem evaluate_mirrored :
    (∀ program : Program (Token Location),
      program.evaluate.Mirrored (postorderStatements program.statements)) ∧
    ∀ block : Block (Token Location), block.evaluate.Mirrored block.postorder :=
  ⟨fun program => (accounts_evaluateStatements .null program.statements).mirrored,
    fun block => block.accounts_evaluate.mirrored⟩

/-- A `return` in a block leaves the entry of the empty block before it and that of the statement
before its own block. -/
example : let place : Location := ⟨"p", 1, 1⟩
    let token : Token Location := ⟨.integer, "1", place⟩
    let one : Statement (Token Location) := .expression token (.integerLiteral token 1)
    let inner : Statement (Token Location) := .block (.mk token [])
    let broken : Statement (Token Location) := .returning token none
    (Program.mk [one, .block (.mk token [inner, broken]), one]).evaluate.records =
      [Value.record (.integer 1), Value.record .null,
        (EvaluationError.unsupported .returning place).record] := rfl

end Scriptlet
