import Scriptlet.Proofs.Composition

/-!
# Problems and statements that are left out

A statement that is left out has one problem, and there are no problems but these. A problem ends
whatever is being read, up to the list of statements in which it stands; so an attempt that fails
has one problem more than the statements that were left out within it, and an attempt that succeeds
has as many. `Attempt.Balanced` says so of one attempt, and has one rule for each operation that
attempts are put together by.
-/

namespace Scriptlet

variable {α β γ : Type}

/-- The event is that a statement is left out. -/
def ParseEvent.dropped : ParseEvent α → Bool
  | .settled false _ => true
  | _ => false

namespace Attempt

variable {stream : TokenStream α}

/-- There is a problem for every statement that was left out on the way, and one more if the attempt
fails. -/
def Balanced (attempt : Attempt stream β) : Prop :=
  attempt.problems.length =
    attempt.log.countP ParseEvent.dropped + if attempt.value.isNone then 1 else 0

theorem balanced_give (value : β) : (give value : Attempt stream β).Balanced := rfl

theorem balanced_refuse (problem : Problem α) : (refuse problem : Attempt stream β).Balanced := rfl

theorem balanced_noting {event : ParseEvent α} {attempt : Attempt stream β}
    (silent : event.problem? = none) (kept : event.dropped = false)
    (balanced : attempt.Balanced) : (attempt.noting event).Balanced := by
  unfold Balanced at balanced ⊢
  rw [problems_noting, silent, Option.toList_none, List.nil_append, balanced]
  simp [noting, kept]

theorem balanced_moving {attempt : Attempt stream.advance β} (balanced : attempt.Balanced) :
    attempt.moving.Balanced := by
  unfold Balanced at balanced ⊢
  rw [problems_moving, balanced]
  simp [moving, ParseEvent.dropped]

theorem balanced_map (f : β → γ) {attempt : Attempt stream β} (balanced : attempt.Balanced) :
    (attempt.map f).Balanced := by
  unfold Balanced at balanced ⊢
  rw [problems_map, balanced]
  simp [map]

/-- Only the last attempt may be without a value; any before it has as many problems as statements
it left out. -/
theorem balanced_andThen {attempt : Attempt stream β}
    {next : β → (rest : TokenStream α) → rest.size ≤ stream.size → Attempt rest γ}
    (balanced : attempt.Balanced)
    (balanced_next : ∀ value rest shorter, (next value rest shorter).Balanced) :
    (attempt.andThen next).Balanced := by
  unfold Balanced at balanced ⊢
  cases given : attempt.value with
  | none =>
    rw [problems_andThen_none given, log_andThen_none given, value_andThen_none given, balanced,
      given]
    rfl
  | some value =>
    have following := balanced_next value attempt.rest attempt.size_le
    unfold Balanced at following
    rw [problems_andThen_some given, log_andThen_some given, value_andThen_some given,
      List.length_append, balanced, following, List.countP_append, given]
    simp [Nat.add_assoc]

/-- Whatever fails is accounted for by the statement that is left out. -/
theorem balanced_settle {attempt : Attempt stream β} (balanced : attempt.Balanced) :
    attempt.settle.Balanced := by
  unfold Balanced at balanced ⊢
  rw [problems_settle, balanced]
  cases given : attempt.value <;> simp [settle, given, ParseEvent.dropped]

/-- Every way to put attempts together keeps the balance, and there is nothing more to it. -/
theorem compositional_balanced :
    Compositional (fun (_ : TokenStream α) _ attempt => attempt.Balanced)
      fun _ attempt => attempt.Balanced where
  give _ _ value := balanced_give value
  unexpected _ _ _ _ := balanced_refuse _
  noExpression _ _ _ := balanced_refuse _
  tooLarge _ _ _ := balanced_refuse _
  entered _ balanced := balanced_noting rfl rfl balanced
  moving := balanced_moving
  map f balanced := balanced_map f balanced
  andThen := balanced_andThen
  more balanced balanced_next :=
    balanced_andThen (balanced_settle balanced) fun _ rest shorter =>
      balanced_moving (balanced_map _ (balanced_next rest shorter))
  block _ balanced := balanced_noting rfl rfl (balanced_moving (balanced_map _ balanced))
  bodyDone _ _ := balanced_noting rfl rfl (balanced_give [])
  bodyMore _ balanced balanced_next :=
    balanced_andThen (balanced_settle balanced) fun _ rest shorter =>
      balanced_moving (balanced_map _ (balanced_next rest shorter))

end Attempt

/-- Every problem of a text is that of one statement that is left out, wherever the reading begins:
there are as many problems as statements left out, at any depth, and none if and only if no
statement is. Reading one statement or one expression reports one problem for each statement that is
left out within it, and one more if and only if it fails itself. -/
theorem length_problems_eq_dropped :
    (∀ (text path : String) (taken : Nat),
      let parser := (Parser.ofCursor ((Cursor.ofText text path).nextMany taken).2).program.2
      parser.problems.length = parser.log.countP ParseEvent.dropped ∧
        (parser.problems = [] ↔ ∀ event ∈ parser.log, event.dropped = false)) ∧
    (∀ stream : TokenStream α, (Parse.statement stream).Balanced) ∧
    ∀ (precedence : Precedence) (stream : TokenStream α),
      (Parse.expression precedence stream).Balanced := by
  have rules {τ : Type} := Attempt.compositional_balanced (α := τ)
  refine ⟨fun text path taken => ?_, rules.statement, rules.expression⟩
  intro parser
  let stream := TokenStream.ofCursor ((Cursor.ofText text path).nextMany taken).2
  have balanced_stream : (Parse.statements stream).problems.length =
      (Parse.statements stream).log.countP ParseEvent.dropped := by
    obtain ⟨trees, given⟩ := Parse.exists_value_statements stream
    simpa [Attempt.Balanced, given] using rules.statements stream
  have balanced : parser.problems.length = parser.log.countP ParseEvent.dropped := balanced_stream
  refine ⟨balanced, ?_⟩
  calc parser.problems = []
      ↔ parser.problems.length = 0 := List.length_eq_zero_iff.symm
    _ ↔ parser.log.countP ParseEvent.dropped = 0 := by rw [balanced]
    _ ↔ ∀ event ∈ parser.log, event.dropped = false := by simp [List.countP_eq_zero]

end Scriptlet
