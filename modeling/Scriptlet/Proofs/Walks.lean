import Scriptlet.Proofs.Composition

/-!
# Walks

The log of an attempt is the record of a walk over the token stream. The parser stands on a token
and sees the next one. It goes on by one token at a time, and every event names the token at which
the parser stands or, if another token was wanted there, the next one. A problem ends whatever is
being read, so there is none after it before the next step.

`ParseEvent.Occurs` says what one event means, and `Walk` what a log does; every attempt of the
parser is a walk to where it ends.
-/

namespace Scriptlet

variable {α β γ : Type}

namespace TokenStream

/-- The stream without its first so many tokens. -/
def drop (stream : TokenStream α) (count : Nat) : TokenStream α :=
  { stream with pending := stream.pending.drop count }

variable (stream : TokenStream α)

@[simp] theorem drop_zero : stream.drop 0 = stream := rfl

@[simp] theorem drop_advance (count : Nat) :
    stream.advance.drop count = stream.drop (count + 1) := by
  simp [drop, advance]

@[simp] theorem advance_drop (count : Nat) :
    (stream.drop count).advance = stream.drop (count + 1) := by
  simp [drop, advance]

@[simp] theorem size_drop (count : Nat) : (stream.drop count).size = stream.size - count := by
  simp [drop, size]

end TokenStream

/-- The event is a step to the next token. -/
def ParseEvent.isStep : ParseEvent α → Bool
  | .moved _ => true
  | _ => false

/-- How many steps are in a log. -/
def steps (log : List (ParseEvent α)) : Nat := log.countP ParseEvent.isStep

@[simp] theorem steps_moved (token : Token α) (log : List (ParseEvent α)) :
    steps (.moved token :: log) = steps log + 1 :=
  List.countP_cons_of_pos rfl

theorem steps_of_isStep_false {event : ParseEvent α} (still : event.isStep = false)
    (log : List (ParseEvent α)) : steps (event :: log) = steps log := by
  simp [steps, still]

theorem steps_append (log more : List (ParseEvent α)) :
    steps (log ++ more) = steps log + steps more :=
  List.countP_append

/-- What is left of the stream where a parser stands, and whether it has come there since it found
its last problem. -/
structure Standing (α : Type) where
  stream : TokenStream α
  fresh : Bool

/-- The event is true of a parser that stands at the first place, and leaves it at the second. -/
inductive ParseEvent.Occurs : ParseEvent α → Standing α → Standing α → Prop where
  | moved (stream : TokenStream α) (fresh : Bool) :
      Occurs (.moved stream.peek) ⟨stream, fresh⟩ ⟨stream.advance, true⟩
  | entered (precedence : Precedence) (stream : TokenStream α) (fresh : Bool) :
      Occurs (.entered precedence stream.current) ⟨stream, fresh⟩ ⟨stream, fresh⟩
  | unexpected {kind : Kind} {stream : TokenStream α} (differs : stream.peek.kind ≠ kind) :
      Occurs (.reported (.unexpected kind stream.peek)) ⟨stream, true⟩ ⟨stream, false⟩
  | noExpression {stream : TokenStream α} (unfit : stream.current.kind ∉ Parse.operandKinds) :
      Occurs (.reported (.noExpression stream.current)) ⟨stream, true⟩ ⟨stream, false⟩
  | tooLarge {stream : TokenStream α} (isInteger : stream.current.kind = .integer) :
      Occurs (.reported (.tooLarge stream.current)) ⟨stream, true⟩ ⟨stream, false⟩
  | settled (kept : Bool) (stream : TokenStream α) (fresh : Bool) :
      Occurs (.settled kept stream.current) ⟨stream, fresh⟩ ⟨stream, fresh⟩
  | opened (stream : TokenStream α) (fresh : Bool) :
      Occurs (.opened stream.current) ⟨stream, fresh⟩ ⟨stream, fresh⟩
  | closed (stream : TokenStream α) (fresh : Bool) :
      Occurs (.closed stream.current) ⟨stream, fresh⟩ ⟨stream, fresh⟩

/-- The events occur one after the other and lead from one place to another. -/
inductive Walk : Standing α → List (ParseEvent α) → Standing α → Prop where
  | stay (place : Standing α) : Walk place [] place
  | step {event : ParseEvent α} {log : List (ParseEvent α)} {place next last : Standing α}
      (occurs : event.Occurs place next) (onward : Walk next log last) :
      Walk place (event :: log) last

namespace Walk

variable {place last : Standing α} {log more : List (ParseEvent α)}

theorem append {middle : Standing α} (walk : Walk place log middle)
    (onward : Walk middle more last) : Walk place (log ++ more) last := by
  induction walk with
  | stay _ => exact onward
  | step occurs _ ih => exact .step occurs (ih onward)

/-- A walk may be looked at in the middle. -/
theorem split (walk : Walk place (log ++ more) last) :
    ∃ middle, Walk place log middle ∧ Walk middle more last := by
  induction log generalizing place with
  | nil => exact ⟨place, .stay place, walk⟩
  | cons event log ih =>
    cases walk with
    | step occurs onward =>
      obtain ⟨middle, first, second⟩ := ih onward
      exact ⟨middle, .step occurs first, second⟩

/-- Only steps make a difference to where the parser stands, and each is a step to the next token. -/
theorem stream_eq (walk : Walk place log last) : last.stream = place.stream.drop (steps log) := by
  induction walk with
  | stay place => exact (place.stream.drop_zero).symm
  | step occurs _ ih =>
    rw [ih]
    cases occurs with
    | moved stream _ => rw [steps_moved, TokenStream.drop_advance]
    | _ => rw [steps_of_isStep_false rfl]

/-- An event occurs where the steps before it lead to. -/
theorem exists_occurs {event : ParseEvent α} (walk : Walk place (log ++ event :: more) last) :
    ∃ fresh next, event.Occurs ⟨place.stream.drop (steps log), fresh⟩ next := by
  obtain ⟨⟨stream, fresh⟩, first, second⟩ := walk.split
  obtain rfl : stream = place.stream.drop (steps log) := first.stream_eq
  cases second with
  | step occurs _ => exact ⟨fresh, _, occurs⟩

end Walk

namespace Attempt

variable {stream : TokenStream α}

/-- The log leads from the beginning of the attempt to its end, and the last thing in it is a problem
exactly if the attempt fails. -/
def Walked (attempt : Attempt stream β) : Prop :=
  Walk ⟨stream, true⟩ attempt.log ⟨attempt.rest, attempt.value.isSome⟩

theorem walked_give (value : β) : (give value : Attempt stream β).Walked :=
  .stay _

/-- A problem stops the walk where it is. -/
theorem walked_refuse {problem : Problem α}
    (occurs : (ParseEvent.reported problem).Occurs ⟨stream, true⟩ ⟨stream, false⟩) :
    (refuse problem : Attempt stream β).Walked :=
  .step occurs (.stay _)

theorem walked_noting {event : ParseEvent α} {attempt : Attempt stream β}
    (occurs : event.Occurs ⟨stream, true⟩ ⟨stream, true⟩) (walked : attempt.Walked) :
    (attempt.noting event).Walked :=
  .step occurs walked

theorem walked_moving {attempt : Attempt stream.advance β} (walked : attempt.Walked) :
    attempt.moving.Walked :=
  .step (.moved stream true) walked

theorem walked_map (f : β → γ) {attempt : Attempt stream β} (walked : attempt.Walked) :
    (attempt.map f).Walked := by
  unfold Walked at walked ⊢
  simpa [map] using walked

/-- Where the first walk ends with a value, the second one begins. -/
theorem walked_andThen {attempt : Attempt stream β}
    {next : β → (rest : TokenStream α) → rest.size ≤ stream.size → Attempt rest γ}
    (walked : attempt.Walked)
    (walked_next : ∀ value rest shorter, (next value rest shorter).Walked) :
    (attempt.andThen next).Walked := by
  unfold Walked at walked ⊢
  cases given : attempt.value with
  | none =>
    rw [log_andThen_none given, rest_andThen_none given, value_andThen_none given]
    rwa [given] at walked
  | some value =>
    rw [log_andThen_some given, rest_andThen_some given, value_andThen_some given]
    rw [given] at walked
    exact walked.append (walked_next value _ _)

/-- The step behind a statement is a new beginning, whether the statement was kept or not. -/
theorem walked_more {attempt : Attempt stream (Statement (Token α))}
    {next : (rest : TokenStream α) → Attempt rest.advance (List (Statement (Token α)))}
    (walked : attempt.Walked)
    (walked_next : ∀ rest : TokenStream α, rest.size ≤ stream.size → (next rest).Walked) :
    (attempt.settle.andThen fun tree rest _ =>
      .moving ((next rest).map (tree.toList ++ ·))).Walked := by
  unfold Walked
  rw [log_andThen_some rfl, rest_andThen_some rfl, value_andThen_some rfl]
  have onward := walked_map (attempt.value.toList ++ ·) (walked_next attempt.rest attempt.size_le)
  have settled : Walk ⟨stream, true⟩ attempt.settle.log ⟨attempt.rest, attempt.value.isSome⟩ :=
    Walk.append walked (.step (.settled _ _ _) (.stay _))
  exact settled.append (.step (.moved _ _) onward)

/-- Every way to put attempts together walks. -/
theorem compositional_walked :
    Compositional (fun (_ : TokenStream α) _ attempt => attempt.Walked)
      fun _ attempt => attempt.Walked where
  give _ _ value := walked_give value
  unexpected _ _ _ differs := walked_refuse (.unexpected differs)
  noExpression _ _ unfit := walked_refuse (.noExpression unfit)
  tooLarge _ _ isInteger := walked_refuse (.tooLarge isInteger)
  entered precedence walked := walked_noting (.entered precedence _ true) walked
  moving := walked_moving
  map f walked := walked_map f walked
  andThen := walked_andThen
  more := walked_more
  block _ walked := walked_noting (.opened _ true) (walked_moving (walked_map _ walked))
  bodyDone _ _ := walked_noting (.closed _ true) (walked_give [])
  bodyMore _ := walked_more

end Attempt

end Scriptlet
