import Scriptlet.Proofs.Parallel

/-!
# Marks

A token carries a mark of its place, and the parser never looks at it. So changing the marks of a
token stream changes the marks of what is read from it, in the tree, in the log and in the tokens
that are left, and nothing else. `Attempt.Image` says that one attempt is another with its marks
changed, and `parallel_marked` that this is so of two readings in parallel.
-/

namespace Scriptlet

variable {α β γ δ ε ζ : Type}

/-- The stream with other marks. -/
def TokenStream.mapMarks (f : α → β) (stream : TokenStream α) : TokenStream β :=
  ⟨stream.pending.map (Token.mapMark f), f stream.stop⟩

namespace TokenStream

variable (f : α → β) (stream : TokenStream α)

@[simp] theorem advance_mapMarks : (stream.mapMarks f).advance = stream.advance.mapMarks f := by
  simp [advance, mapMarks]

@[simp] theorem current_mapMarks : (stream.mapMarks f).current = stream.current.mapMark f := by
  rcases stream with ⟨_ | _, _⟩ <;> rfl

@[simp] theorem peek_mapMarks : (stream.mapMarks f).peek = stream.peek.mapMark f := by
  rw [peek, advance_mapMarks, current_mapMarks, peek]

theorem mapMarks_id : stream.mapMarks id = stream := by
  simp [mapMarks]

end TokenStream

/-- The same event with another mark reports the same problem with that mark. -/
theorem ParseEvent.problem?_mapMark (f : α → β) (event : ParseEvent α) :
    (event.mapMark f).problem? = event.problem?.map (Problem.mapMark f) := by
  cases event <;> rfl

namespace Attempt

variable {f : α → β} {g : γ → δ} {h : ε → ζ} {stream : TokenStream α} {other : TokenStream β}

/-- The second attempt is the first one with its marks changed by `f`, where `g` changes them in
the value that is read. -/
structure Image (f : α → β) (g : γ → δ) (attempt : Attempt stream γ) (image : Attempt other δ) :
    Prop where
  value : image.value = attempt.value.map g
  rest : image.rest = attempt.rest.mapMarks f
  log : image.log = attempt.log.map (ParseEvent.mapMark f)

/-- The image of an attempt has the same problems with other marks. -/
theorem Image.problems {attempt : Attempt stream γ} {image : Attempt other δ}
    (same : attempt.Image f g image) :
    image.problems = attempt.problems.map (Problem.mapMark f) := by
  rw [Attempt.problems, same.log, Attempt.problems, List.filterMap_map, List.map_filterMap]
  congr 1
  funext event
  exact event.problem?_mapMark f

/-- Nothing is read, so what is left is the same up to its marks. -/
theorem image_give (value : γ) (same : other = stream.mapMarks f) :
    (give value : Attempt stream γ).Image f g (give (g value) : Attempt other δ) :=
  ⟨rfl, same, rfl⟩

theorem image_refuse (problem : Problem α) (same : other = stream.mapMarks f) :
    (refuse problem : Attempt stream γ).Image f g (refuse (problem.mapMark f) : Attempt other δ) :=
  ⟨rfl, same, rfl⟩

theorem image_noting (event : ParseEvent α) {attempt : Attempt stream γ} {image : Attempt other δ}
    (same : attempt.Image f g image) :
    (attempt.noting event).Image f g (image.noting (event.mapMark f)) :=
  ⟨same.value, same.rest, congrArg (event.mapMark f :: ·) same.log⟩

theorem image_moving {attempt : Attempt stream.advance γ} {image : Attempt other.advance δ}
    (same_stream : other = stream.mapMarks f) (same : attempt.Image f g image) :
    attempt.moving.Image f g image.moving :=
  ⟨same.value, same.rest, by simp [moving, same_stream, same.log, ParseEvent.mapMark]⟩

/-- Both attempts find the kind that is wanted, or neither does. -/
theorem image_expecting {kind : Kind}
    {next : stream.peek.kind = kind → Attempt stream.advance γ}
    {next' : other.peek.kind = kind → Attempt other.advance δ}
    (same_stream : other = stream.mapMarks f)
    (same : ∀ found found', (next found).Image f g (next' found')) :
    (expecting kind next).Image f g (expecting kind next') := by
  have same_kind : other.peek.kind = stream.peek.kind := by simp [same_stream]
  by_cases found : stream.peek.kind = kind
  · have found' := same_kind.trans found
    rw [expecting, expecting, dif_pos found, dif_pos found']
    exact image_moving same_stream (same found found')
  · rw [expecting, expecting, dif_neg found, dif_neg (same_kind ▸ found)]
    have refused : Problem.unexpected kind other.peek =
        (Problem.unexpected kind stream.peek).mapMark f := by simp [same_stream, Problem.mapMark]
    rw [refused]
    exact image_refuse _ same_stream

theorem image_map {k : γ → ε} {k' : δ → ζ} {attempt : Attempt stream γ}
    {image : Attempt other δ} (same : attempt.Image f g image)
    (same_map : ∀ value, k' (g value) = h (k value)) :
    (attempt.map k).Image f h (image.map k') :=
  ⟨by simp [map, same.value, Function.comp_def, same_map], same.rest, same.log⟩

/-- Both go on at the same place with values that correspond, or both end. -/
theorem image_andThen {attempt : Attempt stream γ} {image : Attempt other δ}
    {next : γ → (rest : TokenStream α) → rest.size ≤ stream.size → Attempt rest ε}
    {next' : δ → (rest : TokenStream β) → rest.size ≤ other.size → Attempt rest ζ}
    (same : attempt.Image f g image)
    (same_next : ∀ value rest shorter rest' shorter', rest' = rest.mapMarks f →
      (next value rest shorter).Image f h (next' (g value) rest' shorter')) :
    (attempt.andThen next).Image f h (image.andThen next') := by
  cases given : attempt.value with
  | none =>
    have given' : image.value = none := by rw [same.value, given]; rfl
    constructor
    · rw [value_andThen_none given, value_andThen_none given']; rfl
    · rw [rest_andThen_none given, rest_andThen_none given', same.rest]
    · rw [log_andThen_none given, log_andThen_none given', same.log]
  | some value =>
    have given' : image.value = some (g value) := by rw [same.value, given]; rfl
    have following :=
      same_next value attempt.rest attempt.size_le image.rest image.size_le same.rest
    constructor
    · rw [value_andThen_some given, value_andThen_some given', following.value]
    · rw [rest_andThen_some given, rest_andThen_some given', following.rest]
    · rw [log_andThen_some given, log_andThen_some given', same.log, following.log,
        List.map_append]

theorem image_settle {attempt : Attempt stream γ} {image : Attempt other δ}
    (same : attempt.Image f g image) : attempt.settle.Image f (Option.map g) image.settle :=
  ⟨by simp [settle, same.value], same.rest, by
    simp [settle, same.value, same.rest, same.log, ParseEvent.mapMark]⟩

/-- Either both keep the statement or both leave it out, and then the other statements follow. -/
theorem image_more {attempt : Attempt stream (Statement (Token α))}
    {image : Attempt other (Statement (Token β))}
    {next : (rest : TokenStream α) → Attempt rest (List (Statement (Token α)))}
    {next' : (rest : TokenStream β) → Attempt rest (List (Statement (Token β)))}
    (same : attempt.Image f (Statement.mapTokens (Token.mapMark f)) image)
    (same_next : ∀ (rest : TokenStream α) (rest' : TokenStream β), rest.size ≤ stream.size →
      rest'.advance = rest.advance.mapMarks f →
        (next rest.advance).Image f (mapStatements (Token.mapMark f)) (next' rest'.advance)) :
    (attempt.more next).Image f (mapStatements (Token.mapMark f)) (image.more next') := by
  refine image_andThen (image_settle same) ?_
  intro tree rest shorter rest' _ same_rest
  have onward : rest'.advance = rest.advance.mapMarks f := by
    rw [same_rest, TokenStream.advance_mapMarks]
  refine image_moving same_rest (image_map (same_next rest rest' shorter onward) ?_)
  intro trees
  cases tree <;> rfl

/-- Both take the semicolon, or both leave it. -/
theorem image_ending (tree : Statement (Token α)) (same : other = stream.mapMarks f) :
    (Parse.ending tree : Attempt stream _).Image f (Statement.mapTokens (Token.mapMark f))
      (Parse.ending (tree.mapTokens (Token.mapMark f)) : Attempt other _) := by
  have onward : other.advance = stream.advance.mapMarks f := by
    rw [same, TokenStream.advance_mapMarks]
  have same_kind : other.peek.kind = stream.peek.kind := by
    rw [same, TokenStream.peek_mapMarks, Token.kind_mapMark]
  unfold Parse.ending
  rw [same_kind]
  split
  · exact image_moving same (image_give tree onward)
  · exact image_give tree same

end Attempt

namespace Parse

open Attempt

/-- On a stream with other marks an attempt comes to the same with other marks. -/
def marked (f : α → β) : Pairing α β := fun _ _ _ g stream other attempt image =>
  other = stream.mapMarks f → attempt.Image f g image

/-- The parser looks at no mark. -/
theorem parallel_marked (f : α → β) : Parallel f (fun _ => True) (marked f) where
  firm_of _ := trivial
  current paired same := paired (by rw [same, TokenStream.current_mapMarks]) same
  step _ paired same := paired (by rw [same, TokenStream.peek_mapMarks]) same
  stay idle _ here _ paired same := by
    refine paired ?_ same
    rwa [same, TokenStream.peek_mapMarks, Token.kind_mapMark]
  give value _ same := image_give value same
  refuse problem same := image_refuse problem same
  noting _ paired same := image_noting _ (paired same)
  moving _ paired same := image_moving same (paired (by rw [same, TokenStream.advance_mapMarks]))
  expecting _ paired same := image_expecting same fun found found' =>
    paired found found' (by rw [same, TokenStream.advance_mapMarks])
  map same_map paired same := image_map (paired same) same_map
  andThen paired paired_next same := image_andThen (paired same)
    fun value rest shorter rest' shorter' => paired_next value rest shorter rest' shorter' trivial
  ending tree _ same := image_ending tree same
  more paired paired_next same := image_more (paired same) paired_next

/-- The statements of a text do not depend on the marks of its tokens. -/
theorem image_statements {f : α → β} {stream : TokenStream α} {other : TokenStream β}
    (same : other = stream.mapMarks f) :
    (statements stream).Image f (mapStatements (Token.mapMark f)) (statements other) :=
  (parallel_marked f).statements
    (fun paired paired_next same => image_more (paired same) paired_next) stream other same

end Parse

end Scriptlet
