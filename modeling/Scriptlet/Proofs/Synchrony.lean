import Scriptlet.Proofs.Composition
import Scriptlet.Proofs.Confinement
import Scriptlet.Proofs.Joining
import Scriptlet.Proofs.Relocation
import Scriptlet.Proofs.Soundness

/-!
# Synchrony

A semicolon outside a block is where reading starts anew, whatever was wrong before it. A statement
that fails before the semicolon is over there at the latest, and the next one begins behind it. So a
text that ends with such a semicolon and the lines after it have the statements of the one and of
the other, and the problems of the one and of the other.
-/

namespace Scriptlet

open TokenStream (FollowedBy)

variable {α β γ : Type}

namespace Attempt

variable {stream : TokenStream α}

/-- What is left comes at the end of what was there, and no block is cut off where there is no brace
that opens one. -/
structure Onward (attempt : Attempt stream β) : Prop where
  suffix : attempt.rest.pending <:+ stream.pending
  closed : (∀ token ∈ stream.pending, token.kind ≠ .leftBrace) → attempt.Closed

theorem onward_stay {attempt : Attempt stream β} (same : attempt.rest = stream)
    (silent : attempt.Closed) : attempt.Onward :=
  ⟨by simp [same], fun _ => silent⟩

theorem onward_noting {event : ParseEvent α} {attempt : Attempt stream β}
    (kept : event.cutOff = false) (onward : attempt.Onward) : (attempt.noting event).Onward :=
  ⟨onward.suffix, fun flat => List.forall_mem_cons.mpr ⟨kept, onward.closed flat⟩⟩

theorem onward_moving {attempt : Attempt stream.advance β} (onward : attempt.Onward) :
    attempt.moving.Onward := by
  have suffix : stream.advance.pending <:+ stream.pending := List.tail_suffix _
  refine ⟨onward.suffix.trans suffix, fun flat => List.forall_mem_cons.mpr ⟨rfl, ?_⟩⟩
  exact onward.closed fun token member => flat token (suffix.subset member)

theorem suffix_andThen {attempt : Attempt stream β}
    {next : β → (rest : TokenStream α) → rest.size ≤ stream.size → Attempt rest γ}
    (suffix : attempt.rest.pending <:+ stream.pending)
    (suffix_next : ∀ value rest shorter, (next value rest shorter).rest.pending <:+ rest.pending) :
    (attempt.andThen next).rest.pending <:+ stream.pending := by
  cases given : attempt.value with
  | none => rwa [rest_andThen_none given]
  | some value =>
    rw [rest_andThen_some given]
    exact (suffix_next value _ _).trans suffix

/-- Going on from where one has gone on to is going on. -/
theorem onward_andThen {attempt : Attempt stream β}
    {next : β → (rest : TokenStream α) → rest.size ≤ stream.size → Attempt rest γ}
    (onward : attempt.Onward) (onward_next : ∀ value rest shorter, (next value rest shorter).Onward) :
    (attempt.andThen next).Onward := by
  refine ⟨suffix_andThen onward.suffix fun value rest shorter =>
    (onward_next value rest shorter).suffix, fun flat => ?_⟩
  have first := onward.closed flat
  cases given : attempt.value with
  | none => rwa [Closed, log_andThen_none given]
  | some value =>
    rw [Closed, log_andThen_some given]
    refine List.forall_mem_append.mpr ⟨first, (onward_next value _ _).closed ?_⟩
    exact fun token member => flat token (onward.suffix.subset member)

theorem onward_settle {attempt : Attempt stream β} (onward : attempt.Onward) :
    attempt.settle.Onward :=
  ⟨onward.suffix, fun flat =>
    List.forall_mem_append.mpr ⟨onward.closed flat, by simp [ParseEvent.cutOff]⟩⟩

theorem onward_map (f : β → γ) {attempt : Attempt stream β} (onward : attempt.Onward) :
    (attempt.map f).Onward :=
  ⟨onward.suffix, onward.closed⟩

/-- Every way to put attempts together goes on, except where a block is cut off. -/
theorem compositional_onward :
    Compositional (fun (_ : TokenStream α) _ attempt => attempt.Onward)
      fun stream attempt => attempt.rest.pending <:+ stream.pending where
  give _ _ _ := onward_stay rfl (by simp [Closed, give])
  unexpected _ _ _ _ := onward_stay rfl (by simp [Closed, refuse, ParseEvent.cutOff])
  noExpression _ _ _ := onward_stay rfl (by simp [Closed, refuse, ParseEvent.cutOff])
  tooLarge _ _ _ := onward_stay rfl (by simp [Closed, refuse, ParseEvent.cutOff])
  entered _ onward := onward_noting rfl onward
  moving := onward_moving
  map f onward := onward_map f onward
  andThen := onward_andThen
  more onward onward_next :=
    onward_andThen (onward_settle onward) fun _ rest shorter =>
      onward_moving (onward_map _ (onward_next rest shorter))
  block {stream attempt} isBrace suffix := by
    have begun := stream.pending_eq_cons (isBrace.trans_ne (by decide))
    refine ⟨suffix.trans (List.tail_suffix _), fun flat => ?_⟩
    exact absurd isBrace (flat stream.current (by simp [begun]))
  bodyDone _ _ := List.suffix_refl _
  bodyMore _ onward suffix_next := suffix_andThen (onward_settle onward).suffix fun _ rest shorter =>
    (suffix_next rest shorter).trans (List.tail_suffix _)

end Attempt

namespace Parse

open Attempt

section

variable {stream other more : TokenStream α}

/-- The statements that are read from a stream. -/
def trees (stream : TokenStream α) : List (Statement (Token α)) :=
  (statements stream).value.getD []

theorem trees_more (found : stream.current.kind ≠ .eof) : trees stream =
    (statement stream).value.toList ++ trees (statement stream).rest.advance := by
  obtain ⟨others, given⟩ := exists_value_statements (statement stream).rest.advance
  rw [trees, statements_more found, value_andThen_some rfl, trees]
  simp [moving, map, settle, given]

theorem log_statements_more (found : stream.current.kind ≠ .eof) : (statements stream).log =
    (statement stream).settle.log ++ .moved (statement stream).rest.peek ::
      (statements (statement stream).rest.advance).log := by
  rw [statements_more found, log_more]

theorem problems_statements_more (found : stream.current.kind ≠ .eof) :
    (statements stream).problems =
      (statement stream).problems ++ (statements (statement stream).rest.advance).problems := by
  rw [statements_more found, problems_andThen_some rfl, problems_settle]
  rfl

/-- The tokens up to a semicolon and those after it are read apart, if no block is cut off at the
semicolon. -/
theorem statements_append (followed : FollowedBy more stream other) (clean : EndFree stream.pending)
    (closed : (statements stream).Closed) : trees other = trees stream ++ trees more ∧
      (statements other).problems = (statements stream).problems ++ (statements more).problems := by
  induction stream using statements.induct generalizing other with
  | case1 stream ended =>
    obtain ⟨first, rest, left⟩ := followed.exists_pending
    rw [clean.pending_eq_nil ended] at left
    exact absurd left (List.cons_ne_nil first rest).symm
  | case2 stream going ih =>
    have going' : other.current.kind ≠ .eof := followed.current ▸ going
    rw [Closed, log_statements_more going, List.forall_mem_append] at closed
    obtain ⟨closed_statement, closed_rest⟩ := closed
    have same := confined_statement followed fun event member =>
      closed_statement event (List.mem_append_left _ member)
    have same_value : (statement other).value = (statement stream).value := by
      rw [same.value, Option.map_id, id]
    have same_problems : (statement other).problems = (statement stream).problems := by
      rw [Attempt.problems, same.log, Attempt.problems]
    rw [trees_more going, trees_more going', problems_statements_more going,
      problems_statements_more going', same_value, same_problems, List.append_assoc,
      List.append_assoc]
    rcases same.rest.advance_or with next | ⟨-, ended, started⟩
    · have suffix : (statement stream).rest.advance.pending <:+ stream.pending :=
        (List.tail_suffix _).trans (compositional_onward.statement stream).suffix
      obtain ⟨same_trees, same_rest⟩ := ih _ (statement stream).size_le next (clean.suffix suffix)
        fun event member => closed_rest event (List.mem_cons_of_mem _ member)
      rw [same_trees, same_rest]
      exact ⟨rfl, rfl⟩
    · -- The statement ends at the last semicolon, and reading goes on with the tokens after it.
      have done : statements (statement stream).rest.advance = .give [] := statements_done (by
        rw [TokenStream.current_of_pending_nil ended]
        rfl)
      have none_left : trees (statement stream).rest.advance = [] := by
        rw [trees, done]
        rfl
      rw [started, none_left, done]
      exact ⟨rfl, rfl⟩

end

end Parse

/-- The same message, so many lines further down. -/
def Diagnostic.below (lines : Nat) (diagnostic : Diagnostic) : Diagnostic :=
  { diagnostic with location := diagnostic.location.below lines }

theorem Diagnostic.ofProblem_mapMark (lines : Nat) (problem : Problem Location) :
    ofProblem (problem.mapMark (Location.below lines)) = (ofProblem problem).below lines := by
  cases problem <;> rfl

/-- Text that stands further down says the same further down. -/
theorem Parse.statements_below (cursor : Cursor) (lines : Nat) :
    let whole := statements (.ofCursor cursor)
    let lower := statements (.ofCursor (cursor.below lines))
    trees (.ofCursor (cursor.below lines)) =
        mapStatements (Token.mapMark (Location.below lines)) (trees (.ofCursor cursor)) ∧
      lower.problems.map Diagnostic.ofProblem =
        (whole.problems.map Diagnostic.ofProblem).map (Diagnostic.below lines) := by
  intro whole lower
  have same : TokenStream.ofCursor (cursor.below lines) =
      (TokenStream.ofCursor cursor).mapMarks (Location.below lines) :=
    cursor.stream_relocated (Location.after_below lines)
  have image := image_statements same
  constructor
  · rw [trees, image.value, trees]
    cases whole.value <;> rfl
  · rw [image.problems, List.map_map, List.map_map]
    exact List.map_congr_left fun problem _ => Diagnostic.ofProblem_mapMark lines problem

/-- A text whose last token is a semicolon outside any open block and the lines after it are parsed
apart, whatever is wrong with either of them. -/
theorem parseText_append (first second path : String)
    (terminated : (Cursor.ofText first path).tokens.1.getLast?.map Token.kind = some .semicolon)
    (closed : (∀ token ∈ (Cursor.ofText first path).tokens.1, token.kind ≠ .leftBrace) ∨
      ∀ event ∈ (Parser.ofCursor (.ofText first path)).program.2.log, event.cutOff = false) :
    let lines := 1 + first.toList.count '\n'
    parseText (first ++ "\n" ++ second) path =
      (⟨(parseText first path).1.statements ++
          mapStatements (Token.mapMark (Location.below lines)) (parseText second path).1.statements⟩,
        (parseText first path).2 ++ (parseText second path).2.map (Diagnostic.below lines)) := by
  intro lines
  let stream := TokenStream.ofCursor (.ofText first path)
  let more := TokenStream.ofCursor ((Cursor.ofText second path).below lines)
  have followed : FollowedBy more stream (.ofCursor (.ofText (first ++ "\n" ++ second) path)) := by
    refine ⟨terminated, ?_⟩
    rw [TokenStream.ofCursor, Cursor.tokens_append_lineFeed]
    rfl
  have kept : (Parse.statements stream).Closed :=
    closed.elim (Attempt.compositional_onward.statements stream).closed id
  obtain ⟨same_trees, same_problems⟩ :=
    Parse.statements_append followed (Cursor.endFree_tokens _) kept
  obtain ⟨lower_trees, lower_problems⟩ := Parse.statements_below (.ofText second path) lines
  rw [parseText_eq, parseText_eq, parseText_eq, same_problems, List.map_append, lower_problems]
  rw [lower_trees] at same_trees
  exact congrArg (fun trees => (Program.mk trees, _)) same_trees

/-- Both parts are broken, and the first one has a block with a broken statement in it. -/
theorem parseText_append_malformed :
    let first := "let a 1;\nif (x) \x7b @ 2 \x7d;"
    let second := "\x7d let b = -2"
    (Cursor.ofText first "p").tokens.1.getLast?.map Token.kind = some .semicolon ∧
      (∀ event ∈ (Parser.ofCursor (.ofText first "p")).program.2.log, event.cutOff = false) ∧
      (parseText first "p").2.length = 2 ∧ (parseText second "p").2.length = 1 ∧
      parseText (first ++ "\n" ++ second) "p" =
        (⟨(parseText first "p").1.statements ++
            mapStatements (Token.mapMark (Location.below 2)) (parseText second "p").1.statements⟩,
          (parseText first "p").2 ++ (parseText second "p").2.map (Diagnostic.below 2)) := by
  intro first second
  have terminated : (Cursor.ofText first "p").tokens.1.getLast?.map Token.kind =
      some .semicolon := by decide +kernel
  have closed : ∀ event ∈ (Parser.ofCursor (.ofText first "p")).program.2.log,
      event.cutOff = false := by decide +kernel
  have lines : 1 + first.toList.count '\n' = 2 := by decide +kernel
  refine ⟨terminated, closed, by decide +kernel, by decide +kernel, ?_⟩
  rw [← lines]
  exact parseText_append first second "p" terminated (.inr closed)

end Scriptlet
