import Scriptlet.Proofs.Indices
import Scriptlet.Proofs.Outcome

/-!
# Readings

What comes of the tokens that a cursor reads, told by their numbers: the program, what is wrong with
it, and what it comes to. Nothing in a `Reading` says where a token stands or in which file. So two
cursors that read the same words, however they are laid out and whatever was read before them, have
one reading, and all they differ in is the places that the numbers stand for.
-/

namespace Scriptlet

variable {α β : Type}

/-! ## Evaluation with other marks -/

/-- The event with another mark. -/
def EvaluationEvent.mapMark (f : α → β) : EvaluationEvent α → EvaluationEvent β
  | .evaluated result => .evaluated result
  | .stopped error => .stopped (error.mapMark f)

namespace Evaluation

/-- The evaluation with other marks. -/
def mapMarks (f : α → β) (evaluation : Evaluation α) : Evaluation β :=
  ⟨evaluation.result.mapError (EvaluationError.mapMark f),
    evaluation.log.map (EvaluationEvent.mapMark f)⟩

theorem mapMarks_noting (f : α → β) (value : Value) (evaluation : Evaluation α) :
    (evaluation.noting value).mapMarks f = (evaluation.mapMarks f).noting value := rfl

theorem mapMarks_andThen (f : α → β) (evaluation : Evaluation α)
    (next : Value → Evaluation α) :
    (evaluation.andThen next).mapMarks f =
      (evaluation.mapMarks f).andThen fun value => (next value).mapMarks f := by
  unfold andThen mapMarks
  cases evaluation.result with
  | error error => rfl
  | ok value => simp [Except.mapError]

end Evaluation

/-- An expression is evaluated without a look at marks: other marks in it are other marks in what is
reported. -/
theorem Expression.evaluate_mapTokens (f : α → β) : (tree : Expression (Token α)) →
    (tree.mapTokens (Token.mapMark f)).evaluate = tree.evaluate.mapMarks f
  | .identifier _ => rfl
  | .integerLiteral _ _ => rfl
  | .booleanLiteral _ _ => rfl
  | .prefixed token operator operand => by
    rw [mapTokens, evaluate, operand.evaluate_mapTokens f, evaluate, Evaluation.mapMarks_andThen]
    congr 1
    funext value
    rw [Token.kind_mapMark]
    split <;> rfl
  | .infixed _ _ _ _ => rfl
  | .conditional _ _ _ none => rfl
  | .conditional _ _ _ (some _) => rfl
  | .function _ _ _ => rfl
  | .call _ _ _ => rfl

mutual

/-- Statements are evaluated without a look at marks, and logged by their values. -/
theorem Statement.evaluate_mapTokens (f : α → β) : (tree : Statement (Token α)) →
    (tree.mapTokens (Token.mapMark f)).evaluate = tree.evaluate.mapMarks f
  | .binding _ _ _ => rfl
  | .returning _ none => rfl
  | .returning _ (some _) => rfl
  | .expression _ value => value.evaluate_mapTokens f
  | .block body => body.evaluate_mapTokens f

theorem evaluateStatements_mapStatements (f : α → β) : (last : Value) →
    (trees : List (Statement (Token α))) →
    evaluateStatements last (mapStatements (Token.mapMark f) trees) =
      (evaluateStatements last trees).mapMarks f
  | _, [] => rfl
  | last, tree :: trees => by
    rw [mapStatements, evaluateStatements, tree.evaluate_mapTokens f, evaluateStatements,
      Evaluation.mapMarks_andThen]
    congr 1
    funext value
    rw [evaluateStatements_mapStatements f value trees, Evaluation.mapMarks_noting]

theorem Block.evaluate_mapTokens (f : α → β) : (tree : Block (Token α)) →
    (tree.mapTokens (Token.mapMark f)).evaluate = tree.evaluate.mapMarks f
  | .mk _ statements => evaluateStatements_mapStatements f .null statements

end

/-- What a program comes to does not depend on the marks of its tokens. -/
theorem Program.evaluate_mapTokens (f : α → β) (program : Program (Token α)) :
    (program.mapTokens (Token.mapMark f)).evaluate = program.evaluate.mapMarks f :=
  evaluateStatements_mapStatements f .null program.statements

/-! ## Readings -/

/-- What comes of some tokens, where each token is told by its number. -/
structure Reading where
  tree : Program Nat
  /-- The messages, with the tokens that they are about. -/
  problems : List (String × Nat)
  evaluation : Evaluation Nat

/-- The reading is what comes of the tokens that the cursor reads. The program is evaluated also if
something is wrong with it. -/
structure Reading.Of (reading : Reading) (cursor : Cursor) : Prop where
  tree : (Parser.ofCursor cursor).program.1 = reading.tree.mapTokens cursor.nth
  problems : (Parser.ofCursor cursor).program.2.diagnostics =
    reading.problems.map fun problem => ⟨problem.1, (cursor.nth problem.2).location⟩
  evaluation : (Parser.ofCursor cursor).program.1.evaluate =
    reading.evaluation.mapMarks fun i => (cursor.nth i).location

/-- A diagnostic quotes the token and gives the place that its mark stands for. -/
theorem Diagnostic.ofProblem_of_mapMark (f : α → Location) (problem : Problem α) :
    ofProblem (problem.mapMark f) = ⟨problem.message, f problem.found.location⟩ := by
  cases problem <;> rfl

namespace TokenStream

/-- What comes of the tokens of a stream. -/
def reading (stream : TokenStream α) : Reading where
  tree := stream.numberedProgram
  problems := (Parser.ofStream stream.numbered).program.2.problems.map
    fun problem => (problem.message, problem.found.location)
  evaluation := (Parser.ofStream stream.numbered).program.1.evaluate

/-- Numbering a stream takes no notice of its marks. -/
theorem numbered_mapMarks (f : α → β) (stream : TokenStream α) :
    (stream.mapMarks f).numbered = stream.numbered := by
  have pending : (stream.mapMarks f).numbered.pending = stream.numbered.pending := by
    apply List.ext_getElem?
    intro i
    rw [getElem?_numbered, getElem?_numbered, mapMarks, List.getElem?_map, Option.map_map]
    rfl
  have size : (stream.mapMarks f).size = stream.size := List.length_map _
  exact congrArg₂ mk pending size

theorem nth_mapMarks (f : α → β) (stream : TokenStream α) (i : Nat) :
    (stream.mapMarks f).nth i = (stream.nth i).mapMark f := by
  rw [nth, mapMarks, List.getElem?_map, nth]
  cases stream.pending[i]? <;> rfl

end TokenStream

namespace Cursor

theorem getElem?_words (cursor : Cursor) (i : Nat) : cursor.words[i]? =
    if (cursor.nth i).kind = .eof then none
    else some ((cursor.nth i).mapMark fun _ => ()) := by
  by_cases beyond : cursor.tokens.1.length ≤ i
  · rw [if_pos ((cursor.nth_eq_eof_iff i).mpr beyond), words, List.getElem?_map,
      List.getElem?_eq_none beyond, Option.map_none]
  · have within : i < cursor.tokens.1.length := Nat.lt_of_not_le beyond
    have read : cursor.nth i = cursor.tokens.1[i] := by
      rw [nth_eq, TokenStream.nth]
      show (cursor.tokens.1[i]?).getD _ = _
      rw [List.getElem?_eq_getElem within, Option.getD_some]
    rw [if_neg fun isEnd => beyond ((cursor.nth_eq_eof_iff i).mp isEnd), words,
      List.getElem?_map, List.getElem?_eq_getElem within, Option.map_some, read]

/-- Cursors that read the same words one after the other have the same words before the end. -/
theorem words_eq_of_agree {first second : Cursor}
    (agree : ∀ i, (first.nth i).kind = (second.nth i).kind ∧
      (first.nth i).literal = (second.nth i).literal) : first.words = second.words := by
  apply List.ext_getElem?
  intro i
  rw [getElem?_words, getElem?_words, Token.mapMark, Token.mapMark, (agree i).1, (agree i).2]

/-- Cursors with the same words read the same tokens but for the places. -/
theorem mapMarks_congr {first second : Cursor} (same : first.words = second.words) :
    (TokenStream.ofCursor first).mapMarks (fun _ => ()) =
      (TokenStream.ofCursor second).mapMarks fun _ => () :=
  congrArg (TokenStream.mk · ()) same

/-- Cursors with the same words go on reading the same ones behind the end. -/
theorem agree_of_words_eq {first second : Cursor} (same : first.words = second.words) (i : Nat) :
    (first.nth i).kind = (second.nth i).kind ∧
      (first.nth i).literal = (second.nth i).literal := by
  have bare : (first.nth i).mapMark (fun _ => ()) = (second.nth i).mapMark fun _ => () := by
    rw [nth_eq, nth_eq, ← TokenStream.nth_mapMarks, mapMarks_congr same, TokenStream.nth_mapMarks]
  obtain ⟨kind, literal, -⟩ := Token.mk.inj bare
  exact ⟨kind, literal⟩

/-- Once its tokens are numbered nothing of a text is left but its words. -/
theorem numbered_congr {first second : Cursor} (same : first.words = second.words) :
    (TokenStream.ofCursor first).numbered = (TokenStream.ofCursor second).numbered := by
  rw [← TokenStream.numbered_mapMarks fun _ => (), mapMarks_congr same,
    TokenStream.numbered_mapMarks]

/-- A cursor has the reading of the tokens that it reads. -/
theorem reading_of (cursor : Cursor) : (TokenStream.ofCursor cursor).reading.Of cursor := by
  let stream := TokenStream.ofCursor cursor
  have same : cursor.nth = stream.nth := funext cursor.nth_eq
  -- The stream is read with numbers for marks, and the places are put in afterwards.
  have parser : Parser.ofCursor cursor = Parser.ofStream (stream.numbered.mapMarks stream.place) :=
    congrArg Parser.ofStream stream.mapMarks_numbered.symm
  constructor
  · rw [same]
    exact stream.mapTokens_numberedProgram
  · rw [same, parser, Parser.diagnostics, Parser.problems_mapMarks, List.map_map,
      TokenStream.reading, List.map_map]
    congr 1
    funext problem
    exact Diagnostic.ofProblem_of_mapMark stream.place problem
  · rw [same, parser, Parser.program_mapMarks, Program.evaluate_mapTokens]
    rfl

end Cursor

/-- Parsing and evaluation are blind to places and paths: whenever two cursors read the same words
one after the other, the same comes of them, told by the numbers of the tokens. Each of them may
stand anywhere in any text of any file. -/
theorem exists_reading_of_agree (first second : Cursor)
    (agree : ∀ i, (first.nth i).kind = (second.nth i).kind ∧
      (first.nth i).literal = (second.nth i).literal) :
    ∃ reading : Reading, reading.Of first ∧ reading.Of second := by
  have numbered := Cursor.numbered_congr (Cursor.words_eq_of_agree agree)
  have same : (TokenStream.ofCursor first).reading = (TokenStream.ofCursor second).reading := by
    simp only [TokenStream.reading, TokenStream.numberedProgram, numbered]
  exact ⟨_, first.reading_of, same ▸ second.reading_of⟩

/-- Neither text is a program, the second one begins behind another word, and what is read of both
stops at the same minus sign when it is evaluated. -/
theorem exists_reading_of_agree_elsewhere :
    let first := Cursor.ofText "!true; let a = ;\n-5" "p"
    let second := ((Cursor.ofText "x\n\n ! true ;let a=;-5\n" "q").nextMany 1).2
    (∀ i, (first.nth i).kind = (second.nth i).kind ∧
      (first.nth i).literal = (second.nth i).literal) ∧
      ∃ reading : Reading, reading.Of first ∧ reading.Of second := by
  intro first second
  have same : first.words = second.words := by decide +kernel
  have agree := Cursor.agree_of_words_eq same
  exact ⟨agree, exists_reading_of_agree first second agree⟩

end Scriptlet
