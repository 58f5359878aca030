import Scriptlet.Proofs.Outcome
import Scriptlet.Proofs.Spelling

/-!
# Round trips

A program is what its canonical text says. The text of a tree is read back as that tree, whoever
built it, as soon as every node is one that can be written. The parser builds no other nodes, so
whatever it makes of a text can be written down and read again; and since its nodes are faithful to
their tokens, what is read the second time also comes to the same.
-/

namespace Scriptlet

open Grammar

variable {α τ : Type}

/-- A text whose words are a program of the grammar is read as that program, wherever the words
stand. -/
theorem parseText_of_derives_words {text : String} {trees : List (Statement (Token Unit))}
    (derived : Derives (.statements trees) (words text.toList) []) (path : String) :
    (parseText text path).2 = [] ∧
      (parseText text path).1.bare = (⟨trees⟩ : Program (Token Unit)).bare := by
  let cursor := Cursor.ofText text path
  let stream := TokenStream.ofCursor cursor
  have yields : (Parse.statements (stream.mapMarks fun _ => ())).Yields trees [] :=
    (Parse.read_of_derives derived).2 rfl _ cursor.words_eq
  have image := Parse.image_statements (rfl : stream.mapMarks (fun _ => ()) = _)
  have quiet : (Parse.statements stream).problems = [] :=
    List.map_eq_nil_iff.mp (image.problems.symm.trans yields.quiet)
  obtain ⟨statements, given, same⟩ :=
    Option.map_eq_some_iff.mp (image.value.symm.trans yields.given)
  rw [parseText_eq, quiet, given, ← same]
  exact ⟨rfl, (Program.bare_mapTokens (Token.mapMark fun _ => ()) ⟨statements⟩).symm⟩

/-- The words of a canonical text are a program of the grammar. -/
theorem exists_derives_render {program : Program τ} (writable : program.Every Node.Writable) :
    ∃ trees : List (Statement (Token Unit)), (⟨trees⟩ : Program _).bare = program.bare ∧
      Derives (.statements trees) (words program.render.toList) [] := by
  obtain ⟨trees, same, derived⟩ :=
    spelledStatements_of_every program.statements writable [] (.inl rfl)
  rw [List.append_nil, words_nil] at derived
  exact ⟨trees, congrArg Program.mk same, derived⟩

/-- The canonical text of a program whose nodes can be written is read without a problem, and as
that program. -/
theorem parseText_render {program : Program τ} (writable : program.Every Node.Writable)
    (path : String) : (parseText program.render path).2 = [] ∧
      (parseText program.render path).1.bare = program.bare := by
  obtain ⟨trees, same, derived⟩ := exists_derives_render writable
  obtain ⟨quiet, read⟩ := parseText_of_derives_words derived path
  exact ⟨quiet, read.trans same⟩

/-- A conditional and a function that are called, and statements that a careless text would join. -/
theorem parseText_render_nested :
    let program : Program Unit := ⟨[
      .binding () ⟨(), "f_"⟩ (.function () [⟨(), "x"⟩, ⟨(), "y"⟩] (.mk () [
        .expression () (.prefixed () "-" (.call () (.identifier ⟨(), "x"⟩) [])),
        .expression () (.prefixed () "!" (.infixed () "==" (.identifier ⟨(), "y"⟩)
          (.integerLiteral () 9223372036854775807))),
        .returning () none])),
      .expression () (.call () (.conditional () (.booleanLiteral () true)
        (.mk () [.returning () (some (.identifier ⟨(), "f_"⟩))]) (some (.mk () [])))
        [.integerLiteral () 0, .booleanLiteral () false]),
      .expression () (.call () (.function () [] (.mk () [])) [])]⟩
    program.Every Node.Writable ∧ (parseText program.render "p").2 = [] ∧
      (parseText program.render "p").1.bare = program.bare :=
  have writable := by decide +kernel
  ⟨writable, parseText_render writable "p"⟩

/-- A number that was read from a text has no sign, so it can be written. -/
theorem IsInteger.nonnegative {token : Token α} {value : Int64}
    (isInteger : IsInteger token value) : 0 ≤ value.toInt := by
  rw [Decimal.toInt_of_word? isInteger.value]
  exact Int.natCast_nonneg _

/-- What says the same as its token can be written. -/
theorem Node.Faithful.writable {node : Node (Token α)} (faithful : node.Faithful) :
    node.Writable := by
  match node, faithful with
  | .name _, faithful => exact faithful.isName
  | .expression (.identifier _), faithful => exact faithful.isName
  | .expression (.integerLiteral _ _), faithful => exact faithful.nonnegative
  | .expression (.prefixed token operator _), faithful =>
    have found := faithful.kind
    show operator ∈ prefixOperators
    rw [faithful.text]
    revert found
    cases token.kind <;> decide
  | .expression (.infixed token operator _ _), faithful =>
    have found := faithful.kind
    show operator ∈ infixOperators
    rw [faithful.text]
    revert found
    cases token.kind <;> decide
  | .expression (.booleanLiteral _ _), _ => trivial
  | .expression (.conditional _ _ _ _), _ => trivial
  | .expression (.function _ _ _), _ => trivial
  | .expression (.call _ _ _), _ => trivial
  | .statement (.binding _ _ _), _ => trivial
  | .statement (.returning _ _), _ => trivial
  | .statement (.expression _ _), _ => trivial
  | .statement (.block _), excluded => exact excluded
  | .block _, _ => trivial

/-- Whatever a text is read as, with problems or without, its canonical text is read without a
problem, as the same program, with the same canonical text and the same outcome. -/
theorem reparse_render (text path other : String) :
    let program := (parseText text path).1
    let again := parseText program.render other
    again.2 = [] ∧ again.1.bare = program.bare ∧ again.1.render = program.render ∧
      again.1.evaluate.outcome = program.evaluate.outcome := by
  intro program again
  have faithful : program.Every Node.Faithful := Parser.every_faithful _
  have faithful_again : again.1.Every Node.Faithful := Parser.every_faithful _
  obtain ⟨trees, same_trees, derived⟩ :=
    exists_derives_render (faithful.mono fun _ => Node.Faithful.writable)
  obtain ⟨quiet, read⟩ := parseText_of_derives_words derived other
  have same : again.1.bare = program.bare := read.trans same_trees
  refine ⟨quiet, same, ?_, ?_⟩
  · calc again.1.render
        = again.1.bare.render := (Program.render_mapTokens _ _).symm
      _ = program.bare.render := by rw [same]
      _ = program.render := Program.render_mapTokens _ _
  · rw [Program.outcome_evaluate faithful_again, Program.outcome_evaluate faithful, same]

end Scriptlet
