import Mathlib.Data.List.Basic
import Scriptlet.Proofs.Indices
import Scriptlet.Proofs.Spacing
import Scriptlet.Proofs.Splicing

/-!
# Insertion

A semicolon written directly behind a token is a token of its own, and leaves the tokens before and
after it as they are. So a text in which a statement was kept without a semicolon may be given one
there: it is read as the same program with the same messages, whatever else is wrong with it.
-/

namespace Scriptlet

open TokenStream (Parted)

variable {α β : Type}

/-! ## Texts with a semicolon more -/

/-- The token of a piece without its place. -/
def Piece.word (piece : Piece) : Token Unit := piece.token.mapMark fun _ => ()

section words

variable {path : String} {before text rest tail : List Char} {piece : Piece}
  {pieces first last : List Piece}

/-- The words of a text are those of its pieces. -/
theorem Partition.words_eq (partition : Partition path before text pieces tail) :
    words text = pieces.map Piece.word := by
  let cursor : Cursor := ⟨0, text, .behind path before⟩
  have tokens : cursor.tokens = _ := Cursor.tokens_of_partition rfl partition
  calc words text = cursor.words := cursor.words_eq.symm
    _ = pieces.map Piece.word := by rw [Cursor.words, tokens, List.map_map]; rfl

/-- A piece that fits is one word in front of whatever it fits before. -/
theorem Piece.Fits.words_append (fits : piece.Fits path before rest) :
    words (piece.chars ++ rest) = piece.word :: words rest := by
  obtain ⟨pieces, tail, partition⟩ := exists_partition path (before ++ piece.chars) rest
  rw [(partition.cons fits).words_eq, partition.words_eq, List.map_cons]

/-- The words up to one that could not be longer do not depend on what follows it. -/
theorem Partition.words_resume
    (partition : Partition path before text (first ++ piece :: last) tail)
    (maximal : Maximal piece.token.literal.toList rest) :
    words (first.flatMap Piece.chars ++ (piece.chars ++ rest)) =
      first.map Piece.word ++ piece.word :: words rest := by
  induction first generalizing before text with
  | nil =>
    obtain ⟨_, -, fits, -⟩ := partition.uncons
    have fits_rest : piece.Fits path before rest := { fits with maximal := maximal }
    exact fits_rest.words_append
  | cons head first ih =>
    rw [List.cons_append] at partition
    obtain ⟨after, -, fits, partition_after⟩ := partition.uncons
    let run := first.flatMap Piece.chars ++ piece.chars
    have nonempty : run ≠ [] := by
      have fits_piece := partition_after.fits first piece last rfl
      exact List.append_ne_nil_of_right_ne_nil _ fits_piece.chars_ne_nil
    have after_eq : after = run ++ (last.flatMap Piece.chars ++ tail) := by
      rw [partition_after.text_eq, List.flatMap_append, List.flatMap_cons]
      simp only [run, List.append_assoc]
    have fits_run : head.Fits path before (run ++ rest) :=
      { fits with
        maximal := fits.maximal.before fun c begun => by
          rw [List.head?_append_of_ne_nil _ nonempty] at begun
          rw [after_eq, List.head?_append_of_ne_nil _ nonempty]
          exact .inr begun }
    have others := ih partition_after
    rw [← List.append_assoc] at others
    rw [List.flatMap_cons, List.append_assoc, ← List.append_assoc _ piece.chars,
      fits_run.words_append, others, List.map_cons, List.cons_append]

/-- No token could go on with a semicolon. -/
theorem Maximal.semicolon (literal rest : List Char) : Maximal literal (';' :: rest) :=
  ⟨fun _ => by simp [isLetter], fun _ => by simp, by simp⟩

/-- A semicolon directly behind a piece is a word more, and the others are the same. -/
theorem Partition.words_insert
    (partition : Partition path before text (first ++ piece :: last) tail) :
    let rest := last.flatMap Piece.chars ++ tail
    words text = first.map Piece.word ++ piece.word :: words rest ∧
      words (first.flatMap Piece.chars ++ (piece.chars ++ ';' :: rest)) =
        first.map Piece.word ++ piece.word :: symbolToken ';' :: words rest := by
  intro rest
  have fits := partition.fits first piece last rfl
  have text_eq : text = first.flatMap Piece.chars ++ (piece.chars ++ rest) := by
    rw [partition.text_eq, List.flatMap_append, List.flatMap_cons]
    simp only [rest, List.append_assoc]
  constructor
  · rw [text_eq]
    exact partition.words_resume fits.maximal
  · rw [partition.words_resume (.semicolon _ rest), words_symbol rest (by decide)]

end words

/-! ## Marks -/

/-- No message mentions a mark. -/
theorem Problem.message_mapMark (f : α → β) (problem : Problem α) :
    (problem.mapMark f).message = problem.message := by
  cases problem <;> rfl

/-- Where a statement is kept does not depend on the marks of the tokens. -/
theorem KeptAt.mapMark (f : α → β) {index : Nat} {log : List (ParseEvent α)}
    (kept : KeptAt index log) : KeptAt index (log.map (ParseEvent.mapMark f)) := by
  induction kept with
  | here last log => exact .here (last.mapMark f) _
  | moved current _ ih => exact .moved (current.mapMark f) ih
  | @still _ _ event still _ ih =>
    refine .still ?_ ih
    cases event <;> first | rfl | cases still

/-- A parser that keeps a statement stands on one of the tokens of its stream or behind them. -/
theorem Walk.exists_keptAt {stream : TokenStream α} {log : List (ParseEvent α)} {fresh : Bool}
    {end_ : Standing α} {last : Token α} (walk : Walk ⟨stream, fresh⟩ log end_)
    (kept : .settled true last ∈ log) :
    ∃ index, KeptAt index log ∧ last = (stream.drop index).current := by
  obtain ⟨earlier, later, rfl⟩ := List.append_of_mem kept
  obtain ⟨_, _, occurs⟩ := walk.exists_occurs
  refine ⟨steps earlier, keptAt_append.mpr (.inr ⟨0, rfl, .here last later⟩), ?_⟩
  cases occurs with
  | settled _ _ _ => rfl

/-! ## Programs with a semicolon more -/

namespace TokenStream

/-- A semicolon behind one of the tokens of a stream. -/
theorem parted_append {last mark : Token α} (first later : List (Token α)) (stop : α)
    (unended : last.kind ≠ .semicolon) (isMark : mark.kind = .semicolon) :
    Parted first.length ⟨first ++ last :: later, stop⟩ ⟨first ++ last :: mark :: later, stop⟩ := by
  induction first with
  | nil => exact .here later stop unended isMark
  | cons token first ih => exact .before token ih

end TokenStream

/-- What the messages say does not depend on the places. -/
theorem Parser.map_message_diagnostics (stream : TokenStream Location) :
    (ofStream stream).program.2.diagnostics.map Diagnostic.message =
      (ofStream (stream.mapMarks fun _ => ())).program.2.problems.map Problem.message := by
  rw [problems_mapMarks, diagnostics, List.map_map, List.map_map]
  exact List.map_congr_left fun problem _ => (problem.message_mapMark _).symm

/-- Two texts that differ in a semicolon behind the last word of a statement that is kept. -/
theorem parse_eq_of_words {cursor other : Cursor} {last mark : Token Unit}
    {first later : List (Token Unit)} (cut : cursor.words = first ++ last :: later)
    (cut_other : other.words = first ++ last :: mark :: later) (unended : last.kind ≠ .semicolon)
    (isMark : mark.kind = .semicolon)
    (kept : KeptAt first.length (Parse.statements (.ofCursor cursor)).log) :
    (Parser.ofCursor other).program.1.mapTokens (Token.mapMark fun _ => ()) =
        (Parser.ofCursor cursor).program.1.mapTokens (Token.mapMark fun _ => ()) ∧
      (Parser.ofCursor other).program.2.diagnostics.map Diagnostic.message =
        (Parser.ofCursor cursor).program.2.diagnostics.map Diagnostic.message := by
  let stream := TokenStream.ofCursor cursor
  let stream' := TokenStream.ofCursor other
  let bare := stream.mapMarks fun _ => ()
  let bare' := stream'.mapMarks fun _ => ()
  have parted : Parted first.length bare bare' := by
    have bare_eq : bare = ⟨first ++ last :: later, ()⟩ := congrArg (TokenStream.mk · ()) cut
    have bare_eq' : bare' = ⟨first ++ last :: mark :: later, ()⟩ :=
      congrArg (TokenStream.mk · ()) cut_other
    rw [bare_eq, bare_eq']
    exact TokenStream.parted_append first later () unended isMark
  have kept_bare : KeptAt first.length (Parse.statements bare).log := by
    rw [(Parse.image_statements (rfl : bare = stream.mapMarks fun _ => ())).log]
    exact kept.mapMark _
  have agrees := Parse.agrees_of_keptAt parted kept_bare
  have same_value : (Parse.statements bare').value = (Parse.statements bare).value := by
    rw [agrees.value, Option.map_id, id]
  constructor
  · have program_eq := Parser.program_mapMarks (fun _ => ()) stream
    have program_eq' := Parser.program_mapMarks (fun _ => ()) stream'
    show (Parser.ofStream stream').program.1.mapTokens _ =
      (Parser.ofStream stream).program.1.mapTokens _
    rw [← program_eq, ← program_eq']
    exact congrArg (fun value => Program.mk (value.getD [])) same_value
  · show (Parser.ofStream stream').program.2.diagnostics.map _ =
      (Parser.ofStream stream).program.2.diagnostics.map _
    rw [Parser.map_message_diagnostics, Parser.map_message_diagnostics]
    exact congrArg (List.map Problem.message) agrees.problems

/-- An optional semicolon makes no difference where there is none. If a statement is kept that ends
on a token other than a semicolon, then with a semicolon directly behind that token the text is the
same program but for the places, and has the same messages in the same order. -/
theorem parseText_insert_semicolon {text path : String} {last : Token Location}
    (kept : .settled true last ∈ (Parser.ofCursor (.ofText text path)).program.2.log)
    (real : last.kind ≠ .eof) (unended : last.kind ≠ .semicolon) :
    ∃ before after : String, text = before ++ last.literal ++ after ∧
      last.location = .behind path before.toList ∧
      let other := parseText (before ++ last.literal ++ ";" ++ after) path
      other.1.mapTokens (Token.mapMark fun _ => ()) =
          (parseText text path).1.mapTokens (Token.mapMark fun _ => ()) ∧
        other.2.map Diagnostic.message = (parseText text path).2.map Diagnostic.message := by
  let stream := TokenStream.ofCursor (.ofText text path)
  have walk := Attempt.compositional_walked.statements stream
  obtain ⟨index, keptAt, stands⟩ := walk.exists_keptAt kept
  obtain ⟨pieces, tail, partition⟩ := exists_partition path [] text.toList
  have tokens : stream.pending = pieces.map Piece.token :=
    congrArg Prod.fst (Cursor.tokens_ofText partition)
  -- The last token of the statement is that of a piece, which cuts the text in two.
  obtain ⟨first, piece, later, rfl, length, rfl⟩ : ∃ first piece later,
      pieces = first ++ piece :: later ∧ first.length = index ∧ piece.token = last := by
    have begun := (stream.drop index).pending_eq_cons (stands ▸ real)
    rw [← stands, TokenStream.drop, tokens, ← List.map_drop] at begun
    obtain ⟨piece, later, left, same, -⟩ := List.map_eq_cons_iff.mp begun
    refine ⟨pieces.take index, piece, later, ?_, ?_, same⟩
    · rw [← left, List.take_append_drop]
    · have within : (pieces.drop index).length = later.length + 1 := by rw [left]; rfl
      rw [List.length_drop] at within
      rw [List.length_take]
      omega
  let before := String.ofList (first.flatMap Piece.chars ++ piece.gap)
  let after := String.ofList (later.flatMap Piece.chars ++ tail)
  have text_eq : text = before ++ piece.token.literal ++ after := by
    apply String.toList_inj.mp
    rw [partition.text_eq]
    simp [before, after, Piece.chars]
  have other_eq : (before ++ piece.token.literal ++ ";" ++ after).toList =
      first.flatMap Piece.chars ++ (piece.chars ++ ';' :: (later.flatMap Piece.chars ++ tail)) := by
    simp [before, after, Piece.chars]
  obtain ⟨cut, cut_other⟩ := partition.words_insert
  rw [← other_eq] at cut_other
  have location := (partition.fits first piece later rfl).location
  refine ⟨before, after, text_eq, by simpa [before] using location, ?_⟩
  refine parse_eq_of_words ((Cursor.words_eq _).trans cut) ((Cursor.words_eq _).trans cut_other)
    unended rfl ?_
  rwa [List.length_map, length]

/-- A condition without `else` inside a function, before a statement that is broken. -/
theorem parseText_insert_semicolon_nested :
    let text := "fn(a) \x7b if (a) \x7b b \x7d let 1 \x7d @"
    let last : Token Location := ⟨.rightBrace, "\x7d", ⟨"p", 1, 20⟩⟩
    .settled true last ∈ (Parser.ofCursor (.ofText text "p")).program.2.log ∧
      last.kind ≠ .eof ∧ last.kind ≠ .semicolon ∧ (parseText text "p").2.length = 2 ∧
      ∃ before after : String, text = before ++ last.literal ++ after ∧
        last.location = .behind "p" before.toList ∧
        let other := parseText (before ++ last.literal ++ ";" ++ after) "p"
        other.1.mapTokens (Token.mapMark fun _ => ()) =
            (parseText text "p").1.mapTokens (Token.mapMark fun _ => ()) ∧
          other.2.map Diagnostic.message = (parseText text "p").2.map Diagnostic.message := by
  intro text last
  have kept : .settled true last ∈ (Parser.ofCursor (.ofText text "p")).program.2.log := by
    decide +kernel
  have real : last.kind ≠ .eof := by decide
  have unended : last.kind ≠ .semicolon := by decide
  exact ⟨kept, real, unended, by decide +kernel, parseText_insert_semicolon kept real unended⟩

end Scriptlet
