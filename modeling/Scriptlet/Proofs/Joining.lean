import Scriptlet.Proofs.Partition

/-!
# Joining

A text and another one on the lines after it. No token goes on over a line feed, so the tokens of
the two together are those of the one and then those of the other, which stand as many lines
further down as the first text has.
-/

namespace Scriptlet

namespace Cursor

/-- The same place, so many lines further down. -/
def below (lines : Nat) (cursor : Cursor) : Cursor :=
  { cursor with location := cursor.location.below lines }

@[simp] theorem rest_below (lines : Nat) (cursor : Cursor) :
    (cursor.below lines).rest = cursor.rest := rfl

end Cursor

section partitions

variable {path : String} {before text more tail : List Char} {pieces : List Piece}

/-- What could not be longer at the end of a text cannot be longer before a line feed. -/
theorem Maximal.append_lineFeed {literal after : List Char} (maximal : Maximal literal after)
    (more : List Char) : Maximal literal (after ++ '\n' :: more) := by
  cases after with
  | nil => exact ⟨fun _ => by simp [isLetter], fun _ => by simp, fun _ => by simp⟩
  | cons c after => exact ⟨maximal.word, maximal.number, maximal.sign⟩

/-- What fits before the end of a text fits before a line feed there. -/
theorem Piece.Fits.append_lineFeed {piece : Piece} {after : List Char}
    (fits : piece.Fits path before after) (more : List Char) :
    piece.Fits path before (after ++ '\n' :: more) :=
  { fits with maximal := fits.maximal.append_lineFeed more }

/-- Blanks before a partition belong to its first piece, or to its end if there is none. -/
theorem Partition.indent {gap : List Char} (blanks : ∀ c ∈ gap, isBlank c = true)
    (partition : Partition path (before ++ gap) text pieces tail) :
    ∃ others rest, Partition path before (gap ++ text) others rest ∧
      others.map Piece.token = pieces.map Piece.token := by
  cases pieces with
  | nil =>
    have text_eq : text = tail := partition.text_eq
    refine ⟨[], gap ++ text, .nil path before ?_, rfl⟩
    rw [text_eq]
    exact List.forall_mem_append.mpr ⟨blanks, partition.blanks⟩
  | cons piece pieces =>
    obtain ⟨rest, text_eq, fits, others⟩ := partition.uncons
    let indented : Piece := ⟨gap ++ piece.gap, piece.token⟩
    have chars : indented.chars = gap ++ piece.chars := List.append_assoc _ _ _
    have fits_indented : indented.Fits path before rest :=
      { fits with
        gap := List.forall_mem_append.mpr ⟨blanks, fits.gap⟩
        location := by rw [← List.append_assoc]; exact fits.location }
    refine ⟨indented :: pieces, tail, ?_, rfl⟩
    rw [text_eq, ← List.append_assoc, ← chars]
    refine .cons fits_indented ?_
    rwa [chars, ← List.append_assoc]

/-- The partition of a text and that of the lines after it make one of the two together. -/
theorem Partition.append_lineFeed {others : List Piece} {rest : List Char}
    (partition : Partition path before text pieces tail)
    (following : Partition path (before ++ text ++ ['\n']) more others rest) :
    ∃ whole last, Partition path before (text ++ '\n' :: more) whole last ∧
      whole.map Piece.token = pieces.map Piece.token ++ others.map Piece.token := by
  induction pieces generalizing before text with
  | nil =>
    have text_eq : text = tail := partition.text_eq
    have blanks : ∀ c ∈ text ++ ['\n'], isBlank c = true :=
      List.forall_mem_append.mpr ⟨text_eq ▸ partition.blanks, by simp [isBlank]⟩
    rw [List.append_assoc] at following
    simpa using following.indent blanks
  | cons piece pieces ih =>
    obtain ⟨after, text_eq, fits, partition_after⟩ := partition.uncons
    subst text_eq
    obtain ⟨whole, last, partition_whole, tokens⟩ :=
      ih partition_after (by simpa using following)
    refine ⟨piece :: whole, last, ?_, by rw [List.map_cons, tokens]; rfl⟩
    rw [List.append_assoc]
    exact .cons (fits.append_lineFeed more) partition_whole

end partitions

/-- The tokens of a text and of the lines after it. -/
theorem Cursor.tokens_append_lineFeed (first second path : String) :
    let following := ((Cursor.ofText second path).below (1 + first.toList.count '\n')).tokens
    (Cursor.ofText (first ++ "\n" ++ second) path).tokens =
      ((Cursor.ofText first path).tokens.1 ++ following.1, following.2) := by
  intro following
  have text_eq : (first ++ "\n" ++ second).toList = first.toList ++ '\n' :: second.toList := by
    simp
  have stands : ((ofText second path).below (1 + first.toList.count '\n')).location =
      .behind path (first.toList ++ ['\n']) := (Location.behind_lineFeed path _).symm
  obtain ⟨pieces, tail, partition⟩ := exists_partition path [] first.toList
  obtain ⟨others, rest, partition_following⟩ :=
    exists_partition path (first.toList ++ ['\n']) second.toList
  obtain ⟨whole, last, partition_whole, tokens⟩ := partition.append_lineFeed partition_following
  have read_following : following = _ := tokens_of_partition stands partition_following
  rw [← text_eq] at partition_whole
  rw [tokens_ofText partition_whole, tokens, tokens_ofText partition, read_following, text_eq]
  simp [ofText]

end Scriptlet
