import Scriptlet.Proofs.Partition

/-!
# Spacing

Other blanks between the tokens of a text leave the tokens as they are. A literal that could not be
longer before one character cannot be longer before a blank, so it is enough that there are blanks
wherever there were some between two tokens: `Partition.respaced` cuts the other text into the same
literals, and only their places differ.
-/

namespace Scriptlet

/-- A piece of a text, and the blanks that another text has before the same token. -/
structure Respacing where
  piece : Piece
  gap : List Char

/-- The characters that the other text has in place of the piece. -/
def Respacing.chars (entry : Respacing) : List Char :=
  entry.gap ++ entry.piece.token.literal.toList

/-- The text `other` has the literals of the text `text` with other blanks before, between and after
them. Where blanks stand between two tokens of the one there are some in the other. -/
structure Respaced (text other : List Char) (entries : List Respacing) (tail tail' : List Char) :
    Prop where
  text_eq : text = entries.flatMap (fun entry => entry.piece.chars) ++ tail
  other_eq : other = entries.flatMap Respacing.chars ++ tail'
  gaps : ∀ entry ∈ entries, ∀ c ∈ entry.piece.gap ++ entry.gap, isBlank c = true
  blanks : ∀ c ∈ tail ++ tail', isBlank c = true
  kept : ∀ entry ∈ entries.tail, entry.piece.gap ≠ [] → entry.gap ≠ []

/-! ## The blanks of a text are told by its tokens -/

/-- Two ways to cut a text at the same tokens are one. -/
theorem Partition.pieces_unique {path : String} {before text tail tail' : List Char}
    {pieces others : List Piece} (partition : Partition path before text pieces tail)
    (tokens : pieces.map Piece.token = others.map Piece.token)
    (text_eq : text = others.flatMap Piece.chars ++ tail')
    (gaps : ∀ piece ∈ others, ∀ c ∈ piece.gap, isBlank c = true) :
    pieces = others ∧ tail = tail' := by
  induction pieces generalizing before text others with
  | nil =>
    obtain rfl : others = [] := List.map_eq_nil_iff.mp tokens.symm
    exact ⟨rfl, partition.text_eq.symm.trans text_eq⟩
  | cons piece pieces ih =>
    cases others with
    | nil => simp at tokens
    | cons other others =>
      obtain ⟨same_token, same_tokens⟩ := List.cons.inj tokens
      obtain ⟨rest, cut, fits, partition_rest⟩ := partition.uncons
      obtain ⟨c, literal, begun⟩ := List.exists_cons_of_ne_nil
        (l := piece.token.literal.toList) (by simpa using fits.nonempty)
      have whole : piece.gap ++ c :: (literal ++ rest) =
          other.gap ++ c :: (literal ++ (others.flatMap Piece.chars ++ tail')) := by
        have same := cut.symm.trans text_eq
        rwa [List.flatMap_cons, Piece.chars, Piece.chars, ← same_token, begun,
          List.append_assoc, List.append_assoc, List.append_assoc] at same
      obtain ⟨same_gap, same_rest⟩ := run_unique fits.gap (gaps other List.mem_cons_self)
        (fits.solid c (by simp [begun])) whole
      obtain ⟨rfl, rfl⟩ := ih partition_rest same_tokens (List.append_cancel_left same_rest)
        fun piece member => gaps piece (List.mem_cons_of_mem _ member)
      obtain ⟨_, _⟩ := piece
      obtain ⟨_, _⟩ := other
      exact ⟨by simp_all, rfl⟩

/-! ## Other blanks -/

/-- Only the next character can make a literal longer, and a blank cannot. -/
theorem Maximal.before {literal after after' : List Char} (maximal : Maximal literal after)
    (next : ∀ c ∈ after'.head?, isBlank c = true ∨ after.head? = some c) :
    Maximal literal after' := by
  constructor
  · intro letters c first
    rcases next c first with blank | same
    · exact (runs_of_blank blank).1
    · exact maximal.word letters c same
  · intro digits c first
    rcases next c first with blank | same
    · exact (runs_of_blank blank).2
    · exact maximal.number digits c same
  · intro isSign first
    rcases next '=' first with blank | same
    · simp [isBlank] at blank
    · exact maximal.sign isSign same

/-- What follows a token in the other text begins with a blank or as it did. -/
theorem head?_respaced {entries : List Respacing} {tail tail' : List Char}
    (nonempty : ∀ entry ∈ entries, entry.piece.token.literal ≠ "")
    (gaps : ∀ entry ∈ entries, ∀ c ∈ entry.gap, isBlank c = true)
    (blanks : ∀ c ∈ tail', isBlank c = true)
    (kept : ∀ entry ∈ entries, entry.piece.gap ≠ [] → entry.gap ≠ []) :
    ∀ c ∈ (entries.flatMap Respacing.chars ++ tail').head?, isBlank c = true ∨
      (entries.flatMap (fun entry => entry.piece.chars) ++ tail).head? = some c := by
  intro c first
  cases entries with
  | nil => exact .inl (blanks c (List.mem_of_mem_head? first))
  | cons entry entries =>
    rw [List.flatMap_cons, Respacing.chars] at first
    cases gap : entry.gap with
    | cons d more =>
      obtain rfl : d = c := by simpa [gap] using first
      exact .inl (gaps entry List.mem_cons_self d (by simp [gap]))
    | nil =>
      have adjacent : entry.piece.gap = [] := by
        by_contra apart
        exact kept entry List.mem_cons_self apart gap
      obtain ⟨d, literal, begun⟩ := List.exists_cons_of_ne_nil
        (l := entry.piece.token.literal.toList) (by simpa using nonempty entry List.mem_cons_self)
      right
      simpa [gap, begun, Piece.chars, adjacent] using first

/-- The other text is cut into the same literals of the same kinds. -/
theorem Partition.respaced {path : String} {before tail tail' : List Char}
    {entries : List Respacing}
    (partition : Partition path before (entries.flatMap (fun entry => entry.piece.chars) ++ tail)
      (entries.map Respacing.piece) tail)
    (gaps : ∀ entry ∈ entries, ∀ c ∈ entry.gap, isBlank c = true)
    (blanks : ∀ c ∈ tail', isBlank c = true)
    (kept : ∀ entry ∈ entries.tail, entry.piece.gap ≠ [] → entry.gap ≠ [])
    (path' : String) (before' : List Char) :
    ∃ others, Partition path' before' (entries.flatMap Respacing.chars ++ tail') others tail' ∧
      others.map (fun piece => piece.token.mapMark fun _ => ()) =
        entries.map (fun entry => entry.piece.token.mapMark fun _ => ()) := by
  induction entries generalizing before before' with
  | nil => exact ⟨[], .nil path' before' blanks, rfl⟩
  | cons entry entries ih =>
    have nonempty : ∀ other ∈ entries, other.piece.token.literal ≠ "" := by
      intro other member
      obtain ⟨first, last, same⟩ := List.append_of_mem
        (List.mem_map_of_mem (f := Respacing.piece) (List.mem_cons_of_mem entry member))
      exact (partition.fits first other.piece last same).nonempty
    obtain ⟨rest, cut, fits, partition_rest⟩ := partition.uncons
    rw [List.flatMap_cons, List.append_assoc] at cut
    obtain rfl := List.append_cancel_left cut
    let token : Token Location :=
      ⟨entry.piece.token.kind, entry.piece.token.literal, .behind path' (before' ++ entry.gap)⟩
    have gaps_rest : ∀ other ∈ entries, ∀ c ∈ other.gap, isBlank c = true :=
      fun other member => gaps other (List.mem_cons_of_mem entry member)
    obtain ⟨others, partition_others, same⟩ := ih partition_rest gaps_rest
      (fun other member => kept other (List.mem_of_mem_tail member)) (before' ++ entry.chars)
    have fits_other : Piece.Fits path' before' ⟨entry.gap, token⟩
        (entries.flatMap Respacing.chars ++ tail') :=
      { gap := gaps entry List.mem_cons_self
        nonempty := fits.nonempty
        solid := fits.solid
        spells := fits.spells
        maximal := fits.maximal.before (head?_respaced nonempty gaps_rest blanks kept)
        location := rfl }
    refine ⟨⟨entry.gap, token⟩ :: others, ?_, ?_⟩
    · rw [List.flatMap_cons, List.append_assoc]
      exact .cons fits_other partition_others
    · rw [List.map_cons, same]
      rfl

/-- Lexing does not depend on the layout: a text with the tokens of another one and other blanks
before, between and after them has the same kinds and literals, and then the end for ever, if there
are blanks between two tokens wherever there were some. -/
theorem nextMany_respaced {text other path : String} {entries : List Respacing}
    {tail tail' : List Char}
    (tokens : (Cursor.ofText text path).tokens.1 = entries.map fun entry => entry.piece.token)
    (respaced : Respaced text.toList other.toList entries tail tail') (path' : String)
    (count : Nat) :
    ((Cursor.ofText other path').nextMany (entries.length + count)).1.map
        (Token.mapMark fun _ => ()) =
      (Cursor.ofText text path).words ++ .replicate count ⟨.eof, "", ()⟩ := by
  obtain ⟨pieces, rest, partition⟩ := exists_partition path [] text.toList
  have read : pieces.map Piece.token = (entries.map Respacing.piece).map Piece.token :=
    calc pieces.map Piece.token
        = (Cursor.ofText text path).tokens.1 := by rw [Cursor.tokens_ofText partition]
      _ = (entries.map Respacing.piece).map Piece.token := by rw [tokens, List.map_map]; rfl
  obtain ⟨rfl, rfl⟩ := partition.pieces_unique read
    (by rw [respaced.text_eq, List.flatMap_map])
    (List.forall_mem_map.mpr fun entry member c inside =>
      respaced.gaps entry member c (List.mem_append_left _ inside))
  rw [respaced.text_eq] at partition
  obtain ⟨others, partition_other, same⟩ := partition.respaced
    (fun entry member c inside => respaced.gaps entry member c (List.mem_append_right _ inside))
    (fun c inside => respaced.blanks c (List.mem_append_right _ inside)) respaced.kept path' []
  rw [← respaced.other_eq] at partition_other
  have count_eq : others.length = entries.length := by simpa using congrArg List.length same
  have all := (Cursor.ofText other path').nextMany_tokens count
  rw [Cursor.tokens_ofText partition_other, List.length_map, count_eq] at all
  rw [all, Cursor.words, tokens, List.map_append, List.map_map, List.map_map, List.map_replicate]
  exact congrArg (· ++ _) same

/-- Blanks come between tokens that had none, and blanks that were there become fewer and others. -/
theorem nextMany_respaced_adjacent :
    let text := "===1 \n a;"
    let other := " == = 1\ta; "
    let entries : List Respacing :=
      [⟨⟨[], ⟨.equal, "==", ⟨"p", 1, 1⟩⟩⟩, [' ']⟩, ⟨⟨[], ⟨.assign, "=", ⟨"p", 1, 3⟩⟩⟩, [' ']⟩,
        ⟨⟨[], ⟨.integer, "1", ⟨"p", 1, 4⟩⟩⟩, [' ']⟩,
        ⟨⟨[' ', '\n', ' '], ⟨.identifier, "a", ⟨"p", 2, 2⟩⟩⟩, ['\t']⟩,
        ⟨⟨[], ⟨.semicolon, ";", ⟨"p", 2, 3⟩⟩⟩, []⟩]
    (Cursor.ofText text "p").tokens.1 = entries.map (fun entry => entry.piece.token) ∧
      Respaced text.toList other.toList entries [] [' '] ∧
      ((Cursor.ofText other "q").nextMany (5 + 2)).1.map (Token.mapMark fun _ => ()) =
        (Cursor.ofText text "p").words ++ .replicate 2 ⟨.eof, "", ()⟩ := by
  intro text other entries
  have tokens : (Cursor.ofText text "p").tokens.1 =
      entries.map (fun entry => entry.piece.token) := by
    decide +kernel
  have gaps : entries.all (fun entry => (entry.piece.gap ++ entry.gap).all isBlank) = true := by
    decide
  have respaced : Respaced text.toList other.toList entries [] [' '] :=
    ⟨by decide, by decide, fun entry member =>
      List.all_eq_true.mp (List.all_eq_true.mp gaps entry member),
      List.all_eq_true.mp (by decide), by decide⟩
  exact ⟨tokens, respaced, nextMany_respaced tokens respaced "q" 2⟩

end Scriptlet
