import Scriptlet.Proofs.Marks
import Scriptlet.Proofs.Order
import Scriptlet.Proofs.Partition

/-!
# Indices

The tokens that a cursor reads one after the other, by their number, and a program with such numbers
in place of its tokens. Since the parser never looks at the mark of a token, the numbers can be the
marks while it reads. So every program is that of a tree of numbers, and in this tree the order of
the landmarks is an order of numbers.
-/

namespace Scriptlet

variable {α β : Type}

namespace TokenStream

/-- The token with a number, and the end for all numbers from the size on. -/
def nth (stream : TokenStream α) (i : Nat) : Token α := stream.pending[i]?.getD stream.ending

/-- The mark of the token with a number. -/
def place (stream : TokenStream α) (i : Nat) : α := (stream.nth i).location

/-- The stream with the number of each token in place of its mark. -/
def numbered (stream : TokenStream α) : TokenStream Nat :=
  ⟨stream.pending.mapIdx fun i token => token.mapMark fun _ => i, stream.size⟩

variable (stream : TokenStream α)

theorem nth_zero : stream.nth 0 = stream.current := by
  rcases stream with ⟨_ | _, _⟩ <;> rfl

theorem nth_advance (i : Nat) : stream.advance.nth i = stream.nth (i + 1) := by
  simp [nth, advance, ending]

/-- In a numbered stream every token has its own index for a mark. -/
theorem getElem?_numbered (i : Nat) : stream.numbered.pending[i]? =
    stream.pending[i]?.map fun token => token.mapMark fun _ => i := by
  simp [numbered]

/-- The number of a token is the number of tokens before it. -/
theorem location_numbered {earlier later : List (Token Nat)} {token : Token Nat}
    (parts : stream.numbered.pending = earlier ++ token :: later) :
    token.location = earlier.length := by
  have found := stream.getElem?_numbered earlier.length
  rw [parts, List.getElem?_append_right (Nat.le_refl _), Nat.sub_self] at found
  obtain ⟨original, -, rfl⟩ := Option.map_eq_some_iff.mp found.symm
  rfl

/-- Each of the first tokens has a number smaller than how many they are. -/
theorem location_lt {earlier later : List (Token Nat)} {token : Token Nat}
    (parts : stream.numbered.pending = earlier ++ later) (member : token ∈ earlier) :
    token.location < earlier.length := by
  obtain ⟨first, last, rfl⟩ := List.append_of_mem member
  rw [List.append_assoc, List.cons_append] at parts
  rw [stream.location_numbered parts]
  simp

theorem kind_nth {i : Nat} {token : Token Nat} (read : stream.numbered.pending[i]? = some token) :
    (stream.nth i).kind = token.kind := by
  rw [getElem?_numbered] at read
  obtain ⟨original, found, rfl⟩ := Option.map_eq_some_iff.mp read
  rw [nth, found, Option.getD_some, Token.kind_mapMark]

/-- Every token of the stream is the one with its number. -/
theorem nth_location {token : Token Nat} (member : token ∈ stream.numbered.pending) :
    token.mapMark stream.place = stream.nth token.location := by
  obtain ⟨i, found⟩ := List.mem_iff_getElem?.mp member
  rw [getElem?_numbered] at found
  obtain ⟨original, read, rfl⟩ := Option.map_eq_some_iff.mp found
  have same : stream.nth i = original := by rw [nth, read, Option.getD_some]
  show (⟨original.kind, original.literal, (stream.nth i).location⟩ : Token α) = stream.nth i
  rw [same]

/-- A stream is told by its numbered tokens and the mark of each number. -/
theorem mapMarks_numbered : stream.numbered.mapMarks stream.place = stream := by
  have pending : stream.numbered.pending.map (Token.mapMark stream.place) = stream.pending := by
    apply List.ext_getElem?
    intro i
    rw [List.getElem?_map, getElem?_numbered]
    cases read : stream.pending[i]? with
    | none => rfl
    | some token => simp [Token.mapMark, place, nth, read]
  have stop : stream.place stream.size = stream.stop := by
    simp [place, nth, size, ending]
  rw [mapMarks, pending]
  exact congrArg (mk stream.pending) stop

end TokenStream

namespace Cursor

/-- The token that is read after so many others. -/
def nth (cursor : Cursor) : Nat → Token Location
  | 0 => cursor.next.1
  | i + 1 => cursor.next.2.nth i

/-- The token that is read next is the first one of the stream. -/
theorem current_ofCursor (cursor : Cursor) :
    (TokenStream.ofCursor cursor).current = cursor.next.1 := by
  by_cases ended : cursor.skipBlanks.rest = []
  · rw [next_of_ended ended, TokenStream.ofCursor, tokens_of_ended ended]
    rfl
  · rw [TokenStream.ofCursor, tokens_of_more ended]
    rfl

/-- Behind the token that is read next the stream goes on. -/
theorem ofCursor_next (cursor : Cursor) :
    TokenStream.ofCursor cursor.next.2 = (TokenStream.ofCursor cursor).advance := by
  by_cases ended : cursor.skipBlanks.rest = []
  · have still := skipBlanks_of_ended ended
    rw [next_of_ended ended, TokenStream.ofCursor, TokenStream.ofCursor, tokens_of_ended ended,
      tokens_of_ended (by rw [still, ended]), still]
    rfl
  · rw [TokenStream.ofCursor, TokenStream.ofCursor, tokens_of_more ended]
    rfl

/-- Reading tokens one after the other gives those of the stream. -/
theorem nth_eq (cursor : Cursor) (i : Nat) : cursor.nth i = (TokenStream.ofCursor cursor).nth i := by
  induction i generalizing cursor with
  | zero => rw [nth, TokenStream.nth_zero, current_ofCursor]
  | succ i ih => rw [nth, ih, ofCursor_next, TokenStream.nth_advance]

/-- A token that is read is the end token exactly from the number of tokens on. -/
theorem nth_eq_eof_iff (cursor : Cursor) (i : Nat) :
    (cursor.nth i).kind = .eof ↔ cursor.tokens.1.length ≤ i := by
  rw [nth_eq, TokenStream.nth]
  show ((cursor.tokens.1[i]?).getD _).kind = .eof ↔ _
  cases read : cursor.tokens.1[i]? with
  | none => exact ⟨fun _ => List.getElem?_eq_none_iff.mp read, fun _ => rfl⟩
  | some token =>
    have genuine := cursor.genuine_of_mem_tokens token (List.mem_of_getElem? read)
    have within := (List.getElem?_eq_some_iff.mp read).1
    constructor
    · intro isEnd
      exact absurd isEnd genuine.ne_eof
    · intro beyond
      omega

end Cursor

namespace Parser

/-- Other marks of the tokens are other marks in the program. -/
theorem program_mapMarks (f : α → β) (stream : TokenStream α) :
    (ofStream (stream.mapMarks f)).program.1 =
      (ofStream stream).program.1.mapTokens (Token.mapMark f) := by
  have image := Parse.image_statements (rfl : stream.mapMarks f = _)
  show Program.mk ((Parse.statements (stream.mapMarks f)).value.getD []) =
    (Program.mk ((Parse.statements stream).value.getD [])).mapTokens (Token.mapMark f)
  rw [image.value]
  cases (Parse.statements stream).value <;> rfl

/-- Other marks of the tokens are other marks in the problems. -/
theorem problems_mapMarks (f : α → β) (stream : TokenStream α) :
    (ofStream (stream.mapMarks f)).program.2.problems =
      (ofStream stream).program.2.problems.map (Problem.mapMark f) :=
  (Parse.image_statements (rfl : stream.mapMarks f = _)).problems

end Parser

namespace TokenStream

/-- What is read from a stream, with numbers in place of the tokens. -/
def numberedProgram (stream : TokenStream α) : Program Nat :=
  (Parser.ofStream stream.numbered).program.1.mapTokens Token.location

variable (stream : TokenStream α)

/-- The landmarks of a program come in the order of the numbered tokens that it is read from. -/
theorem along_numbered :
    Along (Parser.ofStream stream.numbered).program.1.landmarks stream.numbered.pending :=
  Parse.along_statements stream.numbered

/-- A program has the tokens with the numbers that stand in the numbered program. -/
theorem mapTokens_numberedProgram :
    (Parser.ofStream stream).program.1 = stream.numberedProgram.mapTokens stream.nth := by
  have agree : Agree (Token.mapMark stream.place) (stream.nth ∘ Token.location)
      (Parser.ofStream stream.numbered).program.1.landmarks := fun landmark member =>
    stream.nth_location (stream.along_numbered.mark_mem landmark member)
  calc (Parser.ofStream stream).program.1
      = (Parser.ofStream (stream.numbered.mapMarks stream.place)).program.1 := by
        rw [mapMarks_numbered]
    _ = (Parser.ofStream stream.numbered).program.1.mapTokens (Token.mapMark stream.place) :=
        Parser.program_mapMarks stream.place stream.numbered
    _ = (Parser.ofStream stream.numbered).program.1.mapTokens (stream.nth ∘ Token.location) :=
        congrArg Program.mk (mapStatements_congr _ agree)
    _ = stream.numberedProgram.mapTokens stream.nth :=
        congrArg Program.mk (mapStatements_mapStatements _ _ _).symm

theorem landmarks_numberedProgram : stream.numberedProgram.landmarks =
    (Parser.ofStream stream.numbered).program.1.landmarks.map (Landmark.map Token.location) :=
  statementLandmarks_mapStatements _ _

theorem map_location_numbered :
    stream.numbered.pending.map Token.location = List.range stream.size := by
  apply List.ext_getElem?
  intro i
  rw [List.getElem?_map, getElem?_numbered]
  cases read : stream.pending[i]? with
  | none =>
    have beyond : stream.size ≤ i := List.getElem?_eq_none_iff.mp read
    simp [beyond]
  | some token =>
    have within : i < stream.size := (List.getElem?_eq_some_iff.mp read).1
    rw [List.getElem?_range within]
    rfl

/-- The numbers in a program are some of those of the tokens, in order. -/
theorem tokens_numberedProgram_sublist :
    stream.numberedProgram.tokens.Sublist (List.range stream.size) := by
  rw [numberedProgram, Program.tokens_mapTokens, ← map_location_numbered]
  exact stream.along_numbered.sublist.map Token.location

/-- An expression statement in the numbered program, in terms of the tokens that are left. -/
theorem exists_of_start_numbered {before after : List (Landmark Nat)} {own : Nat}
    (parts : stream.numberedProgram.landmarks = before ++ .start own :: after) :
    ∃ (earlier opening later : List (Token Nat)) (token start : Token Nat) (rest : _),
      stream.numbered.pending = earlier ++ (opening ++ token :: later) ∧
        (opening ++ [token]).head? = some start ∧ start.location = own ∧
        (∀ paren ∈ opening, paren.kind = .leftParen) ∧ after = .item token.location :: rest ∧
        (before.filterMap Landmark.token?).Sublist (earlier.map Token.location) := by
  have along := stream.along_numbered
  rw [landmarks_numberedProgram] at parts
  obtain ⟨front, back, whole, rfl, cut⟩ := List.map_eq_append_iff.mp parts
  obtain ⟨landmark, last, rfl, isStart, rfl⟩ := List.map_eq_cons_iff.mp cut
  obtain ⟨start, rfl, rfl⟩ : ∃ start, landmark = .start start ∧ start.location = own := by
    cases landmark with
    | item token => cases isStart
    | start token => exact ⟨token, rfl, Landmark.start.inj isStart⟩
  rw [whole] at along
  obtain ⟨earlier, opening, token, later, rest, pending, rfl, begins, parens, along_front⟩ :=
    along.exists_of_start
  refine ⟨earlier, opening, later, token, start, _, pending, begins, rfl, parens, rfl, ?_⟩
  rw [Landmark.filterMap_token?_map]
  exact along_front.sublist.map Token.location

/-- Where an expression statement begins, all numbers before it are smaller than its own, and from
its own number up to the first one of its value there are only opening parentheses. -/
theorem lt_and_exists_first {before after : List (Landmark Nat)} {own : Nat}
    (parts : stream.numberedProgram.landmarks = before ++ .start own :: after) :
    (∀ i ∈ before.filterMap Landmark.token?, i < own) ∧
      ∃ first rest, after = .item first :: rest ∧ own ≤ first ∧
        ∀ i, own ≤ i → i < first → (stream.nth i).kind = .leftParen := by
  obtain ⟨earlier, opening, later, token, start, rest, pending, begins, rfl, parens, rfl, sublist⟩ :=
    stream.exists_of_start_numbered parts
  have own_eq : start.location = earlier.length := by
    obtain ⟨more, unfolded⟩ := List.head?_eq_some_iff.mp begins
    have at_start : stream.numbered.pending = earlier ++ start :: (more ++ later) := by
      rw [pending, ← List.cons_append, ← unfolded, List.append_assoc, List.singleton_append]
    exact stream.location_numbered at_start
  have first_eq : token.location = earlier.length + opening.length := by
    rw [← List.length_append]
    exact stream.location_numbered (pending.trans (List.append_assoc ..).symm)
  refine ⟨?_, token.location, rest, rfl, by omega, ?_⟩
  · intro i member
    obtain ⟨token, inside, rfl⟩ := List.mem_map.mp (sublist.subset member)
    rw [own_eq]
    exact stream.location_lt pending inside
  · intro i low high
    obtain ⟨n, rfl⟩ : ∃ n, i = earlier.length + n := ⟨i - earlier.length, by omega⟩
    have within : n < opening.length := by omega
    have read : stream.numbered.pending[earlier.length + n]? = some opening[n] := by
      rw [pending, List.getElem?_append_right (Nat.le_add_right _ _), Nat.add_sub_cancel_left,
        List.getElem?_append_left within, List.getElem?_eq_getElem within]
    rw [stream.kind_nth read]
    exact parens _ (List.getElem_mem within)

end TokenStream

/-- A program holds its tokens in the order in which they are read, and none of them twice: with
their numbers in place of them, the numbers in the tree increase strictly. The token with which an
expression statement begins comes behind all tokens before the statement, and either is the first
one of its value or the first of the parentheses that stand directly before that. This holds of
every program that is read, also where statements are left out. -/
theorem exists_increasing_numbers (cursor : Cursor) : ∃ tree : Program Nat,
    (Parser.ofCursor cursor).program.1 = tree.mapTokens cursor.nth ∧
      (Parser.ofCursor cursor).program.1.tokens = tree.tokens.map cursor.nth ∧
      tree.tokens.Pairwise (· < ·) ∧ (∀ i ∈ tree.tokens, i < cursor.tokens.1.length) ∧
      ∀ before own after, tree.landmarks = before ++ .start own :: after →
        (∀ i ∈ before.filterMap Landmark.token?, i < own) ∧
        ∃ first rest, after = .item first :: rest ∧ own ≤ first ∧
          ∀ i, own ≤ i → i < first → (cursor.nth i).kind = .leftParen := by
  let stream := TokenStream.ofCursor cursor
  have same : cursor.nth = stream.nth := funext cursor.nth_eq
  have sublist := stream.tokens_numberedProgram_sublist
  have read : (Parser.ofCursor cursor).program.1 = stream.numberedProgram.mapTokens cursor.nth := by
    rw [same]
    exact stream.mapTokens_numberedProgram
  refine ⟨stream.numberedProgram, read, ?_, List.pairwise_lt_range.sublist sublist, ?_, ?_⟩
  · rw [read, Program.tokens_mapTokens]
  · intro i member
    exact List.mem_range.mp (sublist.subset member)
  · intro before own after parts
    rw [same]
    exact stream.lt_and_exists_first parts

/-- The statement of the group begins at the parenthesis, which is in no node. -/
example : (TokenStream.ofCursor (.ofText "-1; (2 + 3)" "p")).numberedProgram.landmarks =
    [.start 0, .item 0, .item 1, .start 3, .item 4, .item 5, .item 6] := by
  decide +kernel

end Scriptlet
