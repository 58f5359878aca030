import Mathlib.Data.List.TakeWhile
import Scriptlet.Proofs.Places
import Scriptlet.Proofs.Words

/-!
# Partitions

A text is cut into tokens with blanks between them, and nothing of it is lost. `Partition` says what
such a cut is, in terms of the text alone: which literals there are and of what kind each of them
is, that no literal could have been longer, and that every token stands where its first character
does. `exists_partition` says that there is such a cut, and `Cursor.tokens_of_partition` that its
tokens are those that are read; after the last of them the end token comes for ever.
-/

namespace Scriptlet

/-- The kinds that have a single literal, which is also their name. -/
def Kind.punctuation : List Kind :=
  [.assign, .equal, .notEqual, .plus, .minus, .times, .divide, .not, .comma, .semicolon,
    .leftParen, .rightParen, .leftBrace, .rightBrace, .less, .greater]

/-- The literals of each kind. -/
inductive Kind.Spells : Kind → String → Prop where
  | keyword {word : String} {kind : Kind} (listed : (word, kind) ∈ keywords) : Spells kind word
  | name {text : String} (isName : IsName text) : Spells .identifier text
  | number {text : String} (nonempty : text ≠ "")
      (digits : ∀ c ∈ text.toList, c.isDigit = true) : Spells .integer text
  | punctuation {kind : Kind} (listed : kind ∈ punctuation) : Spells kind kind.text
  | other {c : Char} (solid : isBlank c = false) (notLetter : isLetter c = false)
      (notDigit : c.isDigit = false)
      (notPunctuation : ∀ kind ∈ punctuation, kind.text ≠ String.singleton c) :
      Spells .illegal (String.singleton c)

/-- A literal before some characters could not have been longer. -/
structure Maximal (literal after : List Char) : Prop where
  word : (∀ c ∈ literal, isLetter c = true) → ∀ next ∈ after.head?, isLetter next = false
  number : (∀ c ∈ literal, c.isDigit = true) → ∀ next ∈ after.head?, next.isDigit = false
  sign : literal = ['='] ∨ literal = ['!'] → after.head? ≠ some '='

/-- Blanks, and the token after them. -/
structure Piece where
  gap : List Char
  token : Token Location

namespace Piece

/-- The characters of a piece. -/
def chars (piece : Piece) : List Char := piece.gap ++ piece.token.literal.toList

/-- A piece of the text of the file `path` between the characters `before` and the characters
`after`. -/
structure Fits (path : String) (before : List Char) (piece : Piece) (after : List Char) : Prop where
  gap : ∀ c ∈ piece.gap, isBlank c = true
  nonempty : piece.token.literal ≠ ""
  solid : ∀ c ∈ piece.token.literal.toList, isBlank c = false
  spells : piece.token.kind.Spells piece.token.literal
  maximal : Maximal piece.token.literal.toList after
  location : piece.token.location = .behind path (before ++ piece.gap)

end Piece

/-- The text `text` after the characters `before` of the file `path` is the pieces one after
another, with the blanks `tail` at its end. -/
structure Partition (path : String) (before text : List Char) (pieces : List Piece)
    (tail : List Char) : Prop where
  text_eq : text = pieces.flatMap Piece.chars ++ tail
  blanks : ∀ c ∈ tail, isBlank c = true
  fits : ∀ first piece last, pieces = first ++ piece :: last →
    piece.Fits path (before ++ first.flatMap Piece.chars) (last.flatMap Piece.chars ++ tail)

/-! ## Literals -/

theorem Kind.mem_keywords_of_lookup {word : String} {kind : Kind}
    (found : keywords.lookup word = some kind) : (word, kind) ∈ keywords := by
  obtain ⟨before, after, same, -⟩ := List.lookup_eq_some_iff.mp found
  simp [same]

/-- All punctuation but `==` and `!=` is a single character that no run takes in. -/
theorem Kind.cases_punctuation : ∀ kind ∈ punctuation, kind = .equal ∨ kind = .notEqual ∨
    let c := kind.text.toList.headD ' '
    kind.text.toList = [c] ∧ isLetter c = false ∧ c.isDigit = false ∧ ofSymbol c = kind := by
  decide

theorem Kind.ofSymbol_ne_illegal {c : Char} {kind : Kind} (listed : kind ∈ punctuation)
    (same : kind.text = String.singleton c) : ofSymbol c ≠ .illegal := by
  have chars : kind.text.toList = [c] := by simp [same]
  have known : kind ≠ .illegal := by
    rintro rfl
    exact absurd listed (by decide)
  rcases cases_punctuation kind listed with rfl | rfl | single
  · simp [text] at chars
  · simp [text] at chars
  · obtain ⟨-, -, -, symbol⟩ := single
    rw [chars, List.headD_cons] at symbol
    rwa [symbol]

theorem Kind.ofSymbol_mem_punctuation {c : Char} (known : ofSymbol c ≠ .illegal) :
    ofSymbol c ∈ punctuation := by
  have member := ofSymbol_mem c
  simp only [List.mem_cons, List.not_mem_nil, or_false, known] at member
  revert member
  cases ofSymbol c <;> decide

/-- A lexeme without blanks is a literal of its kind. -/
theorem IsLexeme.spells {kind : Kind} {text : String} (lexeme : IsLexeme kind text)
    (solid : ∀ c ∈ text.toList, isBlank c = false) : kind.Spells text := by
  cases lexeme with
  | word nonempty letters =>
    cases found : Kind.keywords.lookup text with
    | some kind =>
      have same : Kind.ofWord text = kind := by simp [Kind.ofWord, found]
      exact same ▸ .keyword (Kind.mem_keywords_of_lookup found)
    | none =>
      have same : Kind.ofWord text = .identifier := by simp [Kind.ofWord, found]
      rw [same]
      exact .name ⟨nonempty, letters, (Kind.ofWord_eq_identifier_iff text).mp same⟩
  | number nonempty digits => exact .number nonempty digits
  | equal => exact @Kind.Spells.punctuation .equal (by decide)
  | notEqual => exact @Kind.Spells.punctuation .notEqual (by decide)
  | @symbol c notLetter notDigit =>
    by_cases known : Kind.ofSymbol c = .illegal
    · rw [known]
      exact .other (solid c (by simp)) (by simpa using notLetter) (by simpa using notDigit)
        fun kind listed same => Kind.ofSymbol_ne_illegal listed same known
    · rw [← Kind.text_ofSymbol known]
      exact .punctuation (Kind.ofSymbol_mem_punctuation known)

/-- What follows a run of a class of characters is not of the class. -/
theorem not_of_mem_head?_dropWhile (p : Char → Bool) (chars : List Char) :
    ∀ c ∈ (chars.dropWhile p).head?, p c = false := by
  intro c first
  have stopped := List.head?_dropWhile_not p chars
  rwa [Option.mem_def.mp first] at stopped

theorem notDigit_of_letter {c : Char} (letter : isLetter c = true) : c.isDigit = false := by
  cases digit : c.isDigit with
  | false => rfl
  | true => simp [notLetter_of_digit digit] at letter

private theorem not_sign_of_run {p : Char → Bool} {c : Char} {more : List Char} (first : p c = true)
    (notEqual : p '=' = false) (notNot : p '!' = false) :
    ¬ (c :: more = ['='] ∨ c :: more = ['!']) := by
  rintro (same | same)
  · exact absurd first (by simp [List.head_eq_of_cons_eq same, notEqual])
  · exact absurd first (by simp [List.head_eq_of_cons_eq same, notNot])

/-- A lexeme takes in all that it can. -/
theorem Lexeme.maximal_read (c : Char) (rest : List Char) :
    Maximal (read c rest).chars ((c :: rest).drop (read c rest).chars.length) := by
  unfold read
  split
  · next letter =>
    simp only [List.length_cons, List.drop_succ_cons, drop_length_takeWhile]
    refine ⟨fun _ => not_of_mem_head?_dropWhile _ rest, fun digits => ?_, fun isSign => ?_⟩
    · simp [notDigit_of_letter letter] at digits
    · exact absurd isSign (not_sign_of_run letter rfl rfl)
  · next notLetter =>
    split
    · next digit =>
      simp only [List.length_cons, List.drop_succ_cons, drop_length_takeWhile]
      refine ⟨fun letters => ?_, fun _ => not_of_mem_head?_dropWhile _ rest, fun isSign => ?_⟩
      · exact absurd (letters c List.mem_cons_self) notLetter
      · exact absurd isSign (not_sign_of_run digit rfl rfl)
    · next notDigit =>
      split
      · exact ⟨by simp [isLetter], by simp, by simp⟩
      · next notEqual =>
        split
        · exact ⟨by simp [isLetter], by simp, by simp⟩
        · next notNotEqual =>
          refine ⟨by simp [notLetter], by simp [notDigit], fun isSign => ?_⟩
          simp only [List.length_singleton, List.drop_succ_cons, List.drop_zero]
          intro double
          rcases isSign with same | same
          · exact notEqual ⟨by simpa using same, double⟩
          · exact notNotEqual ⟨by simpa using same, double⟩

/-- A lexeme and what follows it are the text that it was read from. -/
theorem Lexeme.chars_append_drop (c : Char) (rest : List Char) :
    (read c rest).chars ++ (c :: rest).drop (read c rest).chars.length = c :: rest :=
  calc (read c rest).chars ++ (c :: rest).drop (read c rest).chars.length
      = (c :: rest).take (read c rest).chars.length ++
          (c :: rest).drop (read c rest).chars.length := by rw [take_length_chars]
    _ = c :: rest := List.take_append_drop _ _

/-- The characters of a lexeme that begins with no blank are none. -/
theorem Lexeme.solid_read {c : Char} (rest : List Char) (solid : isBlank c = false) :
    ∀ d ∈ (read c rest).chars, isBlank d = false := by
  have run {p : Char → Bool} (apart : ∀ d, p d = true → isBlank d = false) :
      ∀ d ∈ c :: rest.takeWhile p, isBlank d = false := by
    intro d member
    rcases List.mem_cons.mp member with rfl | member
    · exact solid
    · exact apart d (List.mem_takeWhile_imp member)
  unfold read
  split
  · refine run fun d letter => ?_
    cases blank : isBlank d with
    | false => rfl
    | true => simp [(runs_of_blank blank).1] at letter
  · split
    · refine run fun d digit => ?_
      cases blank : isBlank d with
      | false => rfl
      | true => simp [(runs_of_blank blank).2] at digit
    · split
      · simp [isBlank]
      · split
        · simp [isBlank]
        · simpa using solid

/-! ## Reading a literal -/

/-- A run of a class of characters that goes on no further is taken as a whole. -/
theorem takeWhile_of_begun {p : Char → Bool} {run after rest : List Char} {c : Char}
    (nonempty : run ≠ []) (all : ∀ d ∈ run, p d = true) (stop : ∀ d ∈ after.head?, p d = false)
    (begun : run ++ after = c :: rest) : c :: rest.takeWhile p = run ∧ p c = true := by
  cases run with
  | nil => exact absurd rfl nonempty
  | cons d run =>
    rw [List.cons_append] at begun
    obtain ⟨rfl, rfl⟩ := List.cons.inj begun
    have inner : ∀ e ∈ run, p e = true := fun e member => all e (List.mem_cons_of_mem d member)
    exact ⟨by rw [takeWhile_append_of_stop inner stop], all d List.mem_cons_self⟩

namespace Lexeme

variable {text : String} {after rest : List Char} {c : Char}

/-- A run of letters is one word up to where it stops. -/
theorem read_word (nonempty : text ≠ "") (letters : ∀ d ∈ text.toList, isLetter d = true)
    (stop : ∀ d ∈ after.head?, isLetter d = false) (begun : text.toList ++ after = c :: rest) :
    read c rest = ⟨.ofWord text, text.toList⟩ := by
  obtain ⟨run, letter⟩ := takeWhile_of_begun (by simpa using nonempty) letters stop begun
  rw [read, if_pos letter, run]
  simp only [String.ofList_toList]

theorem read_number (nonempty : text ≠ "") (digits : ∀ d ∈ text.toList, d.isDigit = true)
    (stop : ∀ d ∈ after.head?, d.isDigit = false) (begun : text.toList ++ after = c :: rest) :
    read c rest = ⟨.integer, text.toList⟩ := by
  obtain ⟨run, digit⟩ := takeWhile_of_begun (by simpa using nonempty) digits stop begun
  have notLetter : ¬ isLetter c = true := by simp [notLetter_of_digit digit]
  rw [read, if_neg notLetter, if_pos digit, run]

/-- A character that is a literal by itself is read as one, if no longer literal begins there. -/
theorem read_symbol {d : Char} (notLetter : isLetter d = false) (notDigit : d.isDigit = false)
    (maximal : Maximal [d] after) (begun : [d] ++ after = c :: rest) :
    read c rest = ⟨.ofSymbol d, [d]⟩ := by
  obtain ⟨rfl, rfl⟩ := List.cons.inj begun
  refine read_alone notLetter notDigit fun isSign => maximal.sign ?_
  simpa [signs] using isSign

/-- A text that begins with a literal which could not be longer is read as that literal. -/
theorem read_of_spells {kind : Kind} (spells : kind.Spells text)
    (maximal : Maximal text.toList after) (begun : text.toList ++ after = c :: rest) :
    read c rest = ⟨kind, text.toList⟩ := by
  cases spells with
  | keyword listed =>
    have known : ∀ entry ∈ Kind.keywords, entry.1 ≠ "" ∧ entry.1.toList.all isLetter = true ∧
        Kind.ofWord entry.1 = entry.2 := by decide
    obtain ⟨nonempty, letters, same⟩ := known _ listed
    have letters := List.all_eq_true.mp letters
    rw [read_word nonempty letters (maximal.word letters) begun, same]
  | name isName =>
    have same := (Kind.ofWord_eq_identifier_iff text).mpr isName.notKeyword
    rw [read_word isName.nonempty isName.letters (maximal.word isName.letters) begun, same]
  | number nonempty digits => exact read_number nonempty digits (maximal.number digits) begun
  | punctuation listed =>
    rcases Kind.cases_punctuation _ listed with rfl | rfl | single
    · obtain ⟨rfl, rfl⟩ := List.cons.inj begun
      rfl
    · obtain ⟨rfl, rfl⟩ := List.cons.inj begun
      rfl
    · obtain ⟨chars, notLetter, notDigit, same⟩ := single
      rw [chars] at maximal begun ⊢
      rw [read_symbol notLetter notDigit maximal begun, same]
  | @other d solid notLetter notDigit notPunctuation =>
    have same : Kind.ofSymbol d = .illegal := by
      by_contra known
      exact notPunctuation _ (Kind.ofSymbol_mem_punctuation known) (Kind.text_ofSymbol known)
    rw [String.toList_singleton] at maximal begun ⊢
    rw [read_symbol notLetter notDigit maximal begun, same]

end Lexeme

/-! ## Cutting a text -/

theorem Piece.Fits.chars_ne_nil {path : String} {before after : List Char} {piece : Piece}
    (fits : piece.Fits path before after) : piece.chars ≠ [] := by
  simp [chars, fits.nonempty]

theorem Partition.nil (path : String) (before : List Char) {text : List Char}
    (blanks : ∀ c ∈ text, isBlank c = true) : Partition path before text [] text :=
  ⟨rfl, blanks, by simp⟩

/-- A piece before a partition. -/
theorem Partition.cons {path : String} {before rest tail : List Char} {piece : Piece}
    {pieces : List Piece} (fits : piece.Fits path before rest)
    (partition : Partition path (before ++ piece.chars) rest pieces tail) :
    Partition path before (piece.chars ++ rest) (piece :: pieces) tail := by
  refine ⟨?_, partition.blanks, ?_⟩
  · rw [List.flatMap_cons, List.append_assoc, ← partition.text_eq]
  · intro first other last same
    cases first with
    | nil =>
      obtain ⟨rfl, rfl⟩ := List.cons.inj same
      rw [List.flatMap_nil, List.append_nil, ← partition.text_eq]
      exact fits
    | cons head first =>
      obtain ⟨rfl, rfl⟩ := List.cons.inj same
      rw [List.flatMap_cons, ← List.append_assoc]
      exact partition.fits first other last rfl

/-- The first piece of a partition, and the partition of what follows it. -/
theorem Partition.uncons {path : String} {before text tail : List Char} {piece : Piece}
    {pieces : List Piece} (partition : Partition path before text (piece :: pieces) tail) :
    ∃ rest, text = piece.chars ++ rest ∧ piece.Fits path before rest ∧
      Partition path (before ++ piece.chars) rest pieces tail := by
  refine ⟨pieces.flatMap Piece.chars ++ tail, ?_, ?_, rfl, partition.blanks, ?_⟩
  · rw [partition.text_eq, List.flatMap_cons, List.append_assoc]
  · simpa using partition.fits [] piece pieces rfl
  · intro first other last same
    have fits := partition.fits (piece :: first) other last (by rw [same, List.cons_append])
    rwa [List.flatMap_cons, ← List.append_assoc] at fits

theorem length_le_length_flatMap {pieces : List Piece}
    (nonempty : ∀ piece ∈ pieces, piece.chars ≠ []) :
    pieces.length ≤ (pieces.flatMap Piece.chars).length := by
  induction pieces with
  | nil => simp
  | cons piece pieces ih =>
    have first := List.length_pos_iff.mpr (nonempty piece List.mem_cons_self)
    have others := ih fun other member => nonempty other (List.mem_cons_of_mem piece member)
    simp only [List.length_cons, List.flatMap_cons, List.length_append]
    omega

/-- There are no more pieces than characters. -/
theorem Partition.length_le {path : String} {before text tail : List Char} {pieces : List Piece}
    (partition : Partition path before text pieces tail) : pieces.length ≤ text.length := by
  have nonempty : ∀ piece ∈ pieces, piece.chars ≠ [] := by
    intro piece member
    obtain ⟨first, last, same⟩ := List.append_of_mem member
    exact (partition.fits first piece last same).chars_ne_nil
  have fewer := length_le_length_flatMap nonempty
  rw [partition.text_eq, List.length_append]
  omega

/-- A text that is not all blanks begins with a piece. -/
theorem exists_piece (path : String) (before : List Char) {text : List Char}
    (more : text.dropWhile isBlank ≠ []) : ∃ (piece : Piece) (rest : List Char),
      piece.Fits path before rest ∧ text = piece.chars ++ rest := by
  obtain ⟨c, rest, begun⟩ := List.exists_cons_of_ne_nil more
  let gap := text.takeWhile isBlank
  let lexeme := Lexeme.read c rest
  let token : Token Location :=
    ⟨lexeme.kind, String.ofList lexeme.chars, .behind path (before ++ gap)⟩
  have literal : token.literal.toList = lexeme.chars := String.toList_ofList
  have solid : ∀ d ∈ lexeme.chars, isBlank d = false :=
    Lexeme.solid_read rest (not_of_mem_head?_dropWhile isBlank text c (by simp [begun]))
  refine ⟨⟨gap, token⟩, (c :: rest).drop lexeme.chars.length, ?_, ?_⟩
  · constructor
    · exact List.all_eq_true.mp List.all_takeWhile
    · intro empty
      exact Lexeme.chars_read_ne_nil c rest (by rw [← literal, empty, String.toList_empty])
    · rwa [literal]
    · exact (Lexeme.isLexeme_read c rest).spells (by rwa [String.toList_ofList])
    · rw [literal]
      exact Lexeme.maximal_read c rest
    · rfl
  · rw [Piece.chars, literal, List.append_assoc, Lexeme.chars_append_drop, ← begun,
      List.takeWhile_append_dropWhile]

/-- Every text has a partition. -/
theorem exists_partition (path : String) (before text : List Char) :
    ∃ pieces tail, Partition path before text pieces tail := by
  by_cases ended : text.dropWhile isBlank = []
  · exact ⟨[], text, .nil path before (List.dropWhile_eq_nil_iff.mp ended)⟩
  · obtain ⟨piece, rest, fits, text_eq⟩ := exists_piece path before ended
    obtain ⟨pieces, tail, partition⟩ := exists_partition path (before ++ piece.chars) rest
    exact ⟨piece :: pieces, tail, text_eq ▸ .cons fits partition⟩
termination_by text.length
decreasing_by
  have positive : 0 < piece.chars.length := List.length_pos_iff.mpr fits.chars_ne_nil
  simp only [text_eq, List.length_append]
  omega

namespace Cursor

theorem tokens_of_blanks {cursor : Cursor} {path : String} {before : List Char}
    (stands : cursor.location = .behind path before)
    (blanks : ∀ c ∈ cursor.rest, isBlank c = true) :
    cursor.tokens = ([], .behind path (before ++ cursor.rest)) := by
  have all : cursor.rest.takeWhile isBlank = cursor.rest := List.takeWhile_eq_self_iff.mpr blanks
  have ended := cursor.rest_skipBlanks.trans (List.dropWhile_eq_nil_iff.mpr blanks)
  rw [tokens_of_ended ended, location_skipBlanks, stands, Location.foldl_after_behind, all]

/-- A cursor before a piece reads its token and comes behind it. -/
theorem next_of_fits {cursor : Cursor} {path : String} {before rest : List Char} {piece : Piece}
    (stands : cursor.location = .behind path before) (fits : piece.Fits path before rest)
    (text_eq : cursor.rest = piece.chars ++ rest) : cursor.skipBlanks.rest ≠ [] ∧
      cursor.next.1 = piece.token ∧ cursor.next.2.rest = rest ∧
      cursor.next.2.location = .behind path (before ++ piece.chars) := by
  obtain ⟨c, more, literal⟩ := List.exists_cons_of_ne_nil
    (l := piece.token.literal.toList) (by simpa using fits.nonempty)
  have solid : isBlank c = false := fits.solid c (by simp [literal])
  have rest_eq : cursor.rest = piece.gap ++ c :: (more ++ rest) := by
    rw [text_eq, Piece.chars, literal, List.append_assoc, List.cons_append]
  have begun : cursor.rest.dropWhile isBlank = c :: (more ++ rest) := by
    rw [rest_eq, List.dropWhile_append_of_pos fits.gap]
    simp [solid]
  have gap : cursor.rest.takeWhile isBlank = piece.gap := by
    rw [rest_eq, takeWhile_append_of_stop fits.gap (by simp [solid])]
  have read := Lexeme.read_of_spells fits.spells fits.maximal
    (show _ = c :: (more ++ rest) by rw [literal, List.cons_append])
  have location : cursor.skipBlanks.location = .behind path (before ++ piece.gap) := by
    rw [location_skipBlanks, stands, Location.foldl_after_behind, gap]
  refine ⟨by simp [rest_skipBlanks, begun], ?_, ?_, ?_⟩
  · rw [next_of_skipped begun, read, location, ← fits.location, String.ofList_toList]
  · rw [rest_next_of_skipped begun, read, literal, ← List.cons_append, List.drop_left]
  · rw [next_of_skipped begun, location_advanceBy, location, rest_skipBlanks, begun, read, literal,
      ← List.cons_append, List.take_left, Location.foldl_after_behind, Piece.chars, literal,
      List.append_assoc]

/-- The tokens of a cursor are those of any partition of what comes after it. -/
theorem tokens_of_partition {cursor : Cursor} {path : String} {before tail : List Char}
    {pieces : List Piece} (stands : cursor.location = .behind path before)
    (partition : Partition path before cursor.rest pieces tail) :
    cursor.tokens = (pieces.map Piece.token, .behind path (before ++ cursor.rest)) := by
  induction pieces generalizing cursor before with
  | nil =>
    have same : cursor.rest = tail := partition.text_eq
    exact tokens_of_blanks stands (same ▸ partition.blanks)
  | cons piece pieces ih =>
    obtain ⟨rest, text_eq, fits, others⟩ := partition.uncons
    obtain ⟨more, token, next_rest, next_stands⟩ := next_of_fits stands fits text_eq
    subst next_rest
    rw [tokens_of_more more, ih next_stands others, token, text_eq, List.map_cons,
      List.append_assoc]

/-- The tokens of a text are the pieces of its partition, and the end is where the text ends. -/
theorem tokens_ofText {text path : String} {tail : List Char} {pieces : List Piece}
    (partition : Partition path [] text.toList pieces tail) :
    (ofText text path).tokens = (pieces.map Piece.token, .behind path text.toList) := by
  have stands : (ofText text path).location = .behind path [] := rfl
  rw [tokens_of_partition stands partition]
  rfl

/-- At the end of the text reading a token leaves the cursor where it is. -/
theorem next_of_ended {cursor : Cursor} (ended : cursor.skipBlanks.rest = []) :
    cursor.next = (⟨.eof, "", cursor.skipBlanks.location⟩, cursor.skipBlanks) := by
  simp only [next, read, ended]

theorem skipBlanks_of_ended {cursor : Cursor} (ended : cursor.rest = []) :
    cursor.skipBlanks = cursor := by
  rw [skipBlanks, ended]
  rfl

/-- At the end of the text every token is the end token, at the same place. -/
theorem nextMany_of_ended {cursor : Cursor} (ended : cursor.skipBlanks.rest = []) (count : Nat) :
    (cursor.nextMany count).1 = .replicate count ⟨.eof, "", cursor.skipBlanks.location⟩ := by
  induction count generalizing cursor with
  | zero => rfl
  | succ count ih =>
    have still := skipBlanks_of_ended ended
    have others := ih (by rw [still, ended])
    rw [nextMany, next_of_ended ended, others, still, List.replicate_succ]

/-- Reading one token after the other gives the tokens of the text, and then the end token. -/
theorem nextMany_tokens (cursor : Cursor) (count : Nat) :
    (cursor.nextMany (cursor.tokens.1.length + count)).1 =
      cursor.tokens.1 ++ .replicate count ⟨.eof, "", cursor.tokens.2⟩ := by
  induction cursor using tokens.induct with
  | case1 cursor ended =>
    rw [tokens_of_ended ended, List.length_nil, Nat.zero_add, nextMany_of_ended ended,
      List.nil_append]
  | case2 cursor more ih =>
    rw [tokens_of_more more, List.length_cons, Nat.add_right_comm, nextMany, ih,
      List.cons_append]

end Cursor

/-- Reading the tokens of a text one after the other cuts it into pieces, and after them finds the
end of the text and stays there. -/
theorem exists_partition_nextMany (text path : String) :
    ∃ (pieces : List Piece) (tail : List Char),
      Partition path [] text.toList pieces tail ∧ pieces.length ≤ text.length ∧
        ∀ count, ((Cursor.ofText text path).nextMany (pieces.length + count)).1 =
          pieces.map Piece.token ++ .replicate count ⟨.eof, "", .behind path text.toList⟩ := by
  obtain ⟨pieces, tail, partition⟩ := exists_partition path [] text.toList
  have fewer : pieces.length ≤ text.toList.length := partition.length_le
  refine ⟨pieces, tail, partition, String.length_toList ▸ fewer, fun count => ?_⟩
  have read := (Cursor.ofText text path).nextMany_tokens count
  rw [Cursor.tokens_ofText partition, List.length_map] at read
  exact read

end Scriptlet
