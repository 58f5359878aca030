import Scriptlet.Proofs.Places
import Scriptlet.Proofs.Words

/-!
# Scanners

A scanner reads tokens with a few registers over the whole text: the position of the character at
hand, the position behind it, the character itself and its location. Reading one character more is
the only thing that changes them. A line feed counts as the last character of its line, so it is
counted when it is left, and behind the last character stands a NUL, which may also stand in the
text.

The registers repeat one another. `Placed` says what they have in common, and every character that
is read keeps it; so loops come to an end, pieces of the text are within it, and a scanner reads the
tokens that a cursor at its place reads.
-/

namespace Scriptlet

/-- The registers of a scanner (`Lexer`). -/
structure Scanner where
  input : List Char
  position : Nat
  readPosition : Nat
  ch : Char
  location : Location
deriving DecidableEq

namespace Scanner

/-- The character behind the one at hand (`peek_char`). -/
def peekChar (scanner : Scanner) : Char := scanner.input.getD scanner.readPosition '\x00'

/-- One character more (`read_char`). -/
def readChar (scanner : Scanner) : Scanner :=
  if scanner.input.length < scanner.readPosition then scanner
  else
    let begun := if scanner.ch = '\n' then scanner.location.nextLine else scanner.location
    ⟨scanner.input, scanner.readPosition, scanner.readPosition + 1, scanner.peekChar,
      begun.nextChar⟩

theorem input_readChar (scanner : Scanner) : scanner.readChar.input = scanner.input := by
  unfold readChar
  split <;> rfl

theorem readPosition_readChar {scanner : Scanner}
    (moving : ¬ scanner.input.length < scanner.readPosition) :
    scanner.readChar.readPosition = scanner.readPosition + 1 := by
  rw [readChar, if_neg moving]

/-- The scanner at the first character of the text of the file `path` (`new_from_source`). -/
def ofText (text path : String) : Scanner := readChar ⟨text.toList, 0, 0, '\x00', .start path⟩

/-- So many characters more. -/
def readChars (scanner : Scanner) : Nat → Scanner
  | 0 => scanner
  | n + 1 => scanner.readChar.readChars n

/-- There is no character at hand (`at_end`). -/
def atEnd (scanner : Scanner) : Bool := scanner.input.length ≤ scanner.position

/-- Characters are read as long as they are accepted: the loop of `skip_whitespace` and of
`read_while`. There is no result if reading changes nothing any more, since the loop would not end
then. -/
def skipWhile (accept : Char → Bool) (scanner : Scanner) : Option Scanner :=
  if !scanner.atEnd && accept scanner.ch then
    if scanner.input.length < scanner.readPosition then none
    else scanner.readChar.skipWhile accept
  else some scanner
termination_by scanner.input.length + 1 - scanner.readPosition
decreasing_by
  rename_i _ moving
  rw [input_readChar, readPosition_readChar moving]
  omega

/-- The piece of the text between two positions, if they are in order and in the text. -/
def slice (scanner : Scanner) (first last : Nat) : Option String :=
  if first ≤ last ∧ last ≤ scanner.input.length then
    some (String.ofList ((scanner.input.take last).drop first))
  else none

/-- The characters that are read as long as they are accepted (`read_while`). -/
def readWhile (accept : Char → Bool) (scanner : Scanner) : Option (String × Scanner) :=
  (scanner.skipWhile accept).bind fun last =>
    (last.slice scanner.position last.position).map fun literal => (literal, last)

/-- A name or a keyword (`identifier`). -/
def readWord (scanner : Scanner) : Option (Token Location × Scanner) :=
  (scanner.readWhile isLetter).map fun (literal, last) =>
    (⟨.ofWord literal, literal, scanner.location⟩, last)

/-- An integer (`integer`). -/
def readNumber (scanner : Scanner) : Option (Token Location × Scanner) :=
  (scanner.readWhile Char.isDigit).map fun (literal, last) =>
    (⟨.integer, literal, scanner.location⟩, last)

/-- A character that is a token by itself, or the first half of one together with `=`
(`one_or_two`). -/
def readSign (single double : Kind) (scanner : Scanner) : Token Location × Scanner :=
  let next := scanner.readChar
  if next.ch = '=' then
    (⟨double, String.singleton scanner.ch ++ "=", scanner.location⟩, next.readChar)
  else (⟨single, String.singleton scanner.ch, scanner.location⟩, next)

/-- The token that begins with the character at hand: `next_token` without its blanks. -/
def read (scanner : Scanner) : Option (Token Location × Scanner) :=
  if scanner.atEnd then some (⟨.eof, "", scanner.location⟩, scanner)
  else if scanner.ch = '=' then some (scanner.readSign .assign .equal)
  else if scanner.ch = '!' then some (scanner.readSign .not .notEqual)
  else if isLetter scanner.ch then scanner.readWord
  else if scanner.ch.isDigit then scanner.readNumber
  else some (⟨.ofSymbol scanner.ch, String.singleton scanner.ch, scanner.location⟩,
    scanner.readChar)

/-- The next token (`next_token`). -/
def next (scanner : Scanner) : Option (Token Location × Scanner) :=
  (scanner.skipWhile isBlank).bind read

/-- The token of a lexeme that begins with the character at hand, and the scanner behind it. -/
def take (scanner : Scanner) (lexeme : Lexeme) : Token Location × Scanner :=
  (⟨lexeme.kind, String.ofList lexeme.chars, scanner.location⟩,
    scanner.readChars lexeme.chars.length)

/-- The place of a scanner. -/
def cursor (scanner : Scanner) : Cursor :=
  ⟨scanner.position, scanner.input.drop scanner.position, scanner.location⟩

/-- The registers agree with one another, where characters of the file `path` are read. -/
structure Placed (path : String) (scanner : Scanner) : Prop where
  position_le : scanner.position ≤ scanner.input.length
  readPosition_eq : scanner.readPosition = scanner.position + 1
  ch_eq : scanner.ch = scanner.input.getD scanner.position '\x00'
  location_eq : scanner.location = .behind path (scanner.input.take scanner.position)

/-! ## One character -/

/-- The first character is read before anything else, and the scanner stands on it. -/
theorem placed_ofText (text path : String) : (ofText text path).Placed path := by
  constructor <;> simp [ofText, readChar, peekChar, Location.behind, Location.start,
    Location.nextChar]

theorem input_readChars (scanner : Scanner) (n : Nat) :
    (scanner.readChars n).input = scanner.input := by
  induction n generalizing scanner with
  | zero => rfl
  | succ n ih => rw [readChars, ih, input_readChar]

theorem readChars_readChars (scanner : Scanner) (m n : Nat) :
    (scanner.readChars m).readChars n = scanner.readChars (m + n) := by
  induction m generalizing scanner with
  | zero => rw [readChars, Nat.zero_add]
  | succ m ih => rw [readChars, ih, Nat.succ_add, readChars]

namespace Placed

variable {path : String} {scanner : Scanner}

/-- At the end of the text there is nothing more to read. -/
theorem readChar_of_ended (placed : scanner.Placed path)
    (ended : scanner.position = scanner.input.length) : scanner.readChar = scanner := by
  have behind : scanner.input.length < scanner.readPosition := by
    rw [placed.readPosition_eq, ended]
    exact Nat.lt_succ_self _
  rw [readChar, if_pos behind]

/-- A scanner before the end is not stuck. -/
theorem not_lt_readPosition (placed : scanner.Placed path)
    (going : scanner.position < scanner.input.length) :
    ¬ scanner.input.length < scanner.readPosition := by
  rw [placed.readPosition_eq]
  exact Nat.not_lt.mpr going

/-- Before the end reading leaves the character at hand behind. -/
theorem readChar_of_going (placed : scanner.Placed path)
    (going : scanner.position < scanner.input.length) : scanner.readChar =
      ⟨scanner.input, scanner.position + 1, scanner.position + 2,
        scanner.input.getD (scanner.position + 1) '\x00',
        scanner.location.after scanner.ch⟩ := by
  rw [readChar, if_neg (placed.not_lt_readPosition going), peekChar, placed.readPosition_eq,
    Location.after]
  split <;> rfl

theorem ch_of_going (placed : scanner.Placed path)
    (going : scanner.position < scanner.input.length) :
    scanner.ch = scanner.input[scanner.position] := by
  rw [placed.ch_eq, List.getD_eq_getElem?_getD, List.getElem?_eq_getElem going, Option.getD_some]

/-- Reading one character keeps the scanner placed, also at the end, where nothing more is read. -/
theorem placed_readChar (placed : scanner.Placed path) : scanner.readChar.Placed path := by
  rcases Nat.eq_or_lt_of_le placed.position_le with ended | going
  · rwa [placed.readChar_of_ended ended]
  · rw [placed.readChar_of_going going]
    refine ⟨going, rfl, rfl, ?_⟩
    show scanner.location.after scanner.ch =
      .behind path (scanner.input.take (scanner.position + 1))
    rw [placed.location_eq, placed.ch_of_going going, Location.after_behind,
      List.take_succ_eq_append_getElem going]

/-- The characters from here on are the one at hand and those behind it. -/
theorem rest_of_going (placed : scanner.Placed path)
    (going : scanner.position < scanner.input.length) : scanner.cursor.rest =
      scanner.ch :: scanner.input.drop (scanner.position + 1) := by
  rw [placed.ch_of_going going]
  exact List.drop_eq_getElem_cons going

/-- Reading one character is one step of the cursor. -/
theorem cursor_readChar (placed : scanner.Placed path) :
    scanner.readChar.cursor = scanner.cursor.advance := by
  rcases Nat.eq_or_lt_of_le placed.position_le with ended | going
  · have nothing : scanner.cursor.rest = [] := List.drop_eq_nil_of_le (Nat.le_of_eq ended.symm)
    rw [placed.readChar_of_ended ended, Cursor.advance, nothing]
  · rw [placed.readChar_of_going going, Cursor.advance, placed.rest_of_going going]
    rfl

theorem placed_readChars (placed : scanner.Placed path) (n : Nat) :
    (scanner.readChars n).Placed path := by
  induction n generalizing scanner with
  | zero => exact placed
  | succ n ih => exact ih placed.placed_readChar

theorem cursor_readChars (placed : scanner.Placed path) (n : Nat) :
    (scanner.readChars n).cursor = scanner.cursor.advanceBy n := by
  induction n generalizing scanner with
  | zero => rfl
  | succ n ih => rw [readChars, ih placed.placed_readChar, placed.cursor_readChar, Cursor.advanceBy]

/-! ## Loops -/

/-- What is at hand is told by what is left of the text. -/
theorem at_hand {c : Char} {rest : List Char} (placed : scanner.Placed path)
    (begun : scanner.cursor.rest = c :: rest) : scanner.position < scanner.input.length ∧
      scanner.atEnd = false ∧ scanner.ch = c ∧
        rest = scanner.input.drop (scanner.position + 1) := by
  have going : scanner.position < scanner.input.length := by
    refine Nat.lt_of_not_le fun ended => ?_
    have nothing : scanner.cursor.rest = [] := List.drop_eq_nil_of_le ended
    rw [nothing] at begun
    cases begun
  rw [placed.rest_of_going going] at begun
  obtain ⟨same, same_rest⟩ := List.cons.inj begun
  exact ⟨going, decide_eq_false (Nat.not_le.mpr going), same, same_rest.symm⟩

theorem atEnd_of_rest (ended : scanner.cursor.rest = []) : scanner.atEnd = true :=
  decide_eq_true (List.drop_eq_nil_iff.mp ended)

/-- A loop comes to its end behind the characters that are accepted. -/
theorem skipWhile_eq (placed : scanner.Placed path) (accept : Char → Bool) :
    scanner.skipWhile accept =
      some (scanner.readChars (scanner.cursor.rest.takeWhile accept).length) := by
  -- The loop reads what is left of the text one by one, so the induction is on that.
  generalize left : scanner.cursor.rest = rest
  induction rest generalizing scanner with
  | nil =>
    rw [skipWhile, atEnd_of_rest left]
    rfl
  | cons c rest ih =>
    obtain ⟨before, going, ch_eq, -⟩ := placed.at_hand left
    have moving : ¬ scanner.input.length < scanner.readPosition := placed.not_lt_readPosition before
    rw [skipWhile, going, ch_eq, List.takeWhile_cons, if_neg moving]
    cases accepted : accept c with
    | false => rfl
    | true =>
      have onward : scanner.readChar.cursor.rest = rest := by
        rw [placed.cursor_readChar, Cursor.rest_advance, left, List.tail_cons]
      exact ih placed.placed_readChar onward

theorem position_readChars (placed : scanner.Placed path) {n : Nat}
    (within : scanner.position + n ≤ scanner.input.length) :
    (scanner.readChars n).position = scanner.position + n := by
  induction n generalizing scanner with
  | zero => rfl
  | succ n ih =>
    have going : scanner.position < scanner.input.length := by omega
    have next_eq := placed.readChar_of_going going
    rw [readChars, ih placed.placed_readChar, next_eq]
    · show scanner.position + 1 + n = scanner.position + (n + 1)
      omega
    · rw [next_eq]
      show scanner.position + 1 + n ≤ scanner.input.length
      omega

/-- Characters that are accepted are within the text. -/
theorem position_add_length_le (placed : scanner.Placed path) (accept : Char → Bool) :
    scanner.position + (scanner.cursor.rest.takeWhile accept).length ≤ scanner.input.length := by
  have fewer := (List.takeWhile_prefix (l := scanner.cursor.rest) accept).length_le
  have left : scanner.cursor.rest.length = scanner.input.length - scanner.position :=
    List.length_drop
  have within := placed.position_le
  omega

/-- The piece that a loop has gone over is the characters that are accepted. -/
theorem readWhile_eq (placed : scanner.Placed path) (accept : Char → Bool) :
    scanner.readWhile accept = some (String.ofList (scanner.cursor.rest.takeWhile accept),
      scanner.readChars (scanner.cursor.rest.takeWhile accept).length) := by
  have within := placed.position_add_length_le accept
  have piece : (scanner.input.take
      (scanner.position + (scanner.cursor.rest.takeWhile accept).length)).drop scanner.position =
        scanner.cursor.rest.takeWhile accept := by
    rw [List.drop_take, Nat.add_sub_cancel_left]
    exact (List.prefix_iff_eq_take.mp (List.takeWhile_prefix accept)).symm
  have inside : scanner.position ≤
      scanner.position + (scanner.cursor.rest.takeWhile accept).length := Nat.le_add_right _ _
  rw [readWhile, placed.skipWhile_eq, Option.bind_some, slice, input_readChars,
    placed.position_readChars within, if_pos ⟨inside, within⟩, piece]
  rfl

/-! ## Tokens -/

variable {c : Char} {rest : List Char}

/-- The loop over letters takes the run of letters, and the keywords are looked up in the end. -/
theorem readWord_eq (placed : scanner.Placed path) (begun : scanner.cursor.rest = c :: rest)
    (letter : isLetter c = true) : scanner.readWord = some (scanner.take (.read c rest)) := by
  rw [readWord, placed.readWhile_eq, begun, List.takeWhile_cons, if_pos letter, Lexeme.read,
    if_pos letter]
  rfl

theorem readNumber_eq (placed : scanner.Placed path) (begun : scanner.cursor.rest = c :: rest)
    (notLetter : ¬ isLetter c = true) (digit : c.isDigit = true) :
    scanner.readNumber = some (scanner.take (.read c rest)) := by
  rw [readNumber, placed.readWhile_eq, begun, List.takeWhile_cons, if_pos digit, Lexeme.read,
    if_neg notLetter, if_pos digit]
  rfl

/-- The NUL behind the text is no second half of a sign. -/
theorem ch_readChar_eq_iff (placed : scanner.Placed path)
    (begun : scanner.cursor.rest = c :: rest) :
    scanner.readChar.ch = '=' ↔ rest.head? = some '=' := by
  obtain ⟨going, -, -, rfl⟩ := placed.at_hand begun
  rw [placed.readChar_of_going going, List.head?_drop, List.getD_eq_getElem?_getD]
  cases scanner.input[scanner.position + 1]? with
  | none => simp
  | some d => simp

/-- A sign takes a following `=` with it. -/
theorem readSign_eq {single double : Kind} (placed : scanner.Placed path)
    (begun : scanner.cursor.rest = c :: rest)
    (lexeme : Lexeme.read c rest =
      if rest.head? = some '=' then ⟨double, [c, '=']⟩ else ⟨single, [c]⟩) :
    scanner.readSign single double = scanner.take (.read c rest) := by
  obtain ⟨-, -, rfl, -⟩ := placed.at_hand begun
  rw [readSign, lexeme]
  by_cases followed : rest.head? = some '='
  · rw [if_pos ((placed.ch_readChar_eq_iff begun).mpr followed), if_pos followed, take,
      String.singleton_eq_ofList, ← String.ofList_append]
    rfl
  · rw [if_neg (mt (placed.ch_readChar_eq_iff begun).mp followed), if_neg followed, take,
      String.singleton_eq_ofList]
    rfl

/-- At a character the lexeme is read that begins there. -/
theorem read_eq (placed : scanner.Placed path) (begun : scanner.cursor.rest = c :: rest) :
    scanner.read = some (scanner.take (.read c rest)) := by
  obtain ⟨-, going, ch_eq, -⟩ := placed.at_hand begun
  rw [read, going, ch_eq, if_neg Bool.false_ne_true]
  by_cases isAssign : c = '='
  · rw [if_pos isAssign, placed.readSign_eq begun]
    subst isAssign
    simp [Lexeme.read, isLetter, Kind.ofSymbol]
  rw [if_neg isAssign]
  by_cases isNot : c = '!'
  · rw [if_pos isNot, placed.readSign_eq begun]
    subst isNot
    simp [Lexeme.read, isLetter, Kind.ofSymbol]
  rw [if_neg isNot]
  by_cases letter : isLetter c = true
  · rw [if_pos letter, placed.readWord_eq begun letter]
  rw [if_neg letter]
  by_cases digit : c.isDigit = true
  · rw [if_pos digit, placed.readNumber_eq begun letter digit]
  have alone : Lexeme.read c rest = ⟨.ofSymbol c, [c]⟩ := by
    simp [Lexeme.read, letter, digit, isAssign, isNot]
  rw [if_neg digit, alone, take, String.singleton_eq_ofList]
  rfl

/-- A scanner reads the token that a cursor at its place reads, and both stand at the same place
then. -/
theorem next_eq (placed : scanner.Placed path) : ∃ n,
    scanner.next = some (scanner.cursor.next.1, scanner.readChars n) ∧
      (scanner.readChars n).cursor = scanner.cursor.next.2 := by
  let gap := (scanner.cursor.rest.takeWhile isBlank).length
  let skipped := scanner.readChars gap
  have placed_skipped : skipped.Placed path := placed.placed_readChars gap
  have cursor_skipped : skipped.cursor = scanner.cursor.skipBlanks := placed.cursor_readChars gap
  have next_eq_read : scanner.next = skipped.read := by
    rw [next, placed.skipWhile_eq, Option.bind_some]
  rw [next_eq_read, Cursor.next, ← cursor_skipped, Cursor.read]
  split
  · next ended =>
    refine ⟨gap, ?_, rfl⟩
    rw [read, atEnd_of_rest ended]
    rfl
  · next c rest begun =>
    refine ⟨gap + (Lexeme.read c rest).chars.length, ?_, ?_⟩
    · rw [placed_skipped.read_eq begun, ← readChars_readChars]
      rfl
    · rw [← readChars_readChars]
      exact placed_skipped.cursor_readChars _

end Placed

/-! ## Runs -/

/-- The scanner comes up while the text of the file `path` is read, between two characters. -/
inductive Reached (text path : String) : Scanner → Prop where
  | opened : Reached text path (ofText text path)
  | read {scanner : Scanner} (reached : Reached text path scanner) :
      Reached text path scanner.readChar

namespace Reached

variable {text path : String} {scanner : Scanner}

theorem readChars (reached : Reached text path scanner) (n : Nat) :
    Reached text path (scanner.readChars n) := by
  induction n generalizing scanner with
  | zero => exact reached
  | succ n ih => exact ih reached.read

theorem placed (reached : Reached text path scanner) : scanner.Placed path := by
  induction reached with
  | opened => exact placed_ofText text path
  | read _ ih => exact ih.placed_readChar

/-- A scanner stands where so many steps of a cursor lead. -/
theorem exists_cursor_eq (reached : Reached text path scanner) :
    ∃ count, scanner.cursor = (Cursor.ofText text path).advanceBy count := by
  obtain ⟨count, rfl⟩ : ∃ count, scanner = (ofText text path).readChars count := by
    induction reached with
    | opened => exact ⟨0, rfl⟩
    | read _ ih =>
      obtain ⟨count, rfl⟩ := ih
      exact ⟨count + 1, readChars_readChars _ count 1⟩
  exact ⟨count, (placed_ofText text path).cursor_readChars count⟩

theorem input_eq (reached : Reached text path scanner) : scanner.input = text.toList := by
  induction reached with
  | opened => exact input_readChar _
  | read _ ih => exact (input_readChar _).trans ih

end Reached

/-- Between any two characters that are read, the registers of a scanner agree. The position is in
the text or at its end, the next one is behind it, the character at hand is the one there, or NUL at
the end, and the location is what counting the characters before it gives. At the end reading
changes nothing. So every loop ends, at a place that is reached too, and the piece of the text that
it has gone over is there, and is not empty if the character at hand is accepted. A cursor comes to
the same place and reads the same token from there, and the scanner behind that is reached as well.
-/
theorem registers_of_reached {text path : String} {scanner : Scanner}
    (reached : Reached text path scanner) :
    scanner.input = text.toList ∧ scanner.position ≤ scanner.input.length ∧
    scanner.readPosition = scanner.position + 1 ∧
    scanner.ch = (scanner.input[scanner.position]?).getD '\x00' ∧
    scanner.location = .behind path (scanner.input.take scanner.position) ∧
    (scanner.position = scanner.input.length → scanner.readChar = scanner) ∧
    (∀ accept, ∃ literal last, scanner.skipWhile accept = some last ∧ Reached text path last ∧
      scanner.position ≤ last.position ∧ last.position ≤ last.input.length ∧
      scanner.readWhile accept = some (literal, last) ∧
      (scanner.atEnd = false → accept scanner.ch = true → literal ≠ "")) ∧
    (∃ count, scanner.cursor = (Cursor.ofText text path).advanceBy count) ∧
    ∃ later, scanner.next = some (scanner.cursor.next.1, later) ∧ Reached text path later ∧
      later.cursor = scanner.cursor.next.2 := by
  have placed := reached.placed
  refine ⟨reached.input_eq, placed.position_le, placed.readPosition_eq, ?_, placed.location_eq,
    placed.readChar_of_ended, fun accept => ?_, reached.exists_cursor_eq, ?_⟩
  · rw [placed.ch_eq, List.getD_eq_getElem?_getD]
  · have last := reached.readChars (scanner.cursor.rest.takeWhile accept).length
    have position_eq := placed.position_readChars (placed.position_add_length_le accept)
    refine ⟨_, _, placed.skipWhile_eq accept, last, ?_, last.placed.position_le,
      placed.readWhile_eq accept, fun going accepted => ?_⟩
    · rw [position_eq]
      exact Nat.le_add_right _ _
    · have begun := placed.rest_of_going (Nat.lt_of_not_le (of_decide_eq_false going))
      rw [begun, List.takeWhile_cons, if_pos accepted]
      simp
  · obtain ⟨n, read, place⟩ := placed.next_eq
    exact ⟨_, read, reached.readChars n, place⟩

/-- A NUL in the text, behind a line feed. -/
theorem registers_of_reached_null :
    let scanner := ((ofText "a\n\x00\x00" "p").readChar).readChar
    Reached "a\n\x00\x00" "p" scanner ∧ scanner.readPosition = 3 ∧ scanner.ch = '\x00' ∧
      scanner.location = ⟨"p", 2, 1⟩ ∧
      ∃ later, scanner.next = some (⟨.illegal, "\x00", ⟨"p", 2, 1⟩⟩, later) ∧
        later.cursor = ⟨3, ['\x00'], ⟨"p", 2, 2⟩⟩ := by
  intro scanner
  have reached : Reached "a\n\x00\x00" "p" scanner := .read (.read .opened)
  obtain ⟨-, -, readPosition, ch, location, -, -, -, later, read, -, place⟩ :=
    registers_of_reached reached
  exact ⟨reached, readPosition, ch, location, later, read, place⟩

end Scanner

end Scriptlet
