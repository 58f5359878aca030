import Scriptlet.Lexeme
import Scriptlet.Location

/-!
# Cursors

A cursor is a place in a text: how many characters lie before it, which come after it, and its
location. `Cursor.next` skips blanks and reads one token; at the end of the text it reads the end
token, and goes on reading it. `length_rest_next_lt` says that any other token makes the rest
shorter, which is why `Cursor.tokens` comes to an end.
-/

namespace Scriptlet

/-- A place in a text: what a `Lexer` knows of it. -/
structure Cursor where
  offset : Nat
  rest : List Char
  location : Location
deriving DecidableEq

namespace Cursor

/-- The beginning of the text of the file `path` (`new_from_source`). -/
def ofText (text path : String) : Cursor := ⟨0, text.toList, .first path⟩

/-- One character further (`read_char`). The end of the text is never left. -/
def advance (cursor : Cursor) : Cursor :=
  match cursor.rest with
  | [] => cursor
  | c :: rest => ⟨cursor.offset + 1, rest, cursor.location.after c⟩

/-- So many characters further. -/
def advanceBy (cursor : Cursor) : Nat → Cursor
  | 0 => cursor
  | n + 1 => cursor.advance.advanceBy n

/-- The first place from here on where no blank stands (`skip_whitespace`). -/
def skipBlanks (cursor : Cursor) : Cursor :=
  cursor.advanceBy (cursor.rest.takeWhile isBlank).length

/-- The token that begins exactly here, and the place after it: `next_token` without its blanks. -/
def read (cursor : Cursor) : Token Location × Cursor :=
  match cursor.rest with
  | [] => (⟨.eof, "", cursor.location⟩, cursor)
  | c :: rest =>
    let lexeme := Lexeme.read c rest
    (⟨lexeme.kind, String.ofList lexeme.chars, cursor.location⟩,
      cursor.advanceBy lexeme.chars.length)

/-- The next token, and the place after it (`next_token`). -/
def next (cursor : Cursor) : Token Location × Cursor := cursor.skipBlanks.read

@[simp] theorem rest_advance (cursor : Cursor) : cursor.advance.rest = cursor.rest.tail := by
  unfold advance
  split <;> simp_all

@[simp] theorem rest_advanceBy (cursor : Cursor) (n : Nat) :
    (cursor.advanceBy n).rest = cursor.rest.drop n := by
  induction n generalizing cursor with
  | zero => rfl
  | succ n ih => rw [advanceBy, ih, rest_advance, List.drop_tail]

/-- Reading a token other than the end token makes the rest shorter. -/
theorem length_rest_next_lt {cursor : Cursor} (more : cursor.skipBlanks.rest ≠ []) :
    cursor.next.2.rest.length < cursor.rest.length := by
  have shorter : cursor.skipBlanks.rest.length ≤ cursor.rest.length := by
    simp [skipBlanks]
  unfold next read
  split
  · next ended => exact absurd ended more
  · next c rest begun =>
    have positive := Lexeme.length_chars_pos c rest
    have nonempty : 0 < cursor.skipBlanks.rest.length := List.length_pos_iff.mpr more
    simp only [rest_advanceBy, List.length_drop]
    omega

/-- All tokens before the end token, and the location of the end. -/
def tokens (cursor : Cursor) : List (Token Location) × Location :=
  if _ : cursor.skipBlanks.rest = [] then ([], cursor.skipBlanks.location)
  else
    let following := cursor.next.2.tokens
    (cursor.next.1 :: following.1, following.2)
termination_by cursor.rest.length
decreasing_by exact length_rest_next_lt (by assumption)

/-- The next `count` tokens, and the place after them. -/
def nextMany (cursor : Cursor) : Nat → List (Token Location) × Cursor
  | 0 => ([], cursor)
  | count + 1 =>
    let following := cursor.next.2.nextMany count
    (cursor.next.1 :: following.1, following.2)

end Cursor

end Scriptlet
