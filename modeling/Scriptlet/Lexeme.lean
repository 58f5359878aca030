import Scriptlet.Token

/-!
# Lexemes

Which characters of a text make up its next token. Blanks separate tokens and are none. A letter
or a digit takes the whole run of its class, `=` and `!` take a following `=`, and every other
character is a token by itself. `take_length_chars` says that a lexeme is a piece of the text it
was read from, never an invention.
-/

namespace Scriptlet

/-- The characters that may stand between two tokens; `skip_whitespace` passes over them. -/
def isBlank (c : Char) : Bool := c = ' ' || c = '\t' || c = '\r' || c = '\n'

/-- The characters of names and keywords: the Latin letters and the underscore (`is_letter`). -/
def isLetter (c : Char) : Bool := c.isAlpha || c = '_'

/-- A kind of token together with its characters. -/
structure Lexeme where
  kind : Kind
  chars : List Char
deriving DecidableEq

namespace Lexeme

/-- The lexeme that the character `c` begins, where `rest` follows it: the cases of `next_token`,
with what `identifier`, `integer` and `one_or_two` take in. -/
def read (c : Char) (rest : List Char) : Lexeme :=
  if isLetter c then
    let word := c :: rest.takeWhile isLetter
    ⟨.ofWord (String.ofList word), word⟩
  else if c.isDigit then ⟨.integer, c :: rest.takeWhile Char.isDigit⟩
  else if c = '=' ∧ rest.head? = some '=' then ⟨.equal, ['=', '=']⟩
  else if c = '!' ∧ rest.head? = some '=' then ⟨.notEqual, ['!', '=']⟩
  else ⟨.ofSymbol c, [c]⟩

theorem chars_read_ne_nil (c : Char) (rest : List Char) : (read c rest).chars ≠ [] := by
  unfold read
  repeat' split
  all_goals simp

theorem length_chars_pos (c : Char) (rest : List Char) : 0 < (read c rest).chars.length :=
  List.length_pos_iff.mpr (chars_read_ne_nil c rest)

private theorem take_length_takeWhile (p : Char → Bool) (chars : List Char) :
    chars.take (chars.takeWhile p).length = chars.takeWhile p := by
  induction chars with
  | nil => rfl
  | cons c chars ih =>
    rw [List.takeWhile_cons]
    split <;> simp [ih]

/-- The characters of a lexeme are the first characters of the text. -/
theorem take_length_chars (c : Char) (rest : List Char) :
    (c :: rest).take (read c rest).chars.length = (read c rest).chars := by
  unfold read
  repeat' split
  · simp [take_length_takeWhile]
  · simp [take_length_takeWhile]
  · next first =>
    obtain ⟨rfl, second⟩ := first
    cases rest <;> simp_all
  · next first =>
    obtain ⟨rfl, second⟩ := first
    cases rest <;> simp_all
  · simp

end Lexeme

end Scriptlet
