import Scriptlet.Cursor

/-!
# Token streams

What a parser looks at: the tokens still to come, the first of them being the current one, and
the mark of the end. After the last token the stream goes on for ever with end tokens.
-/

namespace Scriptlet

/-- The tokens still to come, and the mark of the end of the text. -/
structure TokenStream (α : Type) where
  pending : List (Token α)
  stop : α
deriving DecidableEq

namespace TokenStream

variable {α : Type}

/-- The tokens from a place in a text on, as a `Parser` over a `Lexer` comes to see them. -/
def ofCursor (cursor : Cursor) : TokenStream Location :=
  ⟨cursor.tokens.1, cursor.tokens.2⟩

/-- The token that stands for the end of the text. -/
def ending (stream : TokenStream α) : Token α := ⟨.eof, "", stream.stop⟩

/-- The token that is being looked at (`current`). -/
def current (stream : TokenStream α) : Token α := stream.pending.headD stream.ending

/-- The stream from the next token on, as `next_token` of the parser leaves it. -/
def advance (stream : TokenStream α) : TokenStream α :=
  { stream with pending := stream.pending.tail }

/-- The token after the current one (`peek`). -/
def peek (stream : TokenStream α) : Token α := stream.advance.current

/-- How many tokens are left, the current one included and end tokens not. -/
def size (stream : TokenStream α) : Nat := stream.pending.length

@[simp, grind =] theorem size_advance (stream : TokenStream α) :
    stream.advance.size = stream.size - 1 := by
  simp [size, advance]

/-- A stream at a token other than the end has something left. -/
theorem size_pos (stream : TokenStream α) (going : stream.current.kind ≠ .eof) :
    0 < stream.size := by
  rcases stream with ⟨_ | _, _⟩ <;> simp_all [current, ending, size]

/-- A stream whose next token is not the end has two tokens left. -/
theorem one_lt_size (stream : TokenStream α) (going : stream.peek.kind ≠ .eof) :
    1 < stream.size := by
  have positive := size_pos _ going
  rw [size_advance] at positive
  omega

end TokenStream

end Scriptlet
