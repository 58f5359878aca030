import Scriptlet.Proofs.Indices
import Scriptlet.Proofs.Walks

/-!
# Windows

A parser keeps two tokens, the current one and the next, and the place in the text behind both. With
each step the next token becomes the current one, and another is read at that place. `Window.Shows`
says what such a window has to do with a token stream, and a step of the one is a step of the other.
So wherever a parser stands on its way over a text, the window shows what is left.
-/

namespace Scriptlet

/-- The registers of a parser: two tokens, and the place behind them (`current`, `peek`,
`lexer`). -/
structure Window where
  current : Token Location
  peek : Token Location
  cursor : Cursor
deriving DecidableEq

namespace Window

/-- The first two tokens from a place on (`new`). -/
def ofCursor (cursor : Cursor) : Window :=
  ⟨cursor.next.1, cursor.next.2.next.1, cursor.next.2.next.2⟩

/-- One token further (`next_token`). -/
def advance (window : Window) : Window :=
  ⟨window.peek, window.cursor.next.1, window.cursor.next.2⟩

/-- So many tokens further. -/
def advanceBy (window : Window) : Nat → Window
  | 0 => window
  | count + 1 => window.advance.advanceBy count

/-- The window shows the first two tokens of the stream, and stands before the third. -/
structure Shows (window : Window) (stream : TokenStream Location) : Prop where
  current : window.current = stream.current
  peek : window.peek = stream.peek
  behind : TokenStream.ofCursor window.cursor = stream.advance.advance

theorem shows_ofCursor (cursor : Cursor) :
    (ofCursor cursor).Shows (TokenStream.ofCursor cursor) where
  current := cursor.current_ofCursor.symm
  peek := by
    rw [TokenStream.peek, ← cursor.ofCursor_next, cursor.next.2.current_ofCursor]
    rfl
  behind := by rw [← cursor.ofCursor_next, ← cursor.next.2.ofCursor_next, ofCursor]

/-- One step keeps what the window shows. -/
theorem Shows.advance {window : Window} {stream : TokenStream Location}
    (shows : window.Shows stream) : window.advance.Shows stream.advance where
  current := shows.peek
  peek := by
    rw [TokenStream.peek, ← shows.behind, window.cursor.current_ofCursor]
    rfl
  behind := by rw [← shows.behind, ← window.cursor.ofCursor_next, Window.advance]

/-- So do any number of steps. -/
theorem Shows.advanceBy {window : Window} {stream : TokenStream Location}
    (shows : window.Shows stream) (count : Nat) :
    (window.advanceBy count).Shows (stream.drop count) := by
  induction count generalizing window stream with
  | zero => exact shows
  | succ count ih =>
    rw [← stream.drop_advance count]
    exact ih shows.advance

/-- Two tokens more have been read than steps have been taken. -/
theorem cursor_advanceBy (cursor : Cursor) (count : Nat) :
    ((ofCursor cursor).advanceBy count).cursor = (cursor.nextMany (count + 2)).2 := by
  induction count generalizing cursor with
  | zero => rfl
  | succ count ih => exact ih cursor.next.2

/-- Whatever a parser does on its way over a text, it does where its window shows what is left of
the tokens; and so it is at the end. -/
theorem shows_of_log (cursor : Cursor) :
    let window := ofCursor cursor
    let attempt := Parse.statements (.ofCursor cursor)
    (window.advanceBy (steps attempt.log)).Shows attempt.rest ∧
    ∀ before event after, attempt.log = before ++ event :: after → ∃ stream fresh next,
      (window.advanceBy (steps before)).Shows stream ∧ event.Occurs ⟨stream, fresh⟩ next := by
  intro window attempt
  have shows : window.Shows (.ofCursor cursor) := shows_ofCursor cursor
  have walk : Walk ⟨.ofCursor cursor, true⟩ attempt.log ⟨attempt.rest, attempt.value.isSome⟩ :=
    Attempt.compositional_walked.statements (.ofCursor cursor)
  constructor
  · have rest_eq : attempt.rest = _ := walk.stream_eq
    rw [rest_eq]
    exact shows.advanceBy _
  · intro before event after parts
    rw [parts] at walk
    obtain ⟨fresh, next, occurs⟩ := walk.exists_occurs
    exact ⟨_, fresh, next, shows.advanceBy _, occurs⟩

end Window

end Scriptlet
