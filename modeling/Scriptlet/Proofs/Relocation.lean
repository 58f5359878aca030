import Scriptlet.Proofs.Places
import Scriptlet.Proofs.Words

/-!
# Relocation

The same text at another place. A cursor carries its location along and never looks at it, so
changing the locations in a way that moving over characters respects changes the locations of the
tokens in the same way, and nothing else. Text that stands further down is one case, and text of
another file is the other.
-/

namespace Scriptlet

/-- Moving over a character and changing the location do not get in each other's way. -/
def Location.Steady (f : Location → Location) : Prop :=
  ∀ location c, (f location).after c = f (location.after c)

/-- The cursor with another location. -/
def Cursor.relocated (f : Location → Location) (cursor : Cursor) : Cursor :=
  { cursor with location := f cursor.location }

namespace Cursor

variable {f : Location → Location} (steady : Location.Steady f) (cursor : Cursor)

@[simp] theorem rest_relocated : (cursor.relocated f).rest = cursor.rest := rfl

@[simp] theorem location_relocated : (cursor.relocated f).location = f cursor.location := rfl

include steady

theorem advance_relocated : (cursor.relocated f).advance = cursor.advance.relocated f := by
  cases left : cursor.rest with
  | nil => simp [advance, left]
  | cons c rest => simp [advance, relocated, left, steady cursor.location c]

theorem advanceBy_relocated (n : Nat) :
    (cursor.relocated f).advanceBy n = (cursor.advanceBy n).relocated f := by
  induction n generalizing cursor with
  | zero => rfl
  | succ n ih => rw [advanceBy, advance_relocated steady, ih, advanceBy]

theorem skipBlanks_relocated :
    (cursor.relocated f).skipBlanks = cursor.skipBlanks.relocated f := by
  rw [skipBlanks, rest_relocated, advanceBy_relocated steady, skipBlanks]

/-- The next token is the same, at the changed location. -/
theorem next_relocated : (cursor.relocated f).next =
    (cursor.next.1.mapMark f, cursor.next.2.relocated f) := by
  rw [next, skipBlanks_relocated steady, next]
  cases left : cursor.skipBlanks.rest with
  | nil => simp [read, left, Token.mapMark]
  | cons c rest => simp [read, left, Token.mapMark, advanceBy_relocated steady]

/-- Relocated text has the same tokens at their new places. -/
theorem tokens_relocated : (cursor.relocated f).tokens =
    (cursor.tokens.1.map (Token.mapMark f), f cursor.tokens.2) := by
  induction cursor using tokens.induct with
  | case1 cursor ended =>
    have ended' : (cursor.relocated f).skipBlanks.rest = [] := by
      rw [skipBlanks_relocated steady, rest_relocated, ended]
    rw [tokens_of_ended ended, tokens_of_ended ended', skipBlanks_relocated steady]
    rfl
  | case2 cursor more ih =>
    have more' : (cursor.relocated f).skipBlanks.rest ≠ [] := by
      rwa [skipBlanks_relocated steady, rest_relocated]
    rw [tokens_of_more more, tokens_of_more more', next_relocated steady, ih]
    rfl

/-- All tokens of a text are the same, at the changed locations. -/
theorem stream_relocated : TokenStream.ofCursor (cursor.relocated f) =
    (TokenStream.ofCursor cursor).mapMarks f := by
  rw [TokenStream.ofCursor, tokens_relocated steady]
  rfl

end Cursor

end Scriptlet
