import Scriptlet.Cursor

/-!
# Places

Where the characters of a text stand. Moving over characters one by one comes to the place that
counting gives: a line for every line feed, and a column for every character after the last of
them. So the place of a cursor is told by the characters before it.
-/

namespace Scriptlet

namespace Location

/-- The place of the character that stands behind the characters `before` in the file `path`. -/
def behind (path : String) (before : List Char) : Location :=
  ⟨path, 1 + before.count '\n', 1 + (before.reverse.takeWhile (· ≠ '\n')).length⟩

theorem after_behind (path : String) (before : List Char) (c : Char) :
    (behind path before).after c = behind path (before ++ [c]) := by
  unfold after
  split
  · next feed =>
    subst feed
    simp [behind, nextLine, nextChar, Nat.add_assoc]
  · next sameLine =>
    simp [behind, nextChar, sameLine, Nat.add_assoc]

/-- Moving over characters one by one comes behind all of them. -/
theorem foldl_after_behind (path : String) (before chars : List Char) :
    chars.foldl after (behind path before) = behind path (before ++ chars) := by
  induction chars generalizing before with
  | nil => simp
  | cons c chars ih => rw [List.foldl_cons, after_behind, ih, List.append_assoc, List.singleton_append]

/-- So many lines further down in the same column. -/
def below (lines : Nat) (location : Location) : Location :=
  { location with line := location.line + lines }

/-- So many lines further down a character is followed as it is here. -/
theorem after_below (lines : Nat) (location : Location) (c : Char) :
    (location.below lines).after c = (location.after c).below lines := by
  unfold after
  split
  · simp [below, nextLine, nextChar, Nat.add_right_comm]
  · rfl

/-- The first character behind a line feed stands in the first column. -/
theorem behind_lineFeed (path : String) (before : List Char) :
    behind path (before ++ ['\n']) = (first path).below (1 + before.count '\n') := by
  simp [behind, below, first, start, nextChar, Nat.add_comm]

end Location

namespace Cursor

theorem location_advanceBy (cursor : Cursor) (n : Nat) : (cursor.advanceBy n).location =
    (cursor.rest.take n).foldl Location.after cursor.location := by
  induction n generalizing cursor with
  | zero => simp [advanceBy]
  | succ n ih =>
    rw [advanceBy, ih, rest_advance]
    cases left : cursor.rest with
    | nil => simp [advance, left]
    | cons c rest => simp [advance, left]

theorem location_skipBlanks (cursor : Cursor) : cursor.skipBlanks.location =
    (cursor.rest.takeWhile isBlank).foldl Location.after cursor.location := by
  rw [skipBlanks, location_advanceBy]
  congr 1
  exact List.prefix_iff_eq_take.mp (List.takeWhile_prefix isBlank) |>.symm

end Cursor

end Scriptlet
