import Scriptlet.Decimal

/-!
# Locations

A location names a character of a text: the file the text came from, a line counted from 1 and a
column counted from 1 in characters. `Location.after` is the one rule for moving on: a line feed
is the last character of its line, and any other character is followed on its own line.
-/

namespace Scriptlet

/-- A place in a text (`Location`). The column is 0 only before the first character of a line. -/
structure Location where
  path : String
  line : Nat
  column : Nat
deriving DecidableEq

namespace Location

/-- The place just before the first character of a text (`start`). -/
def start (path : String) : Location := ⟨path, 1, 0⟩

/-- The place just before the first character of the next line (`next_line`). -/
def nextLine (location : Location) : Location :=
  { location with line := location.line + 1, column := 0 }

/-- The place one character further on the same line (`next_char`). -/
def nextChar (location : Location) : Location :=
  { location with column := location.column + 1 }

/-- The place of the first character of a text. -/
def first (path : String) : Location := (start path).nextChar

/-- The place of the character that follows `c`, where `c` stands at `location`. It is what
`read_char` makes of the location. -/
def after (location : Location) (c : Char) : Location :=
  if c = '\n' then location.nextLine.nextChar else location.nextChar

/-- The written form `path:line:column`. -/
def text (location : Location) : String :=
  location.path ++ ":" ++ Decimal.natural location.line ++ ":" ++ Decimal.natural location.column

end Location

end Scriptlet
