import Scriptlet.Parse

/-!
# Parsers

A parser is a token stream that is being read together with the log of the reading so far. A
program is read to the end of the text; reading once more finds nothing and adds nothing. The
problems found are those that the log reports, in the order in which they were met.
-/

namespace Scriptlet

/-- A token stream that is being read (`Parser`). -/
structure Parser (α : Type) where
  stream : TokenStream α
  log : List (ParseEvent α)

namespace Parser

variable {α : Type}

/-- A parser that has read nothing yet. -/
def ofStream (stream : TokenStream α) : Parser α := ⟨stream, []⟩

/-- A parser of the text from a place on (`new`). -/
def ofCursor (cursor : Cursor) : Parser Location := ofStream (.ofCursor cursor)

/-- The program up to the end of the text, and the parser there (`parse_program`). -/
def program (parser : Parser α) : Program (Token α) × Parser α :=
  let attempt := Parse.statements parser.stream
  (⟨attempt.value.getD []⟩, ⟨attempt.rest, parser.log ++ attempt.log⟩)

/-- The problems found so far. -/
def problems (parser : Parser α) : List (Problem α) := parser.log.filterMap ParseEvent.problem?

/-- The problems found so far, as they are shown (`errors`). -/
def diagnostics (parser : Parser Location) : List Diagnostic :=
  parser.problems.map Diagnostic.ofProblem

end Parser

/-- What the text of the file `path` says as a program, and what is wrong with it: `parse_program`
and `errors` of a new parser. -/
def parseText (text path : String) : Program (Token Location) × List Diagnostic :=
  let (program, parser) := (Parser.ofCursor (.ofText text path)).program
  (program, parser.diagnostics)

end Scriptlet
