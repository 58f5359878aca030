import Scriptlet.Proofs.Dialogue
import Scriptlet.Proofs.Readings
import Scriptlet.Proofs.Relocation
import Scriptlet.Proofs.Reports
import Scriptlet.Proofs.Success

/-!
# Front ends

A script may stand in a file or be a line of a dialogue. What it comes to is the same: the path of
the file goes into the locations of the tokens, nothing that is done depends on it, and of what is
shown only the lines of a listing name it. So the answer to a line is what a run of a file with that
content writes, to one output or the other, with the name of the input for the path.
-/

namespace Scriptlet

/-! ## Text of another file -/

/-- The same place in another file. -/
def Location.inFile (path : String) (location : Location) : Location :=
  { location with path := path }

theorem Location.steady_inFile (path : String) : Steady (inFile path) := by
  intro location c
  unfold after
  split <;> rfl

/-- The same message about the same place in another file. -/
def Diagnostic.inFile (path : String) (diagnostic : Diagnostic) : Diagnostic :=
  { diagnostic with location := diagnostic.location.inFile path }

/-- The same failure in another file. -/
def Failure.inFile (path : String) : Failure → Failure
  | malformed diagnostics => malformed (diagnostics.map (Diagnostic.inFile path))
  | stopped error => stopped (error.mapMark (Location.inFile path))

section

variable (text path path' : String)

/-- The same text in another file has the same tokens, with the other file in their locations. -/
theorem stream_inFile : TokenStream.ofCursor (.ofText text path') =
    (TokenStream.ofCursor (.ofText text path)).mapMarks (Location.inFile path') :=
  Cursor.stream_relocated (Location.steady_inFile path') (.ofText text path)

/-- A text is parsed in the same way in another file. -/
theorem parseText_inFile : parseText text path' =
    ((parseText text path).1.mapTokens (Token.mapMark (Location.inFile path')),
      (parseText text path).2.map (Diagnostic.inFile path')) := by
  let stream := TokenStream.ofCursor (.ofText text path)
  have parsed : parseText text path' =
      ((Parser.ofStream (stream.mapMarks (Location.inFile path'))).program.1,
        (Parser.ofStream (stream.mapMarks (Location.inFile path'))).program.2.diagnostics) := by
    rw [← stream_inFile text path path']
    rfl
  rw [parsed, Parser.program_mapMarks, Parser.diagnostics, Parser.problems_mapMarks, List.map_map]
  refine congrArg (Prod.mk _) ?_
  show _ = ((Parser.ofStream stream).program.2.problems.map Diagnostic.ofProblem).map _
  rw [List.map_map]
  exact List.map_congr_left fun problem _ => Diagnostic.ofProblem_of_mapMark _ problem

/-- A script comes to the same in another file. -/
theorem runText_inFile :
    runText text path' = (runText text path).mapError (Failure.inFile path') := by
  have parsed := parseText_inFile text path path'
  by_cases quiet : (parseText text path).2 = []
  · have quiet' : (parseText text path').2 = [] := by rw [parsed, quiet]; rfl
    rw [runText_of_quiet quiet, runText_of_quiet quiet', parsed, Program.evaluate_mapTokens]
    show ((parseText text path).1.evaluate.result.mapError _).mapError _ = _
    cases (parseText text path).1.evaluate.result <;> rfl
  · have wrong' : (parseText text path').2 ≠ [] := by
      rw [parsed]
      exact fun none => quiet (List.map_eq_nil_iff.mp none)
    rw [runText_of_problems quiet, runText_of_problems wrong', parsed]
    rfl

end

/-- The problems of a text are in its own file. -/
theorem path_of_mem_parseText {text path : String} :
    ∀ diagnostic ∈ (parseText text path).2, diagnostic.location.path = path := by
  intro diagnostic member
  rw [parseText_inFile text path path] at member
  obtain ⟨_, -, rfl⟩ := List.mem_map.mp member
  rfl

theorem diagnostics_of_malformed {text path : String} {diagnostics : List Diagnostic}
    (comes : runText text path = .error (.malformed diagnostics)) :
    diagnostics = (parseText text path).2 := by
  by_cases quiet : (parseText text path).2 = []
  · rw [runText_of_quiet quiet] at comes
    cases result : (parseText text path).1.evaluate.result with
    | ok value => rw [result] at comes; cases comes
    | error error => rw [result] at comes; cases comes
  · rw [runText_of_problems quiet] at comes
    cases comes
    rfl

theorem EvaluationError.message_inFile (path : String) (error : EvaluationError Location) :
    (error.mapMark (Location.inFile path)).message = error.message := by
  cases error <;> rfl

/-! ## Listings -/

/-- There is no line feed in the text. -/
def OneLine (text : String) : Prop := '\n' ∉ text.toList

instance (text : String) : Decidable (OneLine text) :=
  inferInstanceAs (Decidable ('\n' ∉ text.toList))

theorem oneLine_append {text other : String} :
    OneLine (text ++ other) ↔ OneLine text ∧ OneLine other := by
  simp [OneLine, not_or]

theorem oneLine_natural (n : Nat) : OneLine (Decimal.natural n) := fun member =>
  absurd (Decimal.isDigit_of_mem_natural member) (by decide)

theorem Kind.oneLine_text (kind : Kind) : OneLine kind.text := by
  cases kind <;> decide

/-- The tokens of a text have no blanks in them, and so no line feeds. -/
theorem Cursor.oneLine_of_mem_tokens {text path : String} {token : Token Location}
    (member : token ∈ (ofText text path).tokens.1) : OneLine token.literal := by
  obtain ⟨pieces, tail, partition⟩ := exists_partition path [] text.toList
  rw [tokens_ofText partition] at member
  obtain ⟨piece, listed, rfl⟩ := List.mem_map.mp member
  obtain ⟨first, last, same⟩ := List.append_of_mem listed
  exact fun feed => absurd ((partition.fits first piece last same).solid '\n' feed) (by decide)

theorem TokenStream.nth_mem_or {α : Type} (stream : TokenStream α) (i : Nat) :
    stream.nth i ∈ stream.pending ∨ stream.nth i = stream.ending := by
  unfold nth
  cases found : stream.pending[i]? with
  | none => exact .inr rfl
  | some token => exact .inl (List.mem_of_getElem? found)

/-- A problem that is reported is about one of the tokens of the stream. -/
theorem Walk.exists_found {α : Type} {stream : TokenStream α} {fresh : Bool}
    {log : List (ParseEvent α)} {last : Standing α} {problem : Problem α}
    (walk : Walk ⟨stream, fresh⟩ log last) (reported : .reported problem ∈ log) :
    ∃ i, problem.found = stream.nth i := by
  obtain ⟨earlier, later, rfl⟩ := List.append_of_mem reported
  obtain ⟨_, _, occurs⟩ := walk.exists_occurs
  cases occurs with
  | unexpected _ => exact ⟨steps earlier + 1, stream.peek_drop _⟩
  | noExpression _ => exact ⟨steps earlier, stream.current_drop _⟩
  | tooLarge _ => exact ⟨steps earlier, stream.current_drop _⟩

/-- A message has a line feed only if the token that it quotes has one. -/
theorem Problem.oneLine_message {α : Type} {problem : Problem α}
    (single : OneLine problem.found.literal) : OneLine problem.message := by
  cases problem with
  | unexpected wanted found =>
    have single : OneLine found.literal := single
    show OneLine ("expected next token to be " ++ wanted.text ++ ", got " ++ found.kind.text ++
      " '" ++ found.literal ++ "' instead")
    simp only [oneLine_append, Kind.oneLine_text, single, and_true]
    decide
  | noExpression found =>
    have single : OneLine found.literal := single
    show OneLine
      ("no prefix parse function for " ++ found.kind.text ++ " '" ++ found.literal ++ "'")
    simp only [oneLine_append, Kind.oneLine_text, single, and_true]
    decide
  | tooLarge found =>
    have single : OneLine found.literal := single
    show OneLine ("could not parse " ++ found.literal ++ " as integer literal")
    simp only [oneLine_append, single, and_true]
    decide

/-- What stands behind the path in the line of a listing. -/
def Diagnostic.details (diagnostic : Diagnostic) : String :=
  " (" ++ diagnostic.location.position ++ "): " ++ diagnostic.message

theorem Diagnostic.details_inFile (path : String) (diagnostic : Diagnostic) :
    (diagnostic.inFile path).details = diagnostic.details := by
  simp only [details, Location.position, inFile, Location.inFile]

/-- Every problem of a text takes one line. -/
theorem oneLine_details {text path : String} :
    ∀ diagnostic ∈ (parseText text path).2, OneLine diagnostic.details := by
  intro diagnostic member
  rw [parseText_eq] at member
  obtain ⟨problem, found, rfl⟩ := List.mem_map.mp member
  obtain ⟨event, logged, reported⟩ := List.mem_filterMap.mp found
  let stream := TokenStream.ofCursor (.ofText text path)
  have walk := Attempt.compositional_walked.statements stream
  have single : OneLine problem.found.literal := by
    obtain rfl : event = .reported problem := by cases event <;> simp_all [ParseEvent.problem?]
    obtain ⟨i, about⟩ := walk.exists_found logged
    rw [about]
    rcases stream.nth_mem_or i with inside | atEnd
    · exact Cursor.oneLine_of_mem_tokens inside
    · rw [atEnd]
      exact List.not_mem_nil
  have message : OneLine (Diagnostic.ofProblem problem).message := Problem.oneLine_message single
  simp only [Diagnostic.details, Location.position, oneLine_append, oneLine_natural, message,
    and_true]
  decide

/-- Numbered lines, each with a path at its place and the details behind it. -/
def listedFrom (path : String) (number : Nat) : List String → String
  | [] => ""
  | details :: others =>
    "[" ++ Decimal.natural number ++ "] In " ++ path ++ details ++ "\n" ++
      listedFrom path (number + 1) others

/-- A listing of numbered lines about one file. -/
def listed (path : String) (details : List String) : String :=
  "found parse errors\n\n" ++ listedFrom path 1 details

/-- Where all diagnostics are about one file, their lines are made from its path and the rest of
each. -/
theorem numberedFrom_eq {path : String} {diagnostics : List Diagnostic} (number : Nat)
    (same : ∀ diagnostic ∈ diagnostics, diagnostic.location.path = path) :
    Diagnostic.numberedFrom number diagnostics =
      listedFrom path number (diagnostics.map Diagnostic.details) := by
  induction diagnostics generalizing number with
  | nil => rfl
  | cons diagnostic diagnostics ih =>
    obtain ⟨first, others⟩ := List.forall_mem_cons.mp same
    rw [Diagnostic.numberedFrom, ih (number + 1) others, List.map_cons, listedFrom,
      Diagnostic.numbered, first, Diagnostic.details]
    simp only [String.append_assoc]

theorem listing_eq_listed {path : String} {diagnostics : List Diagnostic}
    (same : ∀ diagnostic ∈ diagnostics, diagnostic.location.path = path) :
    Diagnostic.listing diagnostics = listed path (diagnostics.map Diagnostic.details) :=
  congrArg ("found parse errors\n\n" ++ ·) (numberedFrom_eq 1 same)

/-- In another file only the paths of a listing are others. -/
theorem listing_inFile (path : String) (diagnostics : List Diagnostic) :
    Diagnostic.listing (diagnostics.map (Diagnostic.inFile path)) =
      listed path (diagnostics.map Diagnostic.details) := by
  have same : ∀ diagnostic ∈ diagnostics.map (Diagnostic.inFile path),
      diagnostic.location.path = path := by
    intro diagnostic member
    obtain ⟨_, -, rfl⟩ := List.mem_map.mp member
    rfl
  have details : (diagnostics.map (Diagnostic.inFile path)).map Diagnostic.details =
      diagnostics.map Diagnostic.details := by
    rw [List.map_map]
    exact List.map_congr_left fun diagnostic _ => diagnostic.details_inFile path
  rw [listing_eq_listed same, details]

namespace Console

/-! ## Agreement -/

/-- The run of a file that is there and has a text is that of its text. -/
theorem execute_run {fileSystem : FileSystem Id} {file path text : String}
    (isScript : isScriptPath file = true) (resolved : fileSystem.resolve file = .ok path)
    (content : fileSystem.content path = .ok (encode text)) (input : List UInt8) :
    Id.run (execute fileSystem input (.run file)) = .ofResult (runText text path) := by
  simp [execute, runFile, isScript, resolved, content, decode_encode, Id.run, bind, pure]

/-- A dialogue of one line is the answer to it between two prompts. -/
theorem session_line (fileSystem : FileSystem Id) {line : String} (single : OneLine line)
    (whole : line.toList.getLast? ≠ some '\r') :
    session fileSystem (encode (line ++ "\n")) = ⟨0, prompt ++ answer line ++ prompt, ""⟩ := by
  have proper : (InputLine.mk line false).Proper := ⟨single, fun _ => whole⟩
  have answered := session_encode_append fileSystem proper []
  rw [List.append_nil] at answered
  exact answered

/-- The two front ends agree. A line is answered with what a run of a file with that content writes:
to the standard output if the script has a value, and to the standard error if it stops. If it is
malformed, a listing goes to the standard error, and the answer differs from it in the path of the
file in each line, in whose place it has the name of the input. The exit status of the run tells
these cases apart. -/
theorem answer_agrees_run {fileSystem : FileSystem Id} {file path line : String}
    (isScript : isScriptPath file = true) (resolved : fileSystem.resolve file = .ok path)
    (content : fileSystem.content path = .ok (encode line)) (single : OneLine line)
    (whole : line.toList.getLast? ≠ some '\r') (input : List UInt8) :
    let report := Id.run (execute fileSystem input (.run file))
    ∃ answer, session fileSystem (encode (line ++ "\n")) = ⟨0, prompt ++ answer ++ prompt, ""⟩ ∧
      match runText line path with
      | .ok _ => report = ⟨0, answer, ""⟩
      | .error (.stopped _) => report = ⟨70, "", answer⟩
      | .error (.malformed _) => ∃ details, (∀ detail ∈ details, OneLine detail) ∧
          report = ⟨65, "", listed path details⟩ ∧ answer = listed promptPath details := by
  intro report
  have run : report = .ofResult (runText line path) :=
    execute_run isScript resolved content input
  have answer_eq : answer line =
      resultText ((runText line path).mapError (Failure.inFile promptPath)) := by
    rw [answer, runText_inFile line path promptPath]
  refine ⟨answer line, session_line fileSystem single whole, ?_⟩
  rw [run, answer_eq]
  cases comes : runText line path with
  | ok value => rfl
  | error failure =>
    cases failure with
    | stopped error =>
      have same := congrArg (· ++ "\n") (error.message_inFile promptPath)
      exact congrArg (Report.mk 70 "") same.symm
    | malformed diagnostics =>
      obtain rfl := diagnostics_of_malformed comes
      refine ⟨(parseText line path).2.map Diagnostic.details, ?_, ?_, ?_⟩
      · exact List.forall_mem_map.mpr oneLine_details
      · exact congrArg (Report.mk 65 "") (listing_eq_listed path_of_mem_parseText)
      · exact listing_inFile promptPath _

/-- Two problems of a line, listed for the file and as an answer. -/
theorem answer_agrees_run_malformed :
    let line := "let 1 @"
    let path := "/d/f.monkey"
    let fileSystem := (Directory.ofFiles "/d" [("f.monkey", some (encode line))]).fileSystem
    isScriptPath "f.monkey" = true ∧ fileSystem.resolve "f.monkey" = .ok path ∧
      fileSystem.content path = .ok (encode line) ∧
      OneLine line ∧ line.toList.getLast? ≠ some '\r' ∧
      ∃ answer, session fileSystem (encode (line ++ "\n")) = ⟨0, prompt ++ answer ++ prompt, ""⟩ ∧
        ∃ details, (∀ detail ∈ details, OneLine detail) ∧
          Id.run (execute fileSystem [] (.run "f.monkey")) = ⟨65, "", listed path details⟩ ∧
          answer = listed promptPath details := by
  intro line path fileSystem
  have isScript : isScriptPath "f.monkey" = true := by decide +kernel
  have resolved : Id.run (fileSystem.resolve "f.monkey") = .ok path := by decide +kernel
  have content : Id.run (fileSystem.content path) = .ok (encode line) := by decide +kernel
  have single : OneLine line := by decide
  have whole : line.toList.getLast? ≠ some '\r' := by decide
  refine ⟨isScript, resolved, content, single, whole, ?_⟩
  obtain ⟨answer, answered, agrees⟩ :=
    answer_agrees_run isScript resolved content single whole []
  refine ⟨answer, answered, ?_⟩
  have malformed : runText line path = .error (.malformed (parseText line path).2) :=
    runText_of_problems (by decide +kernel)
  rwa [malformed] at agrees

end Console

end Scriptlet
