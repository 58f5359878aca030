/-!
# Arguments

What the program is asked to do. A `Request` is all that the rest of the project knows of this; the
arguments are read by the program itself and nowhere else.

The first argument that is not a flag names a command; flags may stand before and after it. An
argument is a flag if it begins with a dash and is longer than that; after the argument of two
dashes none is. Flags are read from left to right, and the first that asks for help or the version,
or that does not exist, decides.
-/

namespace Scriptlet.Console

/-- What the program is asked to do. -/
inductive Request where
  /-- Run the script in a file. -/
  | run (file : String)
  /-- Hold a dialogue. -/
  | dialogue
  /-- Say how the program is used. -/
  | usage
  /-- Nothing that the program can do. -/
  | invalid
deriving DecidableEq

/-- What a flag asks for: help or the version, more detail, or nothing known. -/
inductive Flag where
  | shown
  | verbose
  | unknown
deriving DecidableEq

namespace Flag

/-- The flag with a long name. What follows an equals sign is ignored. -/
def ofName (name : List Char) : Flag :=
  let name := String.ofList (name.takeWhile (· ≠ '='))
  if name = "help" ∨ name = "version" then shown
  else if name = "verbose" then verbose
  else unknown

/-- The flag that a row of letters amounts to. -/
def ofLetters : List Char → Flag
  | [] => verbose
  | letter :: letters =>
    if letter = 'h' ∨ letter = 'V' then shown
    else if letter = 'v' then ofLetters letters
    else unknown

/-- The flag that an argument is, if it is one. -/
def ofArgument? (argument : String) : Option Flag :=
  let chars := argument.toList
  let rest := chars.dropWhile (· = '-')
  match chars with
  | '-' :: '-' :: _ => some (ofName rest)
  | '-' :: _ :: _ => some (ofLetters rest)
  | _ => none

end Flag

namespace Request

/-- The arguments of a command that are not flags, at most `limit` of them, where `found` are
those before; or the request to which a flag leads instead. -/
def operands (limit : Nat) (found : List String) : List String → Except Request (List String)
  | [] => .ok found
  | argument :: arguments =>
    if argument = "--" then
      if found.length + arguments.length ≤ limit then .ok (found ++ arguments) else .error invalid
    else
      match Flag.ofArgument? argument with
      | some .shown => .error usage
      | some .verbose => operands limit found arguments
      | some .unknown => .error invalid
      | none =>
        if found.length < limit then operands limit (found ++ [argument]) arguments
        else .error invalid

/-- The request to run a file, which has to be named. -/
def ofRunArguments (arguments : List String) : Request :=
  match operands 1 [] arguments with
  | .ok [file] => run file
  | .ok _ => invalid
  | .error request => request

/-- The request for a dialogue, which takes no further arguments. -/
def ofDialogueArguments (arguments : List String) : Request :=
  match operands 0 [] arguments with
  | .ok _ => dialogue
  | .error request => request

/-- The request for help, perhaps about one command. -/
def ofHelpArguments : List String → Request
  | [] => usage
  | [command] => if command ∈ ["run", "repl", "help"] then usage else invalid
  | _ => invalid

/-- What the arguments ask for. -/
def ofArguments : List String → Request
  | [] => invalid
  | argument :: arguments =>
    if argument = "run" then ofRunArguments arguments
    else if argument = "repl" then ofDialogueArguments arguments
    else if argument = "help" then ofHelpArguments arguments
    else if argument = "--" then invalid
    else
      match Flag.ofArgument? argument with
      | some .shown => usage
      | some .verbose => ofArguments arguments
      | some .unknown => invalid
      | none => invalid

/-- A file that is not written like a flag is run. -/
theorem ofArguments_run {file : String} (noFlag : Flag.ofArgument? file = none) :
    ofArguments ["run", file] = .run file := by
  have notDashes : file ≠ "--" := by
    rintro rfl
    exact absurd noFlag (by decide)
  have alone : operands 1 [] [file] = .ok [file] := by
    simp [operands, notDashes, noFlag]
  simp [ofArguments, ofRunArguments, alone]

/-- Flags that ask for more detail make no difference to the request. -/
theorem ofArguments_append {flags : List String}
    (verbose : ∀ flag ∈ flags, Flag.ofArgument? flag = some .verbose) (arguments : List String) :
    ofArguments (flags ++ arguments) = ofArguments arguments := by
  induction flags with
  | nil => rfl
  | cons flag flags ih =>
    obtain ⟨first, others⟩ := List.forall_mem_cons.mp verbose
    have other (word : String) (noFlag : Flag.ofArgument? word ≠ some .verbose) : flag ≠ word := by
      rintro rfl
      exact noFlag first
    simp [ofArguments, other "run" (by decide), other "repl" (by decide), other "help" (by decide),
      other "--" (by decide), first, ih others]

example : ofArguments ["-v", "--verbose", "repl"] = .dialogue := by decide

end Request

end Scriptlet.Console
