import Scriptlet.Console.Arguments
import Scriptlet.Console.FileSystem
import Scriptlet.Console.Prompt

/-!
# The command line

What the program does when it is asked something: it runs the script in a file, or holds a
dialogue about its input, or says how it is used.
-/

namespace Scriptlet.Console

/-- How the program is used. Nothing depends on the wording. -/
def usageText : String :=
  "usage: " ++ programName ++ " [-v] run FILE\n" ++
  "       " ++ programName ++ " [-v] repl\n"

/-- The run of a file (`run_file`). It has to have the name of a script, to be there, and to hold
text. -/
def runFile {m : Type → Type} [Monad m] (fileSystem : FileSystem m) (file : String) : m Report := do
  if isScriptPath file then
    match ← fileSystem.resolve file with
    | .error error =>
      return .failed ("file " ++ file ++ " does not exist: " ++ error.message)
    | .ok path =>
      match ← fileSystem.content path with
      | .error error => return .failed ("could not read " ++ path ++ ": " ++ error.message)
      | .ok bytes =>
        match decode bytes with
        | none => return .failed ("could not read " ++ path ++ ": " ++ notText)
        | some text => return .ofResult (runText text path)
  else return .failed ("expected [filename.monkey], got " ++ file)

/-- What becomes of a request, given the input of the program: the choice that `main` makes between
`run_file` and `run_prompt`. -/
def execute {m : Type → Type} [Monad m] (fileSystem : FileSystem m) (input : List UInt8) :
    Request → m Report
  | .run file => runFile fileSystem file
  | .dialogue => return dialogue (lines input)
  | .usage => return ⟨0, usageText, ""⟩
  | .invalid => return ⟨1, "", usageText⟩

end Scriptlet.Console
