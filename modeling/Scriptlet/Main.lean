import Scriptlet.Console.CommandLine

/-!
# The program

The thin layer between the library and the operating system: it asks for files, reads the input
and writes the outputs. A dialogue is held line by line, so that each answer comes before the next
line is read.
-/

namespace Scriptlet.Main

open Scriptlet.Console

/-- The error with a number, which may come as its complement in 32 bits. -/
def numbered (code : UInt32) (details : String) : FileError :=
  .ofCode (if code.toNat < Nat.pow 2 31 then code.toNat else Nat.pow 2 32 - code.toNat) details

/-- What the operating system said was wrong. -/
def fileError : IO.Error → FileError
  | .alreadyExists _ code details => numbered code details
  | .otherError code details => numbered code details
  | .resourceBusy code details => numbered code details
  | .resourceVanished code details => numbered code details
  | .unsupportedOperation code details => numbered code details
  | .hardwareFault code details => numbered code details
  | .unsatisfiedConstraints code details => numbered code details
  | .illegalOperation code details => numbered code details
  | .protocolError code details => numbered code details
  | .timeExpired code details => numbered code details
  | .interrupted _ code details => numbered code details
  | .noFileOrDirectory _ code details => numbered code details
  | .invalidArgument _ code details => numbered code details
  | .permissionDenied _ code details => numbered code details
  | .resourceExhausted _ code details => numbered code details
  | .inappropriateType _ code details => numbered code details
  | .noSuchThing _ code details => numbered code details
  | .unexpectedEof => ⟨"unexpected end of file", 0⟩
  | .userError details => ⟨details, 0⟩

/-- The result of an action that may fail. -/
def attempt {β : Type} (action : IO β) : IO (Except FileError β) := do
  match ← action.toBaseIO with
  | .ok value => return .ok value
  | .error error => return .error (fileError error)

/-- The absolute path of what a path leads to. If there is none, reading tells why. -/
def resolve (path : String) : IO (Except FileError String) := do
  match ← attempt (IO.FS.realPath path) with
  | .ok resolved => return .ok resolved.toString
  | .error error =>
    match ← attempt (IO.FS.readBinFile path) with
    | .error reason => return .error reason
    | .ok _ => return .error error

/-- The file system of the machine. -/
def fileSystem : FileSystem IO where
  resolve := resolve
  content path := attempt do return (← IO.FS.readBinFile path).toList

/-- The input up to the next line feed or to its end. -/
partial def readLine (input : IO.FS.Stream) (begun : List UInt8) : IO (List UInt8) := do
  let byte ← input.read 1
  match byte.toList with
  | [] => return begun.reverse
  | byte :: _ =>
    if byte = lineFeed then return (byte :: begun).reverse else readLine input (byte :: begun)

/-- The outputs of a report are written. -/
def write (report : Report) : IO UInt32 := do
  (← IO.getStdout).putStr report.stdout
  (← IO.getStderr).putStr report.stderr
  return report.exit.toUInt32

/-- The standard input and output. Nothing that is written waits for what comes after it. -/
def terminal : Terminal IO where
  nextLine := do return (lines (← readLine (← IO.getStdin) [])).head?
  write text := do
    let output ← IO.getStdout
    output.putStr text
    output.flush

/-- A dialogue about the standard input: one turn after the other, until one ends it. -/
partial def converse : IO UInt32 := do
  match ← turn terminal with
  | none => converse
  | some report => write report

end Scriptlet.Main

open Scriptlet Scriptlet.Console in
/-- The arguments decide what is done. -/
def main (arguments : List String) : IO UInt32 := do
  match Request.ofArguments arguments with
  | .dialogue => Main.converse
  | request => Main.write (← execute Main.fileSystem [] request)
