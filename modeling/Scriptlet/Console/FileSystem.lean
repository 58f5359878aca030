import Scriptlet.Console.Path
import Scriptlet.Decimal

/-!
# File systems

What the program needs to know of a file system: the absolute path of a file, which tells whether
it is there, and its content. `Directory` is one held in memory: a list of files with their paths,
in which a path is followed part by part as an operating system follows it. A path may leave the
directory and go on outside, but it does not find its way back.
-/

namespace Scriptlet.Console

/-- Why a file could not be used, in the words and with the number of the operating system. -/
structure FileError where
  description : String
  code : Nat
deriving DecidableEq

namespace FileError

/-- Nothing is there, or what is there is outside the directory. -/
def notFound : FileError := ⟨"No such file or directory", 2⟩

/-- A path goes on after a file. -/
def notADirectory : FileError := ⟨"Not a directory", 20⟩

/-- A directory has no content to read. -/
def isADirectory : FileError := ⟨"Is a directory", 21⟩

/-- A name on the way, or the whole path, has too many bytes. -/
def nameTooLong : FileError := ⟨"File name too long", 36⟩

/-- The errors that are described here. -/
def known : List FileError := [notFound, notADirectory, isADirectory, nameTooLong]

/-- The error with a number. The description is used if the number is not known here. -/
def ofCode (code : Nat) (description : String) : FileError :=
  (known.find? (·.code = code)).getD ⟨description, code⟩

/-- The wording of the error. -/
def message (error : FileError) : String :=
  error.description ++ " (os error " ++ Decimal.natural error.code ++ ")"

end FileError

/-- A file system, seen through the effects `m` that asking it has. -/
structure FileSystem (m : Type → Type) where
  /-- The absolute path of what a path leads to (`canonicalize`). -/
  resolve : String → m (Except FileError String)
  /-- The content of the file at an absolute path (`read_to_string`, before decoding). -/
  content : String → m (Except FileError (List UInt8))

/-- A directory in memory. Its entries are files, with content, and directories, without; their
paths are lists of names, and what lies on the way to an entry is a directory too. -/
structure Directory where
  path : String
  entries : List (List String × Option (List UInt8))

namespace Directory

/-- The entries that a file brings with it, where `names` are followed by the rest of its written
path: the file itself, and the directories that the path goes up from. -/
def entriesOf (names : List String) (content : Option (List UInt8)) :
    List String → List (List String × Option (List UInt8))
  | [] => [(names, content)]
  | part :: parts =>
    if part = "" ∨ part = "." then entriesOf names content parts
    else if part = ".." then (names, none) :: entriesOf names.dropLast content parts
    else entriesOf (names ++ [part]) content parts

/-- The directory with files and directories at these written paths. -/
def ofFiles (path : String) (files : List (String × Option (List UInt8))) : Directory :=
  ⟨path, files.flatMap fun (file, content) => entriesOf [] content (pieces '/' file)⟩

/-- The content of the file with this list of names, if there is one. -/
def content? (directory : Directory) (names : List String) : Option (List UInt8) :=
  (directory.entries.lookup names).join

/-- Whether a list of names leads to an entry or lies on the way to one. -/
def leads (directory : Directory) (names : List String) : Bool :=
  names = [] || directory.entries.any fun entry => names.isPrefixOf entry.1

/-- A list of names written as an absolute path. -/
def absolute (directory : Directory) (names : List String) : String :=
  names.foldl (fun path name => path ++ "/" ++ name) directory.path

/-- The most bytes that a name may have. -/
def longestName : Nat := 255

/-- The most bytes that an absolute path may have. -/
def longestPath : Nat := 4095

/-- Where following a path has led: to a list of names, or to a place outside the directory, which
is a directory of which nothing is known. -/
inductive Place where
  | inside (names : List String)
  | outside
deriving DecidableEq

/-- The place one step up. -/
def Place.up : Place → Place
  | inside [] => outside
  | inside names => inside names.dropLast
  | outside => outside

/-- Whether a place is that of a file. -/
def isFile (directory : Directory) : Place → Bool
  | .inside names => (directory.content? names).isSome
  | .outside => false

/-- The place to which a name leads. A path that is too long is refused before anything is looked
up, a name that is too long only where names are looked up at all. Outside nothing is found. -/
def enter (directory : Directory) (name : String) : Place → Except FileError Place
  | .inside names =>
    if longestPath < (directory.absolute (names ++ [name])).utf8ByteSize then .error .nameTooLong
    else if directory.isFile (.inside names) then .error .notADirectory
    else if longestName < name.utf8ByteSize then .error .nameTooLong
    else if directory.leads (names ++ [name]) then .ok (.inside (names ++ [name]))
    else .error .notFound
  | .outside => if longestName < name.utf8ByteSize then .error .nameTooLong else .error .notFound

/-- The place that is reached by following the parts of a path. Empty parts and single dots stay
where they are; at the end of a path they still ask for a directory. -/
def follow (directory : Directory) (place : Place) : List String → Except FileError Place
  | [] => .ok place
  | part :: parts =>
    if part = "" ∨ part = "." then
      if parts = [] ∧ directory.isFile place then .error .notADirectory
      else directory.follow place parts
    else if part = ".." then
      if directory.isFile place then .error .notADirectory else directory.follow place.up parts
    else
      match directory.enter part place with
      | .ok next => directory.follow next parts
      | .error error => .error error

/-- What a path leads to. One that begins at the root of the file system begins outside. -/
def find (directory : Directory) (path : String) : Except FileError (List String) :=
  let start := if path.toList.head? = some '/' then .outside else .inside []
  match directory.follow start (pieces '/' path) with
  | .ok (.inside names) => .ok names
  | .ok .outside => .error .notFound
  | .error error => .error error

/-- The directory as a file system of its own. -/
def fileSystem (directory : Directory) : FileSystem Id where
  resolve path := (directory.find path).map directory.absolute
  content path :=
    match directory.entries.find? fun entry => directory.absolute entry.1 = path with
    | some (_, some content) => .ok content
    | _ => .error .isADirectory

end Directory

end Scriptlet.Console
