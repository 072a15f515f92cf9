import ServiceKit.Error
import ServiceKit.Text.Pieces
import ServiceKit.Text.Utf8

/-!
# Files to append to

The part of a file system that opening a file for appending depends on: which directories there are,
which files, and where relative paths begin.  Opening walks the path from the left; the first
obstacle is the error, and a missing file in a directory that exists is created.
-/

namespace ServiceKit

/-- Why a file cannot be opened. -/
inductive OpenError where
  | notFound
  | notDirectory
  | isDirectory
  | nameTooLong
  | zeroCharacter
  deriving DecidableEq, Repr

/-- The wording of the system. -/
def OpenError.message : OpenError → String
  | .notFound => "No such file or directory (os error 2)"
  | .notDirectory => "Not a directory (os error 20)"
  | .isDirectory => "Is a directory (os error 21)"
  | .nameTooLong => "File name too long (os error 36)"
  | .zeroCharacter => "file name contained an unexpected NUL byte"

/-- An absolute path as the names from the root on. -/
abbrev Path := List String

/-- The directories and files of a system. -/
structure Storage where
  /-- The directory where relative paths begin. -/
  workingDirectory : Path
  /-- The directories besides the root and the working directory. -/
  directories : List Path
  /-- The files. -/
  files : List Path
  deriving DecidableEq, Repr

namespace Storage

/-- The directories and devices that every system has, and an empty working directory. -/
def standard : Storage where
  workingDirectory := ["tmp", "work"]
  directories :=
    [["bin"], ["dev"], ["etc"], ["home"], ["lib"], ["opt"], ["proc"], ["root"], ["run"], ["sbin"],
      ["sys"], ["tmp"], ["usr"], ["usr", "bin"], ["usr", "lib"], ["usr", "local"], ["var"],
      ["var", "lib"], ["var", "log"], ["var", "tmp"]]
  files :=
    [["dev", "null"], ["dev", "zero"], ["dev", "full"], ["dev", "random"], ["dev", "urandom"],
      ["dev", "tty"], ["dev", "stdin"], ["dev", "stdout"], ["dev", "stderr"], ["etc", "passwd"],
      ["etc", "hosts"]]

/-- The path is a directory. -/
def isDirectory (storage : Storage) (path : Path) : Bool :=
  path.isEmpty || path == storage.workingDirectory || storage.directories.contains path

/-- The path is a file. -/
def isFile (storage : Storage) (path : Path) : Bool :=
  storage.files.contains path

/-- The number of bytes of a name. -/
def byteLength (name : String) : Nat :=
  (Text.Utf8.encode name.toList).length

/-- The longest name of a file or directory, in bytes. -/
def longestName : Nat := 255

/-- The number of bytes that a path must stay below. -/
def pathLimit : Nat := 4096

/-- Walks names from a directory on to the file that the last one names; `ended` says that a slash
follows it. -/
def walk (storage : Storage) (ended : Bool) : Path → List String → Except OpenError Path
  | _, [] => .error .isDirectory
  | here, [name] =>
    if name = "." ∨ name = ".." then .error .isDirectory
    else if ended then .error .isDirectory
    else if longestName < byteLength name then .error .nameTooLong
    else if storage.isDirectory (here ++ [name]) then .error .isDirectory
    else .ok (here ++ [name])
  | here, name :: next :: rest =>
    if name = "." then walk storage ended here (next :: rest)
    else if name = ".." then walk storage ended here.dropLast (next :: rest)
    else if longestName < byteLength name then .error .nameTooLong
    else if storage.isDirectory (here ++ [name]) then
      walk storage ended (here ++ [name]) (next :: rest)
    else if storage.isFile (here ++ [name]) then .error .notDirectory
    else .error .notFound

/-- The file that a path names when it is opened for appending. -/
def locate (storage : Storage) (path : String) : Except OpenError Path :=
  let cs := path.toList
  if cs.contains '\x00' then .error .zeroCharacter
  else if cs = [] then .error .notFound
  else if pathLimit ≤ byteLength path then .error .nameTooLong
  else
    let names := ((Text.pieces '/' cs).filter (· ≠ [])).map String.ofList
    let start := if cs.head? = some '/' then [] else storage.workingDirectory
    walk storage (cs.getLast? = some '/') start names

/-- Opens a file for appending, creating it if it is missing. -/
def openFile (storage : Storage) (path : String) : Except ServiceError (Path × Storage) :=
  match storage.locate path with
  | .error e => .error (.io e.message)
  | .ok file =>
    if storage.isFile file then .ok (file, storage)
    else .ok (file, { storage with files := storage.files ++ [file] })

/-- The system with a file created in the working directory. -/
def withFile (storage : Storage) (name : String) : Storage :=
  { storage with files := storage.files ++ [storage.workingDirectory ++ [name]] }

/-- The path names a file or directory that exists. -/
def exists? (storage : Storage) (path : String) : Bool :=
  match storage.locate path with
  | .ok file => storage.isFile file
  | .error .isDirectory => true
  | .error _ => false

end Storage
end ServiceKit
