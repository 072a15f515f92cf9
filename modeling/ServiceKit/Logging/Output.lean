import ServiceKit.Storage

/-!
# Where log lines go

The outputs that a service can be configured with.  A setting that is none of the known names is the
path of a file.
-/

namespace ServiceKit
namespace Logging

/-- The setting of where log lines go. -/
inductive Output where
  | stdout
  | stderr
  | discard
  | file (path : String)
  deriving DecidableEq, Repr

/-- The place where the lines of an output arrive. -/
inductive Destination where
  | stdout
  | stderr
  | nowhere
  | file (path : Path)
  deriving DecidableEq, Repr

namespace Output

/-- The output that a setting names. -/
def ofSetting (s : String) : Output :=
  if s = "" ∨ s = "stdout" then stdout
  else if s = "stderr" then stderr
  else if s = "/dev/null" then discard
  else file s

/-- Lines on a terminal stream are colored. -/
def isTerminal : Output → Bool
  | stdout => true
  | stderr => true
  | _ => false

/-- The form of a path in a description of an output: quoted, single quotes escaped as well. -/
def describePath (path : String) : String :=
  let inner := path.toList.flatMap fun c => if c = '\'' then ['\\', '\''] else Text.Quoted.escape c
  String.ofList ('"' :: inner ++ ['"'])

/-- The description of an output in log lines. -/
def describe : Output → String
  | stdout => "Stdout"
  | stderr => "Stderr"
  | discard => "Discard"
  | file path => "File(" ++ describePath path ++ ")"

/-- The place of the file at an absolute path: the files of the standard streams are the streams. -/
def placeOfFile (path : Path) : Destination :=
  if path = ["dev", "stdout"] then .stdout
  else if path = ["dev", "stderr"] then .stderr
  else if path = ["dev", "null"] then .nowhere
  else .file path

/-- The place where the lines of an output arrive; a file that cannot be opened takes none. -/
def destination (storage : Storage) : Output → Destination
  | stdout => .stdout
  | stderr => .stderr
  | discard => .nowhere
  | file path =>
    match storage.locate path with
    | .ok path => placeOfFile path
    | .error _ => .nowhere

/-- Opens an output; only a file can fail. -/
def openIn (storage : Storage) : Output → Except ServiceError Storage
  | file path => (storage.openFile path).map Prod.snd
  | _ => .ok storage

end Output
end Logging
end ServiceKit
