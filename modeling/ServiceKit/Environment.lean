import ServiceKit.Error
import ServiceKit.Text.Utf8

/-!
# Environments

An environment gives names values.  Values are bytes and need not be text.  Readers of text differ
in what they make of other bytes: a strict reader refuses them, a lossy one replaces what is broken.
Variables listed as data are an environment in two ways: looked up by their names, or as a process
finds them among its texts `NAME=value`.
-/

namespace ServiceKit

/-- A source of named values. -/
structure Environment where
  /-- The value of a variable, if it is set. -/
  get? : String → Option (List UInt8)

/-- Named values listed one after another; the first entry of a name counts. -/
structure Variables where
  entries : List (String × List UInt8)
  deriving DecidableEq, Repr

namespace Variables

/-- The value of a variable. -/
def get? (vars : Variables) (name : String) : Option (List UInt8) :=
  vars.entries.lookup name

/-- Gives a variable a value, in place of any it had. -/
def set (vars : Variables) (name : String) (value : List UInt8) : Variables :=
  ⟨(name, value) :: vars.entries⟩

/-- The variable is set to UTF-8. -/
def hasText (vars : Variables) (name : String) : Bool :=
  match vars.get? name with
  | none => false
  | some bytes => (Text.Utf8.decode? bytes).isSome

/-- A process can have a variable of this name: it is not empty and holds neither the equals sign
nor the zero character. -/
def isProcessName (name : String) : Bool :=
  name ≠ "" && !name.toList.contains '=' && !name.toList.contains '\x00'

/-- The variables that a process can have. -/
def ofProcess (vars : Variables) : Variables :=
  ⟨vars.entries.filter fun entry => isProcessName entry.1⟩

/-- What a process finds under a name: the rest of the text `NAME=value` that begins with the name
and an equals sign, so a name can reach into a value. -/
def find? (vars : Variables) (name : String) : Option (List UInt8) :=
  match name.toList.dropWhile (· ≠ '=') with
  | [] => vars.get? name
  | _ :: rest => do
    let value ← vars.get? (String.ofList (name.toList.takeWhile (· ≠ '=')))
    (Text.Utf8.encode (rest ++ ['='])).isPrefixOf? value

/-- The variables under their names. -/
def environment (vars : Variables) : Environment :=
  ⟨vars.get?⟩

/-- The variables as a process finds them. -/
def processEnvironment (vars : Variables) : Environment :=
  ⟨vars.ofProcess.find?⟩

end Variables

namespace Environment

/-- The text of bytes, with a replacement for each broken part. -/
def lossy (bytes : List UInt8) : String :=
  String.ofList (Text.Utf8.decodeLossy bytes)

/-- The reason given for a value that is not UTF-8. -/
def notUnicode : String := "value is not valid unicode"

/-- The text of a variable, if it is set. -/
def text? (env : Environment) (name : String) : Except ServiceError (Option String) :=
  match env.get? name with
  | none => .ok none
  | some bytes =>
    match Text.Utf8.decode? bytes with
    | some cs => .ok (some (String.ofList cs))
    | none => .error (.invalidVariable name (lossy bytes) notUnicode)

end Environment
end ServiceKit
