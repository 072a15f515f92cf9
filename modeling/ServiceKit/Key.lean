import ServiceKit.Base64Url
import ServiceKit.Error

/-!
# Public keys

The kinds of keys that services exchange, and the check that a text is the base64url form of a key
of the size its kind requires.
-/

namespace ServiceKit

/-- A kind of public key. -/
inductive KeyType where
  | curve25519
  | ed25519
  | p384
  deriving DecidableEq, Repr

namespace KeyType

/-- The size of a key in bytes. -/
def expectedLength : KeyType → Nat
  | curve25519 => 32
  | ed25519 => 32
  | p384 => 97

/-- The name of a kind. -/
def name : KeyType → String
  | curve25519 => "Curve25519"
  | ed25519 => "Ed25519"
  | p384 => "P384"

/-- The kind with a name, which must match exactly. -/
def ofName? (s : String) : Option KeyType :=
  if s = "Curve25519" then some curve25519
  else if s = "Ed25519" then some ed25519
  else if s = "P384" then some p384
  else none

/-- The kind with a name, or the error that shows the name. -/
def read (s : String) : Except ServiceError KeyType :=
  match ofName? s with
  | some type => .ok type
  | none => .error (.invalidConfig ("unknown key type " ++ Text.quoted s))

end KeyType

/-- A text is a key of the named kind: unknown kinds have no keys. -/
def isValidKey (key typeName : String) : Bool :=
  match KeyType.ofName? typeName with
  | some type => Base64Url.decodedLength? key == some type.expectedLength
  | none => false

end ServiceKit
