import ServiceKit.Environment
import ServiceKit.Key
import ServiceKit.Token

/-!
# Sample data

A key of each kind, a signed token and the environment of a service that sets every variable, for
trying out the rest of the library.
-/

namespace ServiceKit
namespace Samples

/-- The bytes of a sample key: they count up and begin again after 250. -/
def keyBytes (n : Nat) : List UInt8 :=
  (List.range n).map fun i => UInt8.ofNat (i % 251)

/-- A key of the size that its kind requires. -/
def key (type : KeyType) : String :=
  String.ofList (Base64Url.encode (keyBytes type.expectedLength))

/-- The base64url form of a text. -/
def segment (s : String) : List Char :=
  Base64Url.encode (Text.Utf8.encode s.toList)

/-- The header of the token. -/
def tokenHeader : String :=
  "\x7b\"alg\":\"EdDSA\",\"typ\":\"JWT\"\x7d"

/-- The claims of the token. -/
def tokenClaims : String :=
  "\x7b\"sub\":\"client-1\",\"exp\":1700000000\x7d"

/-- The signature of the token. -/
def tokenSignature : List UInt8 :=
  List.replicate 64 9

/-- A token of a header, claims and a signature. -/
def token : String :=
  String.ofList
    (Text.joinPieces '.'
      [segment tokenHeader, segment tokenClaims, Base64Url.encode tokenSignature])

/-- A text without its last characters. -/
def cutShort (s : String) (n : Nat) : String :=
  String.ofList (s.toList.take (s.toList.length - n))

/-- A variable with a text. -/
def variableOf (entry : String × String) : String × List UInt8 :=
  (entry.1, Text.Utf8.encode entry.2.toList)

/-- The variables of a service, all set. -/
def serviceVariables : Variables :=
  ⟨[("SERVICE_NAME", "notes"), ("LOG_LEVEL", "DEBUG"), ("LOG_OUTPUT", "/dev/null"),
    ("LOG_JSON", "true"), ("SHUTDOWN_TIMEOUT", "10"), ("READY_MAX_RETRIES", "3")].map variableOf⟩

/-- The sample variables with some of them set anew. -/
def serviceVariablesWith (changes : Variables) : Variables :=
  ⟨changes.entries ++ serviceVariables.entries⟩

end Samples
end ServiceKit
