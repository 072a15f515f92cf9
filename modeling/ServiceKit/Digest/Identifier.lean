import ServiceKit.Base64Url
import ServiceKit.Digest.Blake2b
import ServiceKit.Text.Utf8

/-!
# Identifiers from content

A short identifier that is safe in addresses: the digest of the content in base64url.
-/

namespace ServiceKit
namespace Identifier

/-- The identifier of bytes. -/
def ofBytes (bytes : List UInt8) : String :=
  String.ofList (Base64Url.encode (Blake2b.digest bytes))

/-- The identifier of a text, through its UTF-8 bytes. -/
def ofText (s : String) : String :=
  ofBytes (Text.Utf8.encode s.toList)

end Identifier
end ServiceKit
