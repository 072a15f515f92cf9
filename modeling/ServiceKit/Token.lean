import ServiceKit.Base64Url
import ServiceKit.Text.Pieces

/-!
# Dotted tokens

A token is a list of base64url segments with dots between them.
-/

namespace ServiceKit

/-- What a check of a dotted token finds. -/
structure DottedCheck where
  /-- The number of segments. -/
  parts : Nat
  /-- Every segment is base64url. -/
  valid : Bool
  deriving DecidableEq, Repr

namespace DottedCheck

/-- A segment is base64url. -/
def segmentIsValid (segment : List Char) : Bool :=
  (Base64Url.decode? segment).isSome

/-- Checks the segments between the dots of a text. -/
def ofText (s : String) : DottedCheck :=
  let segments := Text.pieces '.' s.toList
  ⟨segments.length, segments.all segmentIsValid⟩

end DottedCheck
end ServiceKit
