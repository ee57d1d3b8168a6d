import BucketFs.Bytes.Base64
import BucketFs.Error

/-!
# Continuation tokens

A token carries the last entry of a page, in Base64, to the request for the next page.
-/

namespace BucketFs.Token

open BucketFs.Bytes

/-- The token of an entry. -/
def encode (marker : String) : String := Base64.encode (utf8 marker)

/-- The entry that a token carries. -/
def decode (token : String) : Result String :=
  match Base64.decode? token with
  | none => .error (.invalidArgument .malformedToken)
  | some b =>
    match ofUtf8? b with
    | none => .error (.invalidArgument .undecodableToken)
    | some marker => .ok marker

end BucketFs.Token
