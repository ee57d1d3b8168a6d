import BucketFs.Text.Separated

/-!
# Resource names

A bucket may be named by way of an access point, whose resource name has six parts with colons
between them: a mark, the partition, the service, the region, the account and the resource, which
has parts of its own.
-/

namespace BucketFs.Remote

open BucketFs.Text

/-- The name of a resource. -/
structure ResourceName where
  partition : String
  service : String
  region : String
  account : String
  /-- The parts of the resource, which end at colons and slashes. -/
  resource : List String
  deriving DecidableEq, Repr

namespace ResourceName

/-- The mark with which every resource name starts. -/
def mark : String := "arn"

/-- Reads a resource name; the partition, the service and the resource must not be empty. -/
def parse? (text : String) : Option ResourceName :=
  match pieces ':' text.toList with
  | first :: partition :: service :: region :: account :: resource =>
    let parts := resource.flatMap (pieces separator)
    if String.ofList first = mark ∧ partition ≠ [] ∧ service ≠ [] ∧ parts ≠ [] ∧ parts ≠ [[]] then
      some {
        partition := String.ofList partition
        service := String.ofList service
        region := String.ofList region
        account := String.ofList account
        resource := parts.map String.ofList }
    else none
  | _ => none

/-- Whether a text is of ASCII and starts as a resource name. -/
def isClaimed (text : String) : Bool :=
  hasPrefix (mark ++ ":") text && isAscii text

end ResourceName

end BucketFs.Remote
