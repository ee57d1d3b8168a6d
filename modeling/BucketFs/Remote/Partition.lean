import BucketFs.Text.Number
import BucketFs.Text.Separated

/-!
# Partitions

The regions of the service fall into partitions, each with a domain of its own.  The name of a
region shows its partition: an area, a word and a number with hyphens between them.  A region that
belongs nowhere is counted among those of the first partition.
-/

namespace BucketFs.Remote

open BucketFs.Text

/-- A partition of the service. -/
structure Partition where
  name : String
  /-- The domain under which its hosts are. -/
  domain : String
  /-- The areas with which the names of its regions start. -/
  areas : List String
  deriving DecidableEq, Repr

namespace Partition

/-- The partition of every region that no other one claims. -/
def standard : Partition :=
  ⟨"aws", "amazonaws.com", ["us", "eu", "ap", "sa", "ca", "me", "af", "il", "mx"]⟩

/-- The other partitions. -/
def separate : List Partition :=
  [⟨"aws-cn", "amazonaws.com.cn", ["cn"]⟩,
   ⟨"aws-eusc", "amazonaws.eu", ["eusc-de"]⟩,
   ⟨"aws-iso", "c2s.ic.gov", ["us-iso"]⟩,
   ⟨"aws-iso-b", "sc2s.sgov.gov", ["us-isob"]⟩,
   ⟨"aws-iso-e", "cloud.adc-e.uk", ["eu-isoe"]⟩,
   ⟨"aws-iso-f", "csp.hci.ic.gov", ["us-isof"]⟩,
   ⟨"aws-us-gov", "amazonaws.com", ["us-gov"]⟩]

/-- Whether a text is a word: ASCII letters, digits and low lines. -/
def isWord (cs : List Char) : Bool := cs ≠ [] && cs.all fun c => c.isAlphanum || c = '_'

/-- Whether a text is a number. -/
def isNumeral (cs : List Char) : Bool := cs ≠ [] && cs.all isDigit

/-- Whether a region lies in an area. -/
def isIn (region area : String) : Bool :=
  match (dropPrefix? (area ++ "-") region).map fun rest => pieces '-' rest.toList with
  | some [word, numeral] => isWord word && isNumeral numeral
  | _ => false

/-- Whether a region is one of a partition: it lies in an area of it or is its global region. -/
def claims (p : Partition) (region : String) : Bool :=
  region = p.name ++ "-global" || p.areas.any (isIn region)

/-- The partition of a region. -/
def ofRegion (region : String) : Partition :=
  (separate.find? fun p => p.claims region).getD standard

end Partition

end BucketFs.Remote
