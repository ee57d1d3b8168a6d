import BucketFs.Error
import BucketFs.Object.Info

/-!
# Listings

A listing answers page by page.  With a delimiter, keys that have one after the prefix are grouped
under their common prefix.
-/

namespace BucketFs

/-- The request for one page. -/
structure ListQuery where
  bucket : String
  /-- Only keys that start with this text are listed. -/
  listed : String
  delimiter : Option String := none
  token : Option String := none
  /-- The greatest number of entries; zero leaves it to the store. -/
  maxKeys : Nat := 1000
  deriving DecidableEq, Repr

/-- One page of a listing. -/
structure ListPage where
  listed : String
  delimiter : Option String := none
  objects : List ObjectInfo := []
  commonPrefixes : List String := []
  nextToken : Option String := none
  truncated : Bool := false
  deriving DecidableEq, Repr

namespace ListPage

/-- The keys of the page. -/
def keys (p : ListPage) : List String := p.objects.map (·.key)

/-- The number of keys and common prefixes. -/
def size (p : ListPage) : Nat := p.objects.length + p.commonPrefixes.length

/-- Whether the page has no entry. -/
def isEmpty (p : ListPage) : Bool := p.size == 0

/-- The first element that is equal to one before it. -/
def firstRepeated? : List String → List String → Option String
  | _, [] => none
  | seen, k :: rest => if k ∈ seen then some k else firstRepeated? (k :: seen) rest

/-- Refuses a truncated page without a token to go on with and a page that repeats a key. -/
def check (p : ListPage) : Result Unit :=
  if p.truncated && (p.nextToken.getD "").isEmpty then
    .error (.internal (.truncatedWithoutToken p.listed))
  else
    match firstRepeated? [] p.keys with
    | some key => .error (.internal (.repeatedKey key))
    | none => .ok ()

end ListPage

end BucketFs
