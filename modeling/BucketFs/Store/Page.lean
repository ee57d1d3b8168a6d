import BucketFs.Listing.Page
import BucketFs.Listing.Token
import BucketFs.Store.Basic

/-!
# Pages of a store in memory

The entries of a listing are the keys under the prefix, those with the delimiter after it replaced
by their group.  A page holds the first entries after a marker; the last of them is the marker of
the next page.
-/

namespace BucketFs

open BucketFs.Text

/-- An entry of a listing: a key of its own, or the group of all keys under a common prefix. -/
inductive Entry where
  | object (info : ObjectInfo)
  | group (name : String)
  deriving DecidableEq, Repr

namespace Entry

/-- The text by which entries are ordered. -/
def name : Entry → String
  | .object info => info.key
  | .group name => name

/-- The facts about an entry that is a key. -/
def info? : Entry → Option ObjectInfo
  | .object info => some info
  | .group _ => none

/-- The name of an entry that is a group. -/
def group? : Entry → Option String
  | .object _ => none
  | .group name => some name

end Entry

namespace Listing

/-- The prefix that a key shares with its group: the key up to and with the first delimiter after
the listed prefix. -/
def groupOf? (listed : String) (delimiter : Option String) (key : String) : Option String :=
  match delimiter with
  | none => none
  | some d =>
    (upThrough? d.toList (key.toList.drop listed.length)).map fun cs => listed ++ String.ofList cs

/-- The entry that a stored object makes. -/
def entryOf (listed : String) (delimiter : Option String) (o : String × ObjectRecord) : Entry :=
  match groupOf? listed delimiter o.1 with
  | some name => .group name
  | none => .object (o.2.info o.1)

/-- Leaves one of each run of equal groups. -/
def mergeGroups : List Entry → List Entry
  | [] => []
  | e :: rest =>
    match e, mergeGroups rest with
    | .group name, .group next :: more =>
      if name = next then .group next :: more else .group name :: .group next :: more
    | e, merged => e :: merged

/-- Whether a marker is a group of this listing, whose keys an earlier page has reported. -/
def isGroupMarker (listed : String) (delimiter : Option String) (marker : String) : Bool :=
  hasPrefix listed marker && (groupOf? listed delimiter marker).isSome

/-- Whether a key comes after a marker: a key of the marker's group does not. -/
def isAfter (listed : String) (delimiter : Option String) (marker : Option String)
    (key : String) : Bool :=
  match marker with
  | none => true
  | some m =>
    (if listed ≤ m then m < key else true)
      && !(isGroupMarker listed delimiter m && hasPrefix m key)

/-- The entries of a bucket after a marker, in ascending order. -/
def entriesAfter (b : Bucket) (listed : String) (delimiter marker : Option String) : List Entry :=
  mergeGroups <|
    (b.entries.filter fun o => hasPrefix listed o.1 && isAfter listed delimiter marker o.1).map
      (entryOf listed delimiter)

/-- The page of at most `limit` entries after a marker.  An empty delimiter groups nothing. -/
def page (b : Bucket) (listed : String) (delimiter marker : Option String) (limit : Nat) :
    ListPage :=
  let delimiter := delimiter.filter fun d => d ≠ ""
  let entries := entriesAfter b listed delimiter marker
  let shown := entries.take limit
  let truncated := decide (limit < entries.length)
  { listed
    delimiter
    objects := shown.filterMap Entry.info?
    commonPrefixes := shown.filterMap Entry.group?
    nextToken := if truncated then shown.getLast?.map fun e => Token.encode e.name else none
    truncated }

end Listing

namespace Store

/-- The greatest number of entries on a page: as asked, zero meaning the store's own limit, and
never more than that limit. -/
def effectiveLimit (s : Store) (maxKeys : Nat) : Nat :=
  if maxKeys = 0 then s.pageLimit else min maxKeys s.pageLimit

/-- Answers a request for a page.  A malformed token is reported before a missing bucket. -/
def list (s : Store) (r : ListQuery) : Result ListPage := do
  let marker ←
    match r.token with
    | none => .ok none
    | some token => (Token.decode token).map some
  match s.bucket? r.bucket with
  | none => .error (.notFound r.bucket "")
  | some b => .ok (Listing.page b r.listed r.delimiter marker (s.effectiveLimit r.maxKeys))

end Store

end BucketFs
