import BucketFs.Registry.FileSystem

/-!
# Directory streams

A stream yields the children of a directory prefix one after the other.  It holds the children of
one page; the next page is asked for only when they are used up.

* `ChildStream.request` and `ChildStream.receive` are one exchange with the store.
* `ChildStream.hasMore` and `ChildStream.next` are what a consumer calls; both take the
  number of pages they may ask for.
* `ChildStream.drain` yields all that is left.
-/

namespace BucketFs

open BucketFs.Text

/-- A sequence of children that is read once. -/
structure ChildStream where
  fs : FsId
  access : Access
  bucket : String
  listed : String
  maxKeys : Nat
  /-- Children of the last page that have not been yielded. -/
  buffer : List Path
  /-- The names of all children so far. -/
  seen : List String
  token : Option String
  exhausted : Bool
  deriving DecidableEq, Repr

namespace ChildStream

/-- A stream over a bucket (`/` or nothing) or over a prefix that ends in the separator. -/
def new (fs : FileSystem) (bucket listed : String) : Result ChildStream := do
  fs.checkOpen
  let listed := if listed = slash then "" else listed
  if listed ≠ "" ∧ !endsInSeparator listed then
    .error (.invalidArgument (.unterminatedPrefix listed))
  .ok ⟨fs.id, fs.access, bucket, listed, fs.settings.maxKeys, [], [], none, false⟩

/-- The request for the next page. -/
def request (s : ChildStream) : ListQuery :=
  { bucket := s.bucket, listed := s.listed, delimiter := some slash, token := s.token,
    maxKeys := s.maxKeys }

/-- The entries of a page other than the prefix itself, in ascending order. -/
def childEntries (s : ChildStream) (page : ListPage) : List String :=
  ((page.commonPrefixes ++ page.keys).filter fun e => e ≠ s.listed).mergeSort
    fun a b => decide (a ≤ b)

/-- The name that an entry adds: what follows the prefix, without separators at its end. -/
def childName? (s : ChildStream) (entry : String) : Option String :=
  match dropPrefix? s.listed entry with
  | none => none
  | some rest =>
    let name := trimEnd separator rest
    if name = "" then none else some name

/-- Buffers one child, unless its name was there before. -/
def addChild (s : ChildStream) (entry : String) : ChildStream :=
  match s.childName? entry with
  | none => s
  | some name =>
    if name ∈ s.seen then s
    else
      { s with
        seen := name :: s.seen
        buffer := s.buffer ++ [.ofBucketKey s.fs s.bucket entry] }

/-- Takes in a page that passed its check. -/
def accept (s : ChildStream) (page : ListPage) : ChildStream :=
  let s := (s.childEntries page).foldl addChild s
  if page.truncated then { s with token := page.nextToken } else { s with exhausted := true }

/-- Takes in the answer to a request.  The token is spent by asking, whatever the answer. -/
def receive (s : ChildStream) (reply : Result ListPage) : Result Unit × ChildStream :=
  let s := { s with token := none }
  match reply with
  | .error e => (.error e, s)
  | .ok page =>
    match page.check with
    | .error e => (.error e, s)
    | .ok _ => (.ok (), s.accept page)

/-- Whether another child is there; asks for at most `rounds` pages and consumes nothing. -/
def hasMore : Nat → ChildStream → Program (Result Bool × ChildStream)
  | rounds, s =>
    if s.buffer ≠ [] then .done (.ok true, s)
    else if s.exhausted then .done (.ok false, s)
    else
      match rounds with
      | 0 => .done (.error (.internal .unfinished), s)
      | rounds + 1 =>
        .call (.store s.access (.list s.request)) fun reply =>
          match s.receive reply with
          | (.error e, s) => .done (.error e, s)
          | (.ok _, s) => hasMore rounds s

/-- The next child, or nothing at the end. -/
def next (rounds : Nat) (s : ChildStream) : Program (Result (Option Path) × ChildStream) :=
  (hasMore rounds s).bind fun
    | (.error e, s) => .done (.error e, s)
    | (.ok _, s) => .done (.ok s.buffer.head?, { s with buffer := s.buffer.tail })

/-- Removing through a stream is not offered. -/
def remove (_ : ChildStream) : Result Unit := .error (.unsupported .removeFromStream)

/-- All children that are left up to the end or the first failure, and that failure. -/
def drain : Nat → ChildStream → Program (List Path × Option FsError)
  | rounds, s =>
    if s.exhausted then .done (s.buffer, none)
    else
      match rounds with
      | 0 => .done (s.buffer, some (.internal .unfinished))
      | rounds + 1 =>
        .call (.store s.access (.list s.request)) fun reply =>
          match ({ s with buffer := [] } : ChildStream).receive reply with
          | (.error e, _) => .done (s.buffer, some e)
          | (.ok _, next) => (drain rounds next).bind fun (paths, failure) =>
              .done (s.buffer ++ paths, failure)

/-- All children that are left. -/
def collect (rounds : Nat) (s : ChildStream) : Action (List Path) :=
  ExceptT.mk <| (drain rounds s).bind fun
    | (paths, none) => .done (.ok paths)
    | (_, some e) => .done (.error e)

end ChildStream

end BucketFs
