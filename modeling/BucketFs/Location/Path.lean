import BucketFs.Error
import BucketFs.Location.FsId
import BucketFs.Text.Percent
import BucketFs.Text.Separated

/-!
# Paths

A path is a sequence of names with a flag that says whether it starts at the root.  The first name
of an absolute path is a bucket and the others are joined to the key of an object.  Everything here
is lexical; no operation asks a store.
-/

namespace BucketFs

open BucketFs.Text

/-- A path of the filesystem `fs`. -/
structure Path where
  fs : FsId
  absolute : Bool
  segments : List String
  deriving DecidableEq, Repr

namespace Path

/-- The name that stands for its directory. -/
def selfName : String := "."

/-- The name that stands for the parent directory. -/
def upName : String := ".."

/-- The names of several texts in order; the first text says whether the path is absolute. -/
def parse (fs : FsId) (first : String) (more : List String) : Path :=
  ⟨fs, startsWithSeparator first, (first :: more).flatMap names⟩

/-- The path of an object; a separator at the end of the key adds no name. -/
def ofBucketKey (fs : FsId) (bucket key : String) : Path :=
  ⟨fs, true, (if bucket = "" then [] else [bucket]) ++ names key⟩

/-- The relative path of the given names on the same filesystem. -/
def relative (p : Path) (segments : List String) : Path := ⟨p.fs, false, segments⟩

/-- Whether this is the relative path without names. -/
def isEmpty (p : Path) : Bool := !p.absolute && p.segments.isEmpty

/-- The bucket of an absolute path below the root. -/
def bucket? (p : Path) : Option String := if p.absolute then p.segments.head? else none

/-- The key: all names after the bucket, or all names of a relative path. -/
def key (p : Path) : String := joined (if p.absolute then p.segments.tail else p.segments)

/-- The text of a path. -/
def render (p : Path) : String := (if p.absolute then slash else "") ++ joined p.segments

/-- The last name as a relative path. -/
def lastName? (p : Path) : Option Path := p.segments.getLast?.map fun n => p.relative [n]

/-- The path without its last name; the root and a relative path of one name have no parent. -/
def parent? (p : Path) : Option Path :=
  if p.segments.length = 0 ∨ (p.segments.length = 1 ∧ !p.absolute) then none
  else some { p with segments := p.segments.dropLast }

/-- The root, for an absolute path. -/
def root? (p : Path) : Option Path := if p.absolute then some { p with segments := [] } else none

/-- The number of names. -/
def depth (p : Path) : Nat := p.segments.length

/-- The names from index `first` up to but not including index `last`. -/
def window (p : Path) (first last : Nat) : Result Path :=
  if first ≥ last ∨ last > p.segments.length then
    .error (.invalidArgument (.window first last p.segments.length))
  else .ok (p.relative ((p.segments.drop first).take (last - first)))

/-- The name at an index; the greatest index has no successor. -/
def nameAt (p : Path) (index : Nat) : Result Path :=
  if index + 1 ≥ positionLimit then .error (.invalidArgument (.nameIndex index))
  else p.window index (index + 1)

/-- Each name as a relative path. -/
def nameList (p : Path) : List Path := p.segments.map fun n => p.relative [n]

/-- Whether `q` is an initial part of `p`: the empty path of the empty path alone, and an absolute
path of absolute paths only. -/
def startsWith (p q : Path) : Bool :=
  if p.fs ≠ q.fs then false
  else if q.isEmpty then p.isEmpty
  else p.absolute == q.absolute && q.segments.isPrefixOf p.segments

/-- Whether `q` is a final part of `p`: an absolute path only of itself, and the empty path of the
empty path alone. -/
def endsWith (p q : Path) : Bool :=
  if p.fs ≠ q.fs then false
  else if q.absolute then p == q
  else if q.segments.isEmpty then p.isEmpty
  else q.segments.isSuffixOf p.segments

/-- One step of normalization on the names kept so far, the latest first. -/
def normalizeStep (kept : List String) (name : String) : List String :=
  if name = selfName then kept
  else if name = upName then kept.tail
  else name :: kept

/-- Drops `.`, and lets `..` take away the name kept before it, if there is one. -/
def normalize (p : Path) : Path :=
  { p with segments := (p.segments.foldl normalizeStep []).reverse }

/-- Appends a relative path; an absolute one takes its place. -/
def resolve (p q : Path) : Path :=
  if q.absolute then q
  else if q.segments.isEmpty then p
  else { p with segments := p.segments ++ q.segments }

/-- Resolves `q` against the parent, and is `q` where there is none. -/
def resolveBeside (p q : Path) : Path :=
  match p.parent? with
  | some parent => parent.resolve q
  | none => q

/-- The number of names that two lists have in common from the start. -/
def commonLength : List String → List String → Nat
  | a :: as, b :: bs => if a = b then commonLength as bs + 1 else 0
  | _, _ => 0

/-- The relative path from `p` to `q`: up once for each name that only `p` has, and down the names
that only `q` has. -/
def relativize (p q : Path) : Result Path :=
  if p.fs ≠ q.fs then .error (.invalidArgument .pathsOfTwoFileSystems)
  else if p.absolute ≠ q.absolute then
    .error (.invalidArgument (.oneAbsolutePath q.render p.render))
  else
    let common := commonLength p.segments q.segments
    .ok (p.relative
      (List.replicate (p.segments.length - common) upName ++ q.segments.drop common))

/-- The path from the root with the same names. -/
def toAbsolute (p : Path) : Path := { p with absolute := true }

/-- The bytes that a URI writes verbatim within a name. -/
def isVerbatim (b : UInt8) : Bool :=
  0x20 < b && b < 0x7f
    && !(b == 0x22 || b == 0x23 || b == 0x25 || b == 0x3c || b == 0x3e || b == 0x3f || b == 0x60
      || b == 0x7b || b == 0x7d)

/-- The URI of a path, given the URI of its filesystem. -/
def uri (p : Path) (fsUri : String) : String :=
  fsUri ++ joined (p.segments.map (Percent.encode isVerbatim))

/-- A description with the endpoint of the filesystem and the quoted names. -/
def describe (p : Path) (endpoint : String) : String :=
  "S3Path \x7b endpoint: " ++ quoted endpoint ++ ", absolute: "
    ++ (if p.absolute then "true" else "false") ++ ", segments: " ++ quotedList p.segments
    ++ " \x7d"

end Path

end BucketFs
