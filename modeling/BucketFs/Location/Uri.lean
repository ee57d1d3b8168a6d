import BucketFs.Error
import BucketFs.Text.Percent
import BucketFs.Text.Separated

/-!
# URIs of filesystems and objects

`s3://host/bucket/key` names an object of the endpoint `host`; an empty host stands for the
default endpoint.  The path of a URI is percent-encoded, its host is not.
-/

namespace BucketFs

open BucketFs.Text

/-- The only scheme. -/
def scheme : String := "s3"

/-- A host and a decoded absolute path. -/
structure Uri where
  host : String
  path : String
  deriving DecidableEq, Repr

namespace Uri

/-- The host and the encoded path of what follows the authority mark; a missing path is `/`. -/
def splitAuthority (rest : String) : String × String :=
  let host := rest.toList.takeWhile (· ≠ separator)
  let path := rest.toList.dropWhile (· ≠ separator)
  (String.ofList host, if path = [] then slash else String.ofList path)

/-- Reads a URI: a scheme in either case, the authority mark, a host and an encoded path. -/
def parse (uri : String) : Result Uri := do
  let (name, rest) ←
    match cut? ':' uri with
    | some parts => .ok parts
    | none => .error (.invalidArgument (.uriWithoutScheme uri))
  if lowerAscii name ≠ scheme then
    .error (.invalidArgument (.foreignScheme name))
  match dropPrefix? "//" rest with
  | none => .error (.invalidArgument (.uriWithoutAuthority uri))
  | some rest =>
    let (host, encoded) := splitAuthority rest
    match Percent.decode? encoded with
    | none => .error (.invalidArgument (.undecodableUri uri))
    | some path => .ok ⟨host, path⟩

/-- The first name of the path. -/
def bucket? (u : Uri) : Option String := (names u.path).head?

/-- What follows the bucket and its separator, verbatim. -/
def key (u : Uri) : String :=
  match cut? separator (trimStart separator u.path) with
  | some (_, key) => key
  | none => ""

/-- The text of a URI, with its path decoded. -/
def render (u : Uri) : String := scheme ++ "://" ++ u.host ++ u.path

end Uri

end BucketFs
