import BucketFs.Remote.Host

/-!
# Web addresses

A web address has a scheme, an authority and a path.  The authority is kept as it is written, with
user information in front of the host and the number of a socket after it.

* `WebAddress.parse?` reads an address and drops its fragment.
* `WebAddress.endpoint?` reads one at which a service can be reached: it has no query, and its host
  and its socket exist.
-/

namespace BucketFs.Remote

open BucketFs.Text

/-- A web address. -/
structure WebAddress where
  scheme : String
  authority : String
  path : String
  query : Option String := none
  deriving DecidableEq, Repr

/-! ## Authorities -/

/-- What the characters of an authority have shown so far: colons since the user information or
the brackets, brackets, and a percent sign since the user information or the brackets. -/
structure AuthoritySigns where
  colons : Nat := 0
  opened : Bool := false
  closed : Bool := false
  percent : Bool := false
  deriving DecidableEq, Repr

namespace AuthoritySigns

/-- The characters without a meaning of their own that an authority may have besides letters and
digits. -/
def plain : List Char := "!$&'()*+,-.;=_~".toList

/-- Takes one character in. -/
def note? (a : AuthoritySigns) (c : Char) : Option AuthoritySigns :=
  if c = ':' then if a.colons < 8 then some { a with colons := a.colons + 1 } else none
  else if c = '[' then if a.percent || a.opened then none else some { a with opened := true }
  else if c = ']' then
    if !a.opened || a.closed then none
    else some { a with closed := true, colons := 0, percent := false }
  else if c = '@' then some { a with colons := 0, percent := false }
  else if c = '%' then some { a with percent := true }
  else if c.isAlphanum || c ∈ plain then some a
  else none

/-- Whether the signs at the end are those of an authority. -/
def isComplete (a : AuthoritySigns) : Bool := a.opened == a.closed && a.colons ≤ 1 && !a.percent

end AuthoritySigns

/-- Whether a text may be an authority: at most one pair of brackets, one colon and no percent sign
after the user information, and something after that. -/
def isAuthority (cs : List Char) : Bool :=
  cs ≠ [] && cs.getLast? ≠ some '@'
    && (cs.foldlM AuthoritySigns.note? {}).any AuthoritySigns.isComplete

/-- What follows the user information of an authority. -/
def afterUser (authority : List Char) : List Char :=
  (authority.reverse.takeWhile (· ≠ '@')).reverse

/-- The host of what follows the user information, and what follows the host. -/
def splitHost (cs : List Char) : List Char × List Char :=
  let bracketed := (upThrough? [']'] cs).getD []
  let rest := cs.drop bracketed.length
  (bracketed ++ rest.takeWhile (· ≠ ':'), rest.dropWhile (· ≠ ':'))

/-- Whether a text is the number of a socket; it may be left out. -/
def isSocket (cs : List Char) : Bool := cs.all isDigit && ofDigits cs < 65536

/-- The form of the host of an authority, unless the host or the socket does not exist. -/
def authorityForm? (authority : String) : Option HostForm :=
  let (host, socket) := splitHost (afterUser authority.toList)
  if isSocket (socket.drop 1) then Host.form? host else none

/-! ## Addresses -/

namespace WebAddress

/-- Whether a character may stand in a path. -/
def isPathChar (c : Char) : Bool := 0x20 < c.toNat && c ∉ ['<', '>', '\x60']

/-- Whether a character may stand in a query. -/
def isQueryChar (c : Char) : Bool := 0x20 < c.toNat && c ∉ ['"', '<', '>']

/-- What a text has from its path on: the path, a slash where it is empty, and the query. -/
def splitPath (cs : List Char) : List Char × Option (List Char) :=
  let cs := cs.takeWhile (· ≠ '#')
  let path := cs.takeWhile (· ≠ '?')
  (if path = [] then ['/'] else path, (cs.dropWhile (· ≠ '?')).tail?)

/-- Reads an address.  The scheme may be written in either case. -/
def parse? (text : String) : Option WebAddress := do
  let (name, rest) ← cutAt? "://".toList text.toList
  let scheme := lowerAscii (String.ofList name)
  let authority := rest.takeWhile (· ∉ ['/', '?', '#'])
  let (path, query) := splitPath (rest.dropWhile (· ∉ ['/', '?', '#']))
  if (scheme = "http" ∨ scheme = "https") ∧ isAuthority authority ∧ path.all isPathChar
      ∧ query.all (·.all isQueryChar) then
    some ⟨scheme, String.ofList authority, String.ofList path, query.map String.ofList⟩
  else none

/-- The scheme and the authority. -/
def origin (a : WebAddress) : String := a.scheme ++ "://" ++ a.authority

/-- Whether the host is an address and not a name. -/
def isNumeric (a : WebAddress) : Bool := authorityForm? a.authority = some .address

/-- Whether a text has a scheme. -/
def hasScheme (text : String) : Bool := (upThrough? "://".toList text.toList).isSome

/-- Reads the address of a service; without a scheme it is served securely. -/
def endpoint? (text : String) : Option WebAddress := do
  let a ← parse? (if hasScheme text then text else "https://" ++ text)
  if a.query = none ∧ (authorityForm? a.authority).isSome then some a else none

end WebAddress

end BucketFs.Remote
