import BucketFs.Bytes.Hex
import BucketFs.Text.Number
import BucketFs.Text.Punycode
import BucketFs.Text.Separated

/-!
# Hosts

A host is an address or a name.  An address has four bytes, written as up to four numbers of which
the last one fills what the others leave, or eight groups of two bytes in brackets.  What ends in a
number has to be an address; all else is a name, whose labels have to be readable.

* `Host.form?` tells the two forms apart and refuses what is neither.
* `Host.isLabel` and `Host.isName` are the labels that a service takes as names of its own.
-/

namespace BucketFs.Remote

open BucketFs.Bytes BucketFs.Text

/-- How a host is written. -/
inductive HostForm where
  | address
  | name
  deriving DecidableEq, Repr

namespace Host

/-! ## Addresses of four bytes -/

/-- The number that digits of a base write; no digits write zero. -/
def number? (base : Nat) (ds : List Char) : Option Nat :=
  ds.foldlM (fun n c => (Hex.value? c).bind fun d => if d < base then some (base * n + d) else none)
    0

/-- The number of one part of an address: hexadecimal after `0x`, octal after another zero, else
decimal. -/
def part? : List Char → Option Nat
  | [] => none
  | '0' :: 'x' :: ds => number? 16 ds
  | '0' :: 'X' :: ds => number? 16 ds
  | '0' :: d :: ds => number? 8 (d :: ds)
  | ds => number? 10 ds

/-- The labels of a host; a dot at the end closes the last one. -/
def labels (host : List Char) : List (List Char) :=
  let ls := pieces '.' host
  if ls.getLast? = some [] then ls.dropLast else ls

/-- Whether the last label of a host is a number or made of digits. -/
def endsInNumber (host : List Char) : Bool :=
  (labels host).getLast?.any fun l => (l ≠ [] && l.all isDigit) || (part? l).isSome

/-- Whether numbers make up four bytes: one byte each, the last one all bytes that are left. -/
def fillFourBytes (ns : List Nat) : Bool :=
  ns.length ≤ 4 && ns.dropLast.all (· < 256)
    && ns.getLast?.any (· < 1 <<< (8 * (5 - ns.length)))

/-- Whether a host is an address of four bytes. -/
def isShortAddress (host : List Char) : Bool := ((labels host).mapM part?).any fillFourBytes

/-! ## Addresses of eight groups -/

/-- Whether a text is a group: one to four hexadecimal digits. -/
def isGroup (cs : List Char) : Bool :=
  1 ≤ cs.length && cs.length ≤ 4 && cs.all fun c => (Hex.value? c).isSome

/-- Whether a text is a byte in decimal without a needless zero in front. -/
def isByte (cs : List Char) : Bool :=
  cs ≠ [] && cs.all isDigit && (cs = ['0'] || cs.head? ≠ some '0') && ofDigits cs < 256

/-- Whether a text is four bytes in decimal, which stand for the last two groups. -/
def isDotted (cs : List Char) : Bool :=
  let ps := pieces '.' cs
  ps.length = 4 && ps.all isByte

/-- The number of groups in a text without a gap. -/
def groupCount? (cs : List Char) : Option Nat :=
  if cs = [] then some 0
  else
    let ps := pieces ':' cs
    if ps.all isGroup then some ps.length else none

/-- The number of groups in the last part of an address, where bytes may stand for two. -/
def lastGroupCount? (cs : List Char) : Option Nat :=
  groupCount? cs <|>
    let ps := pieces ':' cs
    if ps.dropLast.all isGroup && ps.getLast?.any isDotted then some (ps.length + 1) else none

/-- Whether a text is an address of eight groups, of which one gap may leave out some. -/
def isLongAddress (cs : List Char) : Bool :=
  match cutAt? [':', ':'] cs with
  | none => lastGroupCount? cs = some 8
  | some (before, after) =>
    (groupCount? before).any fun m => (lastGroupCount? after).any fun n => m + n < 8

/-! ## Names -/

/-- Whether a label can be read: a coded one, marked by its first four characters, has to write at
least one character that is neither ASCII nor a control character. -/
def isReadable (label : List Char) : Bool :=
  match dropPrefix? "xn--" (lowerAscii (String.ofList label)) with
  | none => true
  | some coded =>
    (Punycode.decode? coded.toList).any fun cs =>
      cs.any (0x80 ≤ ·.toNat) && cs.all fun c => c.toNat < 0x80 || 0xa0 ≤ c.toNat

/-- The form of a host, unless it has none. -/
def form? (host : List Char) : Option HostForm :=
  match host with
  | [] => none
  | '[' :: rest =>
    if rest.getLast? = some ']' && isLongAddress rest.dropLast then some .address else none
  | _ =>
    if '[' ∈ host ∨ ']' ∈ host ∨ ¬ (pieces '.' host).all isReadable then none
    else if !endsInNumber host then some .name
    else if isShortAddress host then some .address
    else none

/-- Whether a text is a label: 1 to 63 ASCII letters, digits and hyphens, and no hyphen first. -/
def isLabel (cs : List Char) : Bool :=
  1 ≤ cs.length && cs.length ≤ 63 && cs.all (fun c => c.isAlphanum || c = '-')
    && cs.head? ≠ some '-'

/-- Whether a text is a sequence of labels with dots between them. -/
def isName (cs : List Char) : Bool := (pieces '.' cs).all isLabel

end Host

end BucketFs.Remote
