import BucketFs.Bytes.Hex
import BucketFs.Json.Value
import BucketFs.Text.Number

/-!
# Reading JSON

`parse?` reads one value between blanks and refuses everything that is not JSON.  Strings are read
as a list of units, so that a surrogate without its partner makes the text void and not the value.
-/

namespace BucketFs.Json

open BucketFs.Text BucketFs.Bytes

/-- The white space between tokens. -/
def isGap (c : Char) : Bool := c == ' ' || c == '\n' || c == '\t' || c == '\r'

/-- The text from the next token on. -/
def skipGaps (cs : List Char) : List Char := cs.dropWhile isGap

/-- The value of four hexadecimal digits. -/
def hexUnit? (a b c d : Char) : Option Nat :=
  match Hex.value? a, Hex.value? b, Hex.value? c, Hex.value? d with
  | some w, some x, some y, some z => some (4096 * w + 256 * x + 16 * y + z)
  | _, _, _, _ => none

/-- The character of a short escape. -/
def shortEscape? (c : Char) : Option Char :=
  if c = '"' ∨ c = '\\' ∨ c = '/' then some c
  else if c = 'b' then some '\x08'
  else if c = 'f' then some '\x0c'
  else if c = 'n' then some '\n'
  else if c = 'r' then some '\r'
  else if c = 't' then some '\t'
  else none

/-- The body of a string up to its closing quote, as code points of which some may be surrogates
written by an escape, and the rest of the text. -/
def readUnits : List Char → Option (List Nat × List Char)
  | [] => none
  | '"' :: rest => some ([], rest)
  | '\\' :: 'u' :: a :: b :: c :: d :: rest =>
    match hexUnit? a b c d, readUnits rest with
    | some n, some (us, rest) => some (n :: us, rest)
    | _, _ => none
  | '\\' :: e :: rest =>
    match shortEscape? e, readUnits rest with
    | some c, some (us, rest) => some (c.toNat :: us, rest)
    | _, _ => none
  | c :: rest =>
    if c.toNat < 32 ∨ c = '\\' then none
    else (readUnits rest).map fun p => (c.toNat :: p.1, p.2)

/-- The characters of a list of code points; surrogates must come in pairs. -/
def charsOfUnits : List Nat → Option (List Char)
  | [] => some []
  | [n] => if 0xd800 ≤ n ∧ n < 0xe000 then none else some [Char.ofNat n]
  | n :: m :: rest =>
    if 0xd800 ≤ n ∧ n < 0xdc00 then
      if 0xdc00 ≤ m ∧ m < 0xe000 then
        (charsOfUnits rest).map (Char.ofNat (0x10000 + (n - 0xd800) * 0x400 + (m - 0xdc00)) :: ·)
      else none
    else if 0xdc00 ≤ n ∧ n < 0xe000 then none
    else (charsOfUnits (m :: rest)).map (Char.ofNat n :: ·)

/-- A string after its opening quote. -/
def readText (cs : List Char) : Option (Option String × List Char) :=
  (readUnits cs).map fun p => ((charsOfUnits p.1).map String.ofList, p.2)

/-- One or more digits, which are passed over. -/
def skipDigits (cs : List Char) : Option (List Char) :=
  match cs with
  | c :: _ => if isDigit c then some (cs.dropWhile isDigit) else none
  | [] => none

/-- An optional fraction and an optional exponent; whether either stands there, and the rest. -/
def readTail (cs : List Char) : Option (Bool × List Char) := do
  let (dotted, cs) ←
    match cs with
    | '.' :: rest => (skipDigits rest).map (true, ·)
    | _ => some (false, cs)
  match cs with
  | 'e' :: '+' :: rest | 'E' :: '+' :: rest | 'e' :: '-' :: rest | 'E' :: '-' :: rest
  | 'e' :: rest | 'E' :: rest => (skipDigits rest).map (true, ·)
  | _ => some (dotted, cs)

/-- A number.  Zeros in front of other digits are refused. -/
def readNumber (cs : List Char) : Option (Value × List Char) :=
  let (negative, cs) :=
    match cs with
    | '-' :: rest => (true, rest)
    | _ => (false, cs)
  let ds := cs.takeWhile isDigit
  if ds = [] ∨ (ds.head? = some '0' ∧ ds.length > 1) then none
  else do
    let (inexact, rest) ← readTail (cs.drop ds.length)
    let n := ofDigits ds
    let integer : Option Int :=
      if inexact ∨ (negative ∧ n = 0) then none else some (if negative then -n else n)
    some (.number integer, rest)

mutual

/-- A value that starts at the next token; `fuel` bounds the nesting and the lengths. -/
def readValue : Nat → List Char → Option (Value × List Char)
  | 0, _ => none
  | fuel + 1, cs =>
    match skipGaps cs with
    | '"' :: rest => (readText rest).map fun p => (.text p.1, p.2)
    | '[' :: rest =>
      match skipGaps rest with
      | ']' :: rest => some (.array [], rest)
      | rest => (readItems fuel rest).map fun p => (.array p.1, p.2)
    | '\x7b' :: rest =>
      match skipGaps rest with
      | '\x7d' :: rest => some (.object [], rest)
      | rest => (readMembers fuel rest).map fun p => (.object p.1, p.2)
    | 't' :: 'r' :: 'u' :: 'e' :: rest => some (.bool true, rest)
    | 'f' :: 'a' :: 'l' :: 's' :: 'e' :: rest => some (.bool false, rest)
    | 'n' :: 'u' :: 'l' :: 'l' :: rest => some (.null, rest)
    | rest => readNumber rest

/-- The items of an array up to its closing bracket, at least one. -/
def readItems : Nat → List Char → Option (List Value × List Char)
  | 0, _ => none
  | fuel + 1, cs => do
    let (v, rest) ← readValue fuel cs
    match skipGaps rest with
    | ',' :: rest => (readItems fuel rest).map fun p => (v :: p.1, p.2)
    | ']' :: rest => some ([v], rest)
    | _ => none

/-- The members of an object up to its closing brace, at least one. -/
def readMembers : Nat → List Char → Option (List (Option String × Value) × List Char)
  | 0, _ => none
  | fuel + 1, cs => do
    let rest ←
      match skipGaps cs with
      | '"' :: rest => some rest
      | _ => none
    let (key, rest) ← readText rest
    let rest ←
      match skipGaps rest with
      | ':' :: rest => some rest
      | _ => none
    let (v, rest) ← readValue fuel rest
    match skipGaps rest with
    | ',' :: rest => (readMembers fuel rest).map fun p => ((key, v) :: p.1, p.2)
    | '\x7d' :: rest => some ([(key, v)], rest)
    | _ => none

end

/-- The value that a whole text writes. -/
def parse? (s : String) : Option Value := do
  let cs := s.toList
  let (v, rest) ← readValue (2 * cs.length + 2) cs
  if skipGaps rest = [] then some v else none

end BucketFs.Json
