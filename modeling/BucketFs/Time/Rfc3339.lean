import BucketFs.Text.Blank
import BucketFs.Time.Timestamp

/-!
# Reading instants

The reader accepts RFC 3339 and is lenient about it: numbers may be shorter than their field, white
space may stand before a field and around its separators, a signed year may have any number of
digits, a fraction may have more digits than count, and the offset may be `UTC`.
-/

namespace BucketFs.Time.Rfc3339

open BucketFs.Text

/-- Between one and `width` digits. -/
def digits (width : Nat) (cs : List Char) : Option (Nat × List Char) :=
  let ds := (cs.take width).takeWhile isDigit
  if ds = [] then none else some (ofDigits ds, cs.drop ds.length)

/-- The limit below which a year is read: `2 ^ 63`. -/
def yearLimit : Nat := 9223372036854775808

/-- One or more digits that write a number below that limit. -/
def manyDigits (cs : List Char) : Option (Nat × List Char) :=
  let ds := cs.takeWhile isDigit
  if ds = [] ∨ ofDigits ds ≥ yearLimit then none else some (ofDigits ds, cs.drop ds.length)

/-- A year: four digits at most without a sign, any number with one. -/
def year (cs : List Char) : Option (Int × List Char) :=
  match skipBlank cs with
  | '-' :: rest => (manyDigits rest).map fun p => (-(p.1 : Int), p.2)
  | '+' :: rest => (manyDigits rest).map fun p => ((p.1 : Int), p.2)
  | rest => (digits 4 rest).map fun p => ((p.1 : Int), p.2)

/-- A field of one or two digits within bounds. -/
def field (low high : Nat) (cs : List Char) : Option (Nat × List Char) := do
  let (n, rest) ← digits 2 (skipBlank cs)
  if low ≤ n ∧ n ≤ high then some (n, rest) else none

/-- A separator after optional white space. -/
def mark (c : Char) (cs : List Char) : Option (List Char) :=
  match skipBlank cs with
  | d :: rest => if d = c then some rest else none
  | [] => none

/-- An optional fraction; digits after the ninth are passed over. -/
def fraction (cs : List Char) : Option (Nat × List Char) :=
  match cs with
  | '.' :: rest =>
    let ds := (rest.take 9).takeWhile isDigit
    if ds = [] then none
    else
      some (ofDigits (ds ++ List.replicate (9 - ds.length) '0'),
        (rest.drop ds.length).dropWhile isDigit)
  | _ => some (0, cs)

/-- The hours and minutes after the sign of an offset, in seconds. -/
def offsetDigits (cs : List Char) : Option (Nat × List Char) :=
  match cs with
  | h₁ :: h₂ :: rest =>
    if isDigit h₁ && isDigit h₂ then
      match rest.dropWhile (fun c => c == ':' || isBlank c) with
      | m₁ :: m₂ :: rest =>
        if isDigit m₁ && isDigit m₂ && m₁.toNat < 54 then
          some (3600 * ofDigits [h₁, h₂] + 60 * ofDigits [m₁, m₂], rest)
        else none
      | _ => none
    else none
  | _ => none

/-- The offset from universal time in seconds, east positive. -/
def offset (cs : List Char) : Option (Int × List Char) :=
  match cs with
  | [] => none
  | c :: rest =>
    if (cs.take 3).map Char.toLower = ['u', 't', 'c'] then some (0, cs.drop 3)
    else if c = 'Z' ∨ c = 'z' then some (0, rest)
    else if c = '+' then (offsetDigits rest).map fun p => ((p.1 : Int), p.2)
    else if c = '-' ∨ c = '\u2212' then (offsetDigits rest).map fun p => (-(p.1 : Int), p.2)
    else none

/-- Reads a date, one of `T`, `t` and a blank, a time of day and an offset. -/
def parse? (s : String) : Option Timestamp := do
  let (y, cs) ← year s.toList
  let cs ← mark '-' cs
  let (month, cs) ← field 1 12 cs
  let cs ← mark '-' cs
  let (day, cs) ← field 1 31 cs
  let cs ←
    match cs with
    | 'T' :: rest | 't' :: rest | ' ' :: rest => some rest
    | _ => none
  let (hour, cs) ← field 0 23 cs
  let cs ← mark ':' cs
  let (minute, cs) ← field 0 59 cs
  let cs ← mark ':' cs
  let (second, cs) ← field 0 60 cs
  let (nanos, cs) ← fraction cs
  let (east, cs) ← offset (skipBlank cs)
  let date : Date := ⟨y, month, day⟩
  if skipBlank cs ≠ [] ∨ !date.exists? ∨ y < Timestamp.firstYear ∨ Timestamp.lastYear < y
      ∨ east.natAbs ≥ 86400 then
    none
  else
    let (second, nanos) := if second = 60 then (59, nanos + 1000000000) else (second, nanos)
    let seconds := daysOf date * 86400 + (3600 * hour + 60 * minute + second : Nat) - east
    if Timestamp.firstSecond ≤ seconds ∧ seconds < Timestamp.endSecond then
      some ⟨seconds, nanos⟩
    else none

end BucketFs.Time.Rfc3339
