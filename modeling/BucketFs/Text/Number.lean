/-!
# Decimal numbers in texts

Settings are unsigned words written in decimal: an optional plus sign and at least one ASCII digit.
Output pads numbers with zeros to a width.
-/

namespace BucketFs.Text

/-- Whether a character is one of the ten ASCII digits. -/
def isDigit (c : Char) : Bool := 48 ≤ c.toNat && c.toNat ≤ 57

/-- The number that a list of digits writes. -/
def ofDigits (ds : List Char) : Nat := ds.foldl (fun n c => 10 * n + (c.toNat - 48)) 0

/-- The digits after an optional plus sign. -/
def withoutPlus (cs : List Char) : List Char :=
  match cs with
  | '+' :: rest => rest
  | _ => cs

/-- The number of values of a machine word: `2 ^ 64`. -/
def wordLimit : Nat := 18446744073709551616

/-- Reads a word; empty texts, other characters and numbers from `2 ^ 64` on are refused. -/
def readWord? (s : String) : Option Nat :=
  let ds := withoutPlus s.toList
  if ds ≠ [] ∧ ds.all isDigit ∧ ofDigits ds < wordLimit then some (ofDigits ds) else none

/-- The decimal digits of `n`, with zeros in front up to `width` characters. -/
def zeroPadded (width n : Nat) : String :=
  let ds := Nat.toDigits 10 n
  String.ofList (List.replicate (width - ds.length) '0' ++ ds)

end BucketFs.Text
