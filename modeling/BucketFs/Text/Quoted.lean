import BucketFs.Text.Unprintable

/-!
# Quoted text

Messages quote a text between double quotes.  A quote and a backslash are escaped by a backslash,
the usual controls by their letters, and every other character without a glyph by its number.
-/

namespace BucketFs.Text

/-- The written form of one character inside quotes. -/
def quotedChar (c : Char) : List Char :=
  if c = '"' then ['\\', '"']
  else if c = '\\' then ['\\', '\\']
  else if c = '\n' then ['\\', 'n']
  else if c = '\r' then ['\\', 'r']
  else if c = '\t' then ['\\', 't']
  else if c = '\x00' then ['\\', '0']
  else if isUnprintable c then ['\\', 'u', '\x7b'] ++ Nat.toDigits 16 c.toNat ++ ['\x7d']
  else [c]

/-- The quoted form of a text. -/
def quoted (s : String) : String :=
  String.ofList ('"' :: (s.toList.flatMap quotedChar ++ ['"']))

/-- The quoted forms of several texts, as a bracketed list. -/
def quotedList (ts : List String) : String := "[" ++ ", ".intercalate (ts.map quoted) ++ "]"

end BucketFs.Text
