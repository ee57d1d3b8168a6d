/-!
# Separated text

Names are written one after the other with `/` between them.  This module cuts texts at a
separator, takes prefixes off and trims, always on the list of characters.
-/

namespace BucketFs.Text

/-- The character between two names, and the delimiter of a directory listing. -/
def separator : Char := '/'

/-- The separator as a text. -/
def slash : String := "/"

/-- The pieces between the occurrences of `sep`, empty pieces included. -/
def pieces (sep : Char) : List Char → List (List Char)
  | [] => [[]]
  | c :: rest =>
    if c = sep then [] :: pieces sep rest
    else
      match pieces sep rest with
      | [] => [[c]]
      | p :: ps => (c :: p) :: ps

/-- The non-empty names of a separated text. -/
def names (s : String) : List String :=
  ((pieces separator s.toList).filter (· ≠ [])).map String.ofList

/-- The names with a separator between neighbours. -/
def joined (ns : List String) : String := slash.intercalate ns

/-- Whether `p` is an initial part of `s`. -/
def hasPrefix (p s : String) : Bool := p.toList.isPrefixOf s.toList

/-- What follows the initial part `p` of `s`. -/
def dropPrefix? (p s : String) : Option String :=
  if hasPrefix p s then some (String.ofList (s.toList.drop p.length)) else none

/-- Whether the last character of `s` is the separator. -/
def endsInSeparator (s : String) : Bool := s.toList.getLast? == some separator

/-- Whether the first character of `s` is the separator. -/
def startsWithSeparator (s : String) : Bool := s.toList.head? == some separator

/-- The text without the occurrences of `c` at its start. -/
def trimStart (c : Char) (s : String) : String := String.ofList (s.toList.dropWhile (· == c))

/-- The text without the occurrences of `c` at its end. -/
def trimEnd (c : Char) (s : String) : String :=
  String.ofList (s.toList.reverse.dropWhile (· == c)).reverse

/-- The parts before and after the first occurrence of `c`. -/
def cut? (c : Char) (s : String) : Option (String × String) :=
  match s.toList.dropWhile (· ≠ c) with
  | [] => none
  | _ :: after => some (String.ofList (s.toList.takeWhile (· ≠ c)), String.ofList after)

/-- The shortest initial part of `s` that ends in an occurrence of the pattern `d`. -/
def upThrough? (d : List Char) : List Char → Option (List Char)
  | [] => if d = [] then some [] else none
  | c :: rest => if d.isPrefixOf (c :: rest) then some d else (upThrough? d rest).map (c :: ·)

/-- What stands before and after the first occurrence of the pattern `d`. -/
def cutAt? (d s : List Char) : Option (List Char × List Char) :=
  (upThrough? d s).map fun p => (p.take (p.length - d.length), s.drop p.length)

/-- Whether all characters of a text are of ASCII. -/
def isAscii (s : String) : Bool := s.toList.all fun c => c.toNat < 0x80

/-- The text with its ASCII capitals in lower case. -/
def lowerAscii (s : String) : String := String.ofList (s.toList.map Char.toLower)

end BucketFs.Text
