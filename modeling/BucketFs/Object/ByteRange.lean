/-!
# Byte ranges

A range names the positions from its start up to but not including its stop.  Positions are
64-bit words.
-/

namespace BucketFs

/-- The number of positions: `2 ^ 64`. -/
def positionLimit : Nat := 18446744073709551616

/-- The positions `start, …, stop - 1` of an object. -/
structure ByteRange where
  start : Nat
  stop : Nat
  deriving DecidableEq, Repr

namespace ByteRange

/-- The text of a range in messages. -/
def render (r : ByteRange) : String := s!"{r.start}..{r.stop}"

end ByteRange

end BucketFs
