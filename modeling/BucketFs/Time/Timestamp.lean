import BucketFs.Text.Number
import BucketFs.Time.Calendar

/-!
# Instants

An instant is a count of seconds since the epoch and of nanoseconds within the second.  A leap
second is the last second of its minute with a thousand million nanoseconds more; it prints as
second 60.
-/

namespace BucketFs

/-- An instant of universal time. -/
structure Timestamp where
  seconds : Int
  nanos : Nat
  deriving DecidableEq, Repr

namespace Timestamp

open Time Text

/-- The instant that stands for an unknown time. -/
def epoch : Timestamp := ⟨0, 0⟩

/-- The first year that an instant can fall into. -/
def firstYear : Int := -262143

/-- The last year that an instant can fall into. -/
def lastYear : Int := 262142

/-- The first second of the representable years. -/
def firstSecond : Int := daysOf ⟨firstYear, 1, 1⟩ * 86400

/-- The first second after the representable years. -/
def endSecond : Int := daysOf ⟨lastYear + 1, 1, 1⟩ * 86400

/-- The instant of the given counts, if its year is representable and its nanoseconds fit the
second; only the last second of a minute can be a leap second. -/
def ofCounts? (seconds : Int) (nanos : Nat) : Option Timestamp :=
  if firstSecond ≤ seconds ∧ seconds < endSecond ∧ nanos < 2000000000 ∧
      (nanos < 1000000000 ∨ seconds % 60 = 59) then
    some ⟨seconds, nanos⟩
  else none

/-- A year of four digits, with a sign outside the years 0 to 9999. -/
def renderYear (year : Int) : String :=
  if 0 ≤ year ∧ year ≤ 9999 then zeroPadded 4 year.toNat
  else (if year < 0 then "-" else "+") ++ zeroPadded 4 year.natAbs

/-- The fraction of a second in as few groups of three digits as hold it. -/
def renderFraction (nanos : Nat) : String :=
  if nanos = 0 then ""
  else if nanos % 1000000 = 0 then "." ++ zeroPadded 3 (nanos / 1000000)
  else if nanos % 1000 = 0 then "." ++ zeroPadded 6 (nanos / 1000)
  else "." ++ zeroPadded 9 nanos

/-- The RFC 3339 text of an instant, in universal time. -/
def render (t : Timestamp) : String :=
  let date := dateOf (t.seconds.fdiv 86400)
  let ofDay := (t.seconds % 86400).toNat
  let leap := t.nanos / 1000000000
  renderYear date.year ++ "-" ++ zeroPadded 2 date.month ++ "-" ++ zeroPadded 2 date.day ++ "T"
    ++ zeroPadded 2 (ofDay / 3600) ++ ":" ++ zeroPadded 2 (ofDay / 60 % 60) ++ ":"
    ++ zeroPadded 2 (ofDay % 60 + leap) ++ renderFraction (t.nanos % 1000000000) ++ "Z"

end Timestamp

end BucketFs
