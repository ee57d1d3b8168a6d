import BucketFs.Error
import BucketFs.Settings

/-!
# Part plans

An object larger than the chunk size is cut into consecutive parts of that size, the last of which
holds the rest.  The end of a part is formed before it is cut off at the end of the object, so that
it may be no position although the object has one there; then there is no plan.
-/

namespace BucketFs

/-- How a transfer is split; a chunk size of zero never splits. -/
structure TransferOptions where
  chunkSize : Nat := 8 * 1024 * 1024
  maxConcurrency : Nat := 8
  deriving DecidableEq, Repr

namespace TransferOptions

/-- The options that settings ask for. -/
def ofSettings (c : Settings) : TransferOptions := ⟨c.chunkSize, c.maxConcurrency⟩

/-- Whether an object of the given size is sent in parts. -/
def splits (o : TransferOptions) (size : Nat) : Bool := 0 < o.chunkSize && o.chunkSize < size

end TransferOptions

/-- A part of a transfer: its number, from one, and its place in the object. -/
structure PlannedPart where
  number : Nat
  range : ByteRange
  deriving DecidableEq, Repr

namespace PlannedPart

/-- The number of part numbers, with zero: `2 ^ 32`. -/
def numberLimit : Nat := 4294967296

/-- The quotient rounded up. -/
def ceilDiv (size chunk : Nat) : Nat := if size % chunk = 0 then size / chunk else size / chunk + 1

/-- The length of a part; a part that runs backwards has none. -/
def length (p : PlannedPart) : Result Nat :=
  if p.range.start ≤ p.range.stop then .ok (p.range.stop - p.range.start) else .error .overflow

/-- Whether a part has no bytes. -/
def isEmpty (p : PlannedPart) : Result Bool := p.length.map (· == 0)

/-- A number as a position. -/
def position (n : Nat) : Result Nat := if n < positionLimit then .ok n else .error .overflow

/-- The part with the given index, from zero. -/
def ofIndex (size chunk index : Nat) : Result PlannedPart := do
  let start ← position (index * chunk)
  let stop ← position (start + chunk)
  return ⟨index + 1, ⟨start, min stop size⟩⟩

/-- The parts of an object of the given size. -/
def parts (size chunk : Nat) : Result (List PlannedPart) :=
  if chunk = 0 then .error (.invalidArgument .noChunk)
  else
    let count := ceilDiv size chunk
    if count < numberLimit then (List.range count).mapM (ofIndex size chunk)
    else .error (.invalidArgument (.tooManyParts count))

end PlannedPart

end BucketFs
