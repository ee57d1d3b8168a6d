import BucketFs.Transfer.Plan
import BucketFs.Transfer.Upload

/-!
# Transfer sessions

A session keeps the book of one multipart transfer: the planned parts, the entity tag of each part
that was sent, and the phase.  A call that fails leaves the session as it was.
-/

namespace BucketFs

/-- The book of one multipart transfer. -/
structure SessionBook where
  handle : UploadHandle
  size : Nat
  parts : List PlannedPart
  /-- One place for each part. -/
  etags : List (Option String)
  phase : SessionPhase
  deriving DecidableEq, Repr

namespace SessionBook

/-- A session that the store has opened and no part has been sent for. -/
def start (handle : UploadHandle) (size : Nat) (parts : List PlannedPart) : SessionBook :=
  ⟨handle, size, parts, List.replicate parts.length none, .initiated⟩

/-- Moves to `target` from one of the given states. -/
def move (s : SessionBook) (sources : List SessionPhase) (target : SessionPhase) :
    Result SessionBook :=
  if s.phase ∈ sources then .ok { s with phase := target }
  else .error (.internal (.wrongTransition s.handle.uploadId s.phase target))

/-- The sending of parts begins. -/
def startSending (s : SessionBook) : Result SessionBook := s.move [.initiated] .partsInFlight

/-- The store assembled the object. -/
def finish (s : SessionBook) : Result SessionBook :=
  s.move [.partsInFlight] .completed

/-- The session was given up. -/
def giveUp (s : SessionBook) : Result SessionBook :=
  s.move [.initiated, .partsInFlight] .aborted

/-- Notes the tag that the store returned for a part; a later tag of the same part replaces it. -/
def note (s : SessionBook) (number : Nat) (etag : String) : Result SessionBook :=
  if s.phase ≠ .partsInFlight then
    .error (.internal (.recordOutsideFlight number s.phase))
  else if number = 0 ∨ s.etags.length < number then
    .error (.internal (.partNotPlanned number))
  else .ok { s with etags := s.etags.set (number - 1) (some etag) }

/-- Checks the parts from `index` on against the offset reached so far and lists them. -/
def finishFrom (size : Nat) : Nat → Nat → List (PlannedPart × Option String) →
    Result (List FinishedPart)
  | _, offset, [] =>
    if offset = size then .ok [] else .error (.internal (.partsShort offset size))
  | index, offset, (part, etag) :: rest =>
    if part.number ≠ index + 1 then .error (.internal (.partNumbersBroken index))
    else if part.range.start ≠ offset ∨ part.range.stop ≤ part.range.start then
      .error (.internal (.partMisplaced part.number part.range offset))
    else
      match etag with
      | none => .error (.internal (.partUnrecorded part.number))
      | some etag =>
        (finishFrom size (index + 1) part.range.stop rest).map (⟨part.number, etag⟩ :: ·)

/-- The list to complete the session with: every part in order with its tag.  It exists when the
parts are numbered in order, cover the object and were all sent. -/
def finishedParts (s : SessionBook) : Result (List FinishedPart) :=
  finishFrom s.size 0 0 (s.parts.zip s.etags)

end SessionBook

end BucketFs
