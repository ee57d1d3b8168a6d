/-!
# The life of a multipart session
-/

namespace BucketFs

/-- Where a multipart session stands. -/
inductive SessionPhase where
  /-- The store issued an upload id and no part has been sent. -/
  | initiated
  /-- Parts are being sent. -/
  | partsInFlight
  /-- The store assembled the object. -/
  | completed
  /-- The session was discarded. -/
  | aborted
  deriving DecidableEq, Repr

/-- The name of a phase. -/
def SessionPhase.name : SessionPhase → String
  | .initiated => "Initiated"
  | .partsInFlight => "PartsInFlight"
  | .completed => "Completed"
  | .aborted => "Aborted"

end BucketFs
