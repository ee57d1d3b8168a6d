import BucketFs.Call.Program
import BucketFs.Location.Path
import BucketFs.Transfer.SessionBook

/-!
# Transfers

A content up to the chunk size moves in one call.  A larger one is sent in parts through a pool of
bounded width; then the session is completed with all parts in order.  The first failure of a part
or of the completion ends the transfer: the session is aborted once and the failure is reported
with the key and the upload id.

A schedule says which outstanding part takes the next step.  An outstanding part takes two: it is
sent, and its answer is received.
-/

namespace BucketFs

/-- Chooses among the outstanding parts at each step, by a number that is reduced modulo their
count. -/
abbrev Schedule := Nat → Nat

/-- Every part is sent and received before the next one is sent. -/
def Schedule.inOrder : Schedule := fun _ => 0

/-- The result of a transfer; no parts are counted for a single call. -/
structure Transferred where
  size : Nat
  parts : Nat
  deriving DecidableEq, Repr

/-- Whether a transfer was sent in parts. -/
def Transferred.wasSplit (o : Transferred) : Bool := 0 < o.parts

namespace Transfer

/-- The bucket and the key of a path that names an object. -/
def objectAt (p : Path) : Result (String × String) :=
  match p.bucket? with
  | some bucket => if p.key = "" then .error (.invalidArgument (.noObject p.render))
      else .ok (bucket, p.key)
  | none => .error (.invalidArgument (.noObject p.render))

/-- A part in the pool. -/
inductive Outstanding where
  | unsent (part : PlannedPart)
  | sent (part : PlannedPart) (reply : Result String)

/-- The parts that are not in the pool yet, and those that are. -/
structure Pool where
  waiting : List PlannedPart
  outstanding : List Outstanding

namespace Pool

/-- Takes waiting parts in, in order, up to the width of the pool. -/
def refill (width : Nat) (p : Pool) : Pool :=
  let free := width - p.outstanding.length
  ⟨p.waiting.drop free, p.outstanding ++ (p.waiting.take free).map .unsent⟩

end Pool

/-- Sends parts for at most `steps` steps and notes their tags.  Two steps for each part are
enough.  The first failure that is received ends the sending. -/
def sendParts (send : PlannedPart → Program (Result String)) (width : Nat) (schedule : Schedule) :
    (steps : Nat) → Pool → SessionBook → Program (Result Unit × SessionBook)
  | 0, _, session => .done (.ok (), session)
  | steps + 1, pool, session =>
    let pool := pool.refill width
    let place := schedule steps % pool.outstanding.length
    match pool.outstanding[place]? with
    | none => .done (.ok (), session)
    | some (.unsent part) =>
      (send part).bind fun reply =>
        sendParts send width schedule steps
          { pool with outstanding := pool.outstanding.set place (.sent part reply) } session
    | some (.sent part reply) =>
      match reply.bind (session.note part.number) with
      | .error e => .done (.error e, session)
      | .ok session =>
        sendParts send width schedule steps
          { pool with outstanding := pool.outstanding.eraseIdx place } session

/-- Sends every part of a session and completes it. -/
def sendAll (through : Access) (send : PlannedPart → Program (Result String)) (width : Nat)
    (schedule : Schedule) (session : SessionBook) :
    Program (Result Unit × SessionBook) :=
  match session.startSending with
  | .error e => .done (.error e, session)
  | .ok session =>
    (sendParts send width schedule (2 * session.parts.length) ⟨session.parts, []⟩ session).bind
      fun
      | (.error e, session) => .done (.error e, session)
      | (.ok _, session) =>
        match session.finishedParts with
        | .error e => .done (.error e, session)
        | .ok parts =>
          .call (.store through (.complete session.handle parts)) fun
            | .error e => .done (.error e, session)
            | .ok _ =>
              match session.finish with
              | .error e => .done (.error e, session)
              | .ok session => .done (.ok (), session)

/-- Runs a whole session.  A failure to abort it is not reported. -/
def sendInParts (through : Access) (schedule : Schedule) (bucket key : String) (size : Nat)
    (acl : Option Acl) (options : TransferOptions)
    (send : UploadHandle → PlannedPart → Program (Result String)) : Action Transferred := do
  let plan ← Action.ofResult (PlannedPart.parts size options.chunkSize)
  let handle ← Action.ask through (.initiate bucket key acl)
  let session := SessionBook.start handle size plan
  let width := max 1 options.maxConcurrency
  let (result, _) ← ExceptT.lift (sendAll through (send handle) width schedule session)
  match result with
  | .ok _ => return ⟨size, plan.length⟩
  | .error cause =>
    let _ ← Action.outcome (Action.ask through (.abort handle))
    throw (.transferFailed key handle.uploadId cause)

/-- Copies an object within the store. -/
def copy (through : Access) (schedule : Schedule) (source target : Path) (acl : Option Acl)
    (options : TransferOptions) : Action Transferred := do
  let (sourceBucket, sourceKey) ← Action.ofResult (objectAt source)
  let (bucket, key) ← Action.ofResult (objectAt target)
  let info ← Action.ask through (.head sourceBucket sourceKey)
  if options.splits info.size then
    sendInParts through schedule bucket key info.size acl options fun handle part =>
      (Action.ask through (.copyPart handle part.number part.range sourceBucket sourceKey)).run
  else
    let _ ← Action.ask through (.copy sourceBucket sourceKey bucket key acl)
    return ⟨info.size, 0⟩

/-- Uploads a content that is at hand. -/
def upload (through : Access) (schedule : Schedule) (data : Bytes) (target : Path)
    (acl : Option Acl) (options : TransferOptions) : Action Transferred := do
  let (bucket, key) ← Action.ofResult (objectAt target)
  if options.splits data.length then
    sendInParts through schedule bucket key data.length acl options fun handle part =>
      (Action.ask through (.uploadPart handle part.number part.range
        (data.slice part.range.start part.range.stop))).run
  else
    let _ ← Action.ask through (.put bucket key data acl)
    return ⟨data.length, 0⟩

/-- Uploads a local file, each part of which is read when it is sent. -/
def uploadLocal (through : Access) (schedule : Schedule) (file : String) (target : Path)
    (acl : Option Acl) (options : TransferOptions) : Action Transferred := do
  let (bucket, key) ← Action.ofResult (objectAt target)
  let size ← Action.askFile (.size file)
  if options.splits size then
    sendInParts through schedule bucket key size acl options fun handle part =>
      (do
        let data ← Action.askFile (.readAt file part.range)
        Action.ask through (.uploadPart handle part.number part.range data) : Action String).run
  else
    let data ← Action.askFile (.read file)
    let _ ← Action.ask through (.put bucket key data acl)
    return ⟨size, 0⟩

end Transfer

end BucketFs
