import BucketFs.Proofs.Call.Action
import BucketFs.Proofs.Call.Events
import BucketFs.Transfer.Run

/-!
# What a transfer takes its content from

The three transfers differ in what they read and in the calls that carry it.

* `Source.transfer` — the transfer of each source.
* `Source.transfer_eq` — it asks for the size, and sends the content in parts or whole.
* `Source.sendsPart` — the calls that send one part.
-/

namespace BucketFs.Transfer

variable {σ : Type}

/-- What a transfer takes its content from. -/
inductive Source where
  /-- An object of the same store. -/
  | object (path : Path)
  /-- A content that is at hand. -/
  | bytes (data : Bytes)
  /-- A local file. -/
  | file (name : String)

namespace Source

/-- The transfer of a source to a path. -/
def transfer (through : Access) (schedule : Schedule) (target : Path) (acl : Option Acl)
    (options : TransferOptions) : Source → Action Transferred
  | .object path => copy through schedule path target acl options
  | .bytes data => upload through schedule data target acl options
  | .file name => uploadLocal through schedule name target acl options

/-- The size that a source reports. -/
def size (through : Access) : Source → Program (Result Nat)
  | .object path =>
    match objectAt path with
    | .error e => .done (.error e)
    | .ok (bucket, key) => .call (.store through (.head bucket key)) fun r => .done (r.map (·.size))
  | .bytes data => .done (.ok data.length)
  | .file name => .call (.file (.size name)) .done

/-- Sends one part of a source. -/
def sendPart (through : Access) (handle : UploadHandle) (part : PlannedPart) :
    Source → Program (Result String)
  | .object path =>
    match objectAt path with
    | .error e => .done (.error e)
    | .ok (bucket, key) =>
      .call (.store through (.copyPart handle part.number part.range bucket key)) .done
  | .bytes data =>
    .call (.store through (.uploadPart handle part.number part.range
      (data.slice part.range.start part.range.stop))) .done
  | .file name =>
    .call (.file (.readAt name part.range)) fun
      | .error e => .done (.error e)
      | .ok data => .call (.store through (.uploadPart handle part.number part.range data)) .done

/-- Sends a source in a single call. -/
def sendWhole (through : Access) (bucket key : String) (acl : Option Acl) :
    Source → Program (Result Unit)
  | .object path =>
    match objectAt path with
    | .error e => .done (.error e)
    | .ok (sourceBucket, sourceKey) =>
      .call (.store through (.copy sourceBucket sourceKey bucket key acl)) .done
  | .bytes data =>
    .call (.store through (.put bucket key data acl)) fun r => .done (r.map fun _ => ())
  | .file name =>
    .call (.file (.read name)) fun
      | .error e => .done (.error e)
      | .ok data =>
        .call (.store through (.put bucket key data acl)) fun r => .done (r.map fun _ => ())

/-- **A transfer** asks for the size and sends the content in parts or whole. -/
theorem transfer_eq (source : Source) (through : Access) (schedule : Schedule) {target : Path}
    {bucket key : String} (htarget : objectAt target = .ok (bucket, key)) (acl : Option Acl)
    (options : TransferOptions) :
    (source.transfer through schedule target acl options).run =
      (source.size through).bind fun
        | .error e => .done (.error e)
        | .ok size =>
          if options.splits size then
            (sendInParts through schedule bucket key size acl options fun handle part =>
              source.sendPart through handle part).run
          else
            (source.sendWhole through bucket key acl).bind fun
              | .error e => .done (.error e)
              | .ok _ => .done (.ok ⟨size, 0⟩) := by
  cases source with
  | object path =>
    rw [transfer, copy, Source.size]
    simp only [sendPart, sendWhole]
    cases objectAt path with
    | error e => rfl
    | ok location =>
      simp only [htarget, Action.ofResult_ok_bind, Action.run_bind, Action.ask, ExceptT.run_mk,
        Program.call_bind, Program.done_bind]
      refine congrArg (Program.call _) (funext fun r => ?_)
      cases r with
      | error e => rfl
      | ok info =>
        by_cases hsplits : options.splits info.size = true
        · simp only [Except.map, hsplits, if_true]
        · simp only [Except.map, hsplits]
          refine congrArg (Program.call _) (funext fun r => ?_)
          cases r <;> rfl
  | bytes data =>
    simp only [transfer, upload, Source.size, htarget, Action.ofResult_ok_bind, Program.done_bind]
    by_cases hsplits : options.splits data.length = true
    · simp only [hsplits, if_true, sendPart, Action.ask, ExceptT.run_mk]
    · simp only [hsplits, sendWhole, Action.ask, ExceptT.run_mk, Program.call_bind]
      refine congrArg (Program.call _) (funext fun r => ?_)
      cases r <;> rfl
  | file name =>
    simp only [transfer, uploadLocal, Source.size, htarget, Action.ofResult_ok_bind,
      Action.run_bind, Action.askFile, ExceptT.run_mk, Program.call_bind, Program.done_bind]
    refine congrArg (Program.call _) (funext fun r => ?_)
    cases r with
    | error e => rfl
    | ok size =>
      by_cases hsplits : options.splits size = true
      · simp only [hsplits, if_true]
        refine congrArg (fun send => (sendInParts through schedule bucket key size acl options
          send).run) (funext fun handle => funext fun part => ?_)
        refine congrArg (Program.call _) (funext fun r => ?_)
        cases r <;> rfl
      · simp only [hsplits, sendWhole, Action.ask, ExceptT.run_mk, Program.call_bind]
        refine congrArg (Program.call _) (funext fun r => ?_)
        cases r with
        | error e => rfl
        | ok data =>
          refine congrArg (Program.call _) (funext fun r => ?_)
          cases r <;> rfl

/-- A transfer to a path that names no object is refused without a call. -/
theorem transfer_refused (source : Source) (through : Access) (schedule : Schedule) {target : Path}
    {e : FsError} (htarget : objectAt target = .error e) (acl : Option Acl)
    (options : TransferOptions) :
    ∃ fault, source.transfer through schedule target acl options =
      throw (.invalidArgument fault) := by
  have hrefused : ∀ {p : Path} {e : FsError}, objectAt p = .error e →
      ∃ fault, e = .invalidArgument fault := by
    intro p e h
    unfold objectAt at h
    split at h
    · split at h
      · cases h
        exact ⟨_, rfl⟩
      · cases h
    · cases h
      exact ⟨_, rfl⟩
  obtain ⟨fault, rfl⟩ := hrefused htarget
  cases source with
  | object path =>
    rw [transfer, copy]
    cases hlocation : objectAt path with
    | error e =>
      obtain ⟨fault', rfl⟩ := hrefused hlocation
      exact ⟨fault', rfl⟩
    | ok location =>
      rw [htarget]
      exact ⟨fault, rfl⟩
  | bytes data =>
    rw [transfer, upload, htarget]
    exact ⟨fault, rfl⟩
  | file name =>
    rw [transfer, uploadLocal, htarget]
    exact ⟨fault, rfl⟩

/-- The calls that send one part of a source, and the answer that they come to. -/
inductive SendsPart (through : Access) (handle : UploadHandle) (part : PlannedPart) :
    Source → List Event → Result String → Prop
  | object {path : Path} {bucket key : String} (location : objectAt path = .ok (bucket, key))
      (reply : Result String) :
      SendsPart through handle part (.object path)
        [⟨.store through (.copyPart handle part.number part.range bucket key), reply⟩] reply
  | bytes (data : Bytes) (reply : Result String) :
      SendsPart through handle part (.bytes data)
        [⟨.store through (.uploadPart handle part.number part.range
          (data.slice part.range.start part.range.stop)), reply⟩] reply
  | file (name : String) (content : Bytes) (reply : Result String) :
      SendsPart through handle part (.file name)
        [⟨.file (.readAt name part.range), Except.ok content⟩,
          ⟨.store through (.uploadPart handle part.number part.range content), reply⟩] reply
  /-- A part that cannot be read is not sent. -/
  | unread (name : String) (e : FsError) :
      SendsPart through handle part (.file name)
        [⟨.file (.readAt name part.range), Except.error e⟩] (.error e)

theorem sendsPart (h : Handler σ) (through : Access) (handle : UploadHandle) (part : PlannedPart)
    {source : Source} {s₀ : σ} {size : Nat} (hsize : ((source.size through).run h s₀).1 = .ok size)
    (s : σ) :
    source.SendsPart through handle part ((source.sendPart through handle part).events h s)
      ((source.sendPart through handle part).run h s).1 := by
  cases source with
  | object path =>
    rw [Source.size] at hsize
    rw [sendPart]
    cases hlocation : objectAt path with
    | error e =>
      rw [hlocation] at hsize
      cases hsize
    | ok location => exact .object hlocation _
  | bytes data => exact .bytes data _
  | file name =>
    rw [sendPart]
    cases hread : (h (.file (.readAt name part.range)) s).1 with
    | error e =>
      simp only [Program.events, Program.run_call, hread, Program.run_done]
      exact .unread name e
    | ok content =>
      simp only [Program.events, Program.run_call, hread, Program.run_done]
      exact .file name content _

end Source

end BucketFs.Transfer
