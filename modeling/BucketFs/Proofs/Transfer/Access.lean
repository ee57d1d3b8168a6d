import BucketFs.Proofs.Transfer.Target

/-!
# The access of a transfer

* `Access.MayCall` — whether every call through an access is allowed, and every call about a local
  file.
* `transfer_calls` — a transfer makes no other calls, whatever fails.
-/

namespace BucketFs

variable {σ : Type} {h : Handler σ} {allowed : Call → σ → Prop} {through : Access}

/-- Whether every call through an access is allowed, and every call about a local file. -/
structure Access.MayCall (through : Access) (allowed : Call → σ → Prop) : Prop where
  store : ∀ c s, allowed (.store through c) s
  file : ∀ c s, allowed (.file c) s

theorem Access.MayCall.ask (hcall : through.MayCall allowed) (c : StoreCall) :
    (Action.ask through c).Always h allowed :=
  Action.always_ask (hcall.store c)

namespace Transfer

variable (hcall : through.MayCall allowed)
include hcall

theorem size_calls (source : Source) (s : σ) : (source.size through).Along h allowed s := by
  cases source with
  | object path =>
    rw [Source.size]
    cases objectAt path with
    | error e => trivial
    | ok location => exact ⟨hcall.store _ s, trivial⟩
  | bytes data => trivial
  | file name => exact ⟨hcall.file _ s, trivial⟩

theorem sendPart_calls (source : Source) (handle : UploadHandle) (part : PlannedPart) (s : σ) :
    (source.sendPart through handle part).Along h allowed s := by
  cases source with
  | object path =>
    rw [Source.sendPart]
    cases objectAt path with
    | error e => trivial
    | ok location => exact ⟨hcall.store _ s, trivial⟩
  | bytes data => exact ⟨hcall.store _ s, trivial⟩
  | file name =>
    refine ⟨hcall.file _ s, ?_⟩
    cases (h (.file (.readAt name part.range)) s).1 with
    | error e => trivial
    | ok data => exact ⟨hcall.store _ _, trivial⟩

theorem sendWhole_calls (source : Source) (bucket key : String) (acl : Option Acl) (s : σ) :
    (source.sendWhole through bucket key acl).Along h allowed s := by
  cases source with
  | object path =>
    rw [Source.sendWhole]
    cases objectAt path with
    | error e => trivial
    | ok location => exact ⟨hcall.store _ s, trivial⟩
  | bytes data => exact ⟨hcall.store _ s, trivial⟩
  | file name =>
    refine ⟨hcall.file _ s, ?_⟩
    cases (h (.file (.read name)) s).1 with
    | error e => trivial
    | ok data => exact ⟨hcall.store _ _, trivial⟩

theorem sendAll_calls {send : PlannedPart → Program (Result String)}
    (hsend : ∀ part s, (send part).Along h allowed s) (width : Nat) (schedule : Schedule)
    (session : SessionBook) (s : σ) :
    (sendAll through send width schedule session).Along h allowed s := by
  rw [sendAll]
  cases session.startSending with
  | error e => trivial
  | ok book =>
    dsimp only
    rw [Program.along_bind]
    have hparts : ∀ (part : PlannedPart) (s : σ), True → (send part).Along h allowed s ∧ True :=
      fun part s _ => ⟨hsend part s, trivial⟩
    obtain ⟨halong, -⟩ := sendParts_keeps hparts width schedule (2 * book.parts.length)
      ⟨book.parts, []⟩ book s trivial
    refine ⟨halong, ?_⟩
    generalize (sendParts send width schedule (2 * book.parts.length) ⟨book.parts, []⟩ book).run h s
      = final
    obtain ⟨⟨result, book'⟩, t⟩ := final
    cases result with
    | error e => trivial
    | ok _ =>
      dsimp only
      cases book'.finishedParts with
      | error e => trivial
      | ok list =>
        refine ⟨hcall.store _ t, ?_⟩
        cases (h (.store through (.complete book'.handle list)) t).1 with
        | error e => trivial
        | ok _ => cases book'.finish <;> trivial

theorem sendInParts_calls {send : UploadHandle → PlannedPart → Program (Result String)}
    (hsend : ∀ handle part s, (send handle part).Along h allowed s) (schedule : Schedule)
    (bucket key : String) (size : Nat) (acl : Option Acl) (options : TransferOptions) :
    (sendInParts through schedule bucket key size acl options send).Always h allowed := by
  intro s
  cases hplan : PlannedPart.parts size options.chunkSize with
  | error e =>
    rw [sendInParts, hplan, Action.ofResult_error_bind]
    trivial
  | ok plan =>
    rw [sendInParts_eq through schedule bucket key size acl options _ hplan]
    refine ⟨hcall.store _ s, ?_⟩
    cases (h (.store through (.initiate bucket key acl)) s).1 with
    | error e => trivial
    | ok handle =>
      dsimp only
      rw [Program.along_bind]
      refine ⟨sendAll_calls hcall (hsend handle) _ schedule _ _, ?_⟩
      split
      · trivial
      · exact ⟨hcall.store _ _, trivial⟩

/-- **A transfer calls through its access** and about its local file only, whatever fails. -/
theorem transfer_calls (source : Source) (schedule : Schedule) (target : Path) (acl : Option Acl)
    (options : TransferOptions) :
    (source.transfer through schedule target acl options).Always h allowed := by
  cases htarget : objectAt target with
  | error e =>
    obtain ⟨fault, heq⟩ := source.transfer_refused through schedule htarget acl options
    rw [heq]
    exact Action.always_throw _
  | ok location =>
    obtain ⟨bucket, key⟩ := location
    intro s
    rw [source.transfer_eq through schedule htarget, Program.along_bind]
    refine ⟨size_calls hcall source s, ?_⟩
    cases ((source.size through).run h s).1 with
    | error e => trivial
    | ok size =>
      dsimp only
      split
      · exact sendInParts_calls hcall
          (fun handle part s => sendPart_calls hcall source handle part s)
          schedule bucket key size acl options _
      · rw [Program.along_bind]
        refine ⟨sendWhole_calls hcall source bucket key acl _, ?_⟩
        split <;> trivial

end Transfer

end BucketFs
