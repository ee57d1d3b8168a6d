import BucketFs.Proofs.Text.Cut
import BucketFs.Proofs.Text.Number
import BucketFs.Proofs.Text.Percent
import BucketFs.Proofs.Text.Prefix
import BucketFs.Remote.Client

/-!
# Requests that are sent

* `readRange?_rangeText` — the header of a range is read back as its first and its last position.
* `Client.Reaches` — what a client needs to send requests about an object at once.
* `Client.Reaches.sends` — a sound request about such an object is sent, and
  `Client.Reaches.sends_copyPart` and its siblings say so for the calls of a copy in parts.
-/

namespace BucketFs.Remote

open BucketFs.Text

/-! ## Ranges -/

/-- Reads the header of a range: its first and its last position. -/
def readRange? (text : String) : Option (Nat × Nat) := do
  let (first, last) ← (dropPrefix? "bytes=" text).bind (cut? '-')
  some (← readWord? first, ← readWord? last)

theorem rangeText_eq (r : ByteRange) :
    rangeText r = "bytes=" ++ (toString r.start ++ ("-" ++ toString (r.stop - 1))) := by
  show "bytes=" ++ toString r.start ++ "-" ++ toString (r.stop - 1) = _
  simp only [String.append_assoc]

/-- **The header of a range is read back.** -/
theorem readRange?_rangeText {r : ByteRange} (hlt : r.start < r.stop) (hstop : r.stop ≤ wordLimit) :
    readRange? (rangeText r) = some (r.start, r.stop - 1) := by
  have hcut : cut? '-' (toString r.start ++ ("-" ++ toString (r.stop - 1))) =
      some (toString r.start, toString (r.stop - 1)) := by
    rw [cut?_eq_some_iff]
    refine ⟨not_mem_toString (by decide) _, ?_⟩
    simp
  rw [readRange?, rangeText_eq, dropPrefix?_append, Option.bind_some, hcut]
  simp only [Option.bind_eq_bind, Option.bind_some]
  rw [readWord?_toString (by omega), readWord?_toString (by omega)]
  rfl

example : rangeText ⟨8, 16⟩ = "bytes=8-15" ∧ readRange? "bytes=8-15" = some (8, 15) := by
  decide +kernel

/-! ## Requests of a session -/

/-- The request that copies a part. -/
def partRequest (handle : UploadHandle) (number : Nat) (range : ByteRange)
    (sourceBucket sourceKey : String) : Request :=
  { method := .put
    subject := .object handle.bucket handle.key
    query := partQuery handle number
    headers :=
      [(copySource, sourceText sourceBucket sourceKey),
       ("x-amz-copy-source-range", rangeText range)] }

theorem lookup_range (handle : UploadHandle) (number : Nat) (range : ByteRange)
    (sourceBucket sourceKey : String) :
    (partRequest handle number range sourceBucket sourceKey).headers.lookup
      "x-amz-copy-source-range" = some (rangeText range) := rfl

theorem requestOf_copyPart (handle : UploadHandle) {number : Nat} (h : number < countLimit)
    (range : ByteRange) (sourceBucket sourceKey : String) :
    requestOf (.copyPart handle number range sourceBucket sourceKey) =
      .ok (some (partRequest handle number range sourceBucket sourceKey)) := by
  simp only [requestOf, checkNumber, if_pos h]
  rfl

/-- The request that completes a session. -/
def completionRequest (handle : UploadHandle) (parts : List FinishedPart) : Request :=
  { method := .post
    subject := .object handle.bucket handle.key
    query := [("uploadId", handle.uploadId)]
    parts := some parts }

theorem forM_checkNumber {parts : List FinishedPart} (h : ∀ p ∈ parts, p.number < countLimit) :
    (parts.forM fun p => checkNumber p.number) = .ok () := by
  induction parts with
  | nil => rfl
  | cons p rest ih =>
    show ((checkNumber p.number).bind fun _ => rest.forM fun p => checkNumber p.number) = _
    rw [checkNumber, if_pos (h p (by simp))]
    exact ih fun q hq => h q (by simp [hq])

theorem requestOf_complete (handle : UploadHandle) {parts : List FinishedPart}
    (h : ∀ p ∈ parts, p.number < countLimit) :
    requestOf (.complete handle parts) = .ok (some (completionRequest handle parts)) := by
  simp only [requestOf, forM_checkNumber h]
  rfl

/-! ## Headers -/

namespace Client

theorem isHeaderText_append (s t : String) :
    isHeaderText (s ++ t) = (isHeaderText s && isHeaderText t) := by
  simp [isHeaderText]

theorem isHeaderText_toString (n : Nat) : isHeaderText (toString n) = true := by
  refine List.all_eq_true.2 fun c hc => ?_
  have hdigit := mem_toString_digit hc
  simp only [isDigit, Bool.and_eq_true, decide_eq_true_eq] at hdigit
  simp only [Bool.or_eq_true, Bool.and_eq_true, decide_eq_true_eq]
  omega

theorem isHeaderText_rangeText (r : ByteRange) : isHeaderText (rangeText r) = true := by
  rw [rangeText_eq, isHeaderText_append, isHeaderText_append, isHeaderText_append,
    isHeaderText_toString, isHeaderText_toString]
  decide

theorem isHeaderText_header (acl : Acl) : isHeaderText acl.header = true := by
  cases acl <;> decide

theorem upperDigit_visible : ∀ n < 16, 0x20 ≤ (Bytes.Hex.upperDigit n).toNat ∧
    (Bytes.Hex.upperDigit n).toNat < 0x7f := by decide

theorem isSourceVerbatim_visible {b : UInt8} (h : isSourceVerbatim b = true) :
    0x20 ≤ b.toNat ∧ b.toNat < 0x7f := by
  simp only [isSourceVerbatim, Bool.or_eq_true, Bool.and_eq_true, decide_eq_true_eq,
    beq_iff_eq, UInt8.le_iff_toNat_le, ← UInt8.toNat_inj, UInt8.reduceToNat] at h
  omega

/-- The key of a copied object may stand in a header whatever it is. -/
theorem isHeaderText_encode (key : String) :
    isHeaderText (Percent.encode isSourceVerbatim key) = true := by
  rw [isHeaderText, Percent.encode, String.toList_ofList, List.all_eq_true]
  intro c hc
  have hvisible : 0x20 ≤ c.toNat ∧ c.toNat < 0x7f := by
    rcases Percent.mem_encodeBytes hc with ⟨b, hb, rfl⟩ | rfl | ⟨n, hn, rfl⟩
    · have hb := isSourceVerbatim_visible hb
      rwa [Percent.toNat_ofNat (by omega)]
    · decide
    · exact upperDigit_visible n hn
  simp only [Bool.or_eq_true, Bool.and_eq_true, decide_eq_true_eq]
  omega

theorem isHeaderText_sourceText {bucket : String} (h : isHeaderText bucket = true) (key : String) :
    isHeaderText (sourceText bucket key) = true := by
  rw [sourceText, isHeaderText_append, isHeaderText_append, h, isHeaderText_encode]
  decide

/-! ## Sending -/

/-- What a client needs to send requests about an object at once: a key to sign with, a route that
takes no session, and an object with a name. -/
structure Reaches (client : Client) (bucket key : String) : Prop where
  signs : client.accessKey.isSome = true
  routed : ∃ route, client.route? (some bucket) = some route ∧ route.session = false
  named : isSubject false (.object bucket key) = true

/-- A call becomes a request that is sent. -/
def Sends (client : Client) (c : StoreCall) (signed : SignedRequest) : Prop :=
  requestOf c = .ok (some signed.request) ∧ client.dispatch signed.request = .sends signed

section Reaches

variable {client : Client} {bucket key : String}

/-- An object that can be named in most requests can be named in all. -/
theorem Reaches.isSubject (h : client.Reaches bucket key) (mayBeBlank : Bool) :
    isSubject mayBeBlank (.object bucket key) = true := by
  have hnamed := h.named
  simp only [Client.isSubject, isKey, Bool.and_eq_true] at hnamed ⊢
  refine ⟨hnamed.1, ?_⟩
  split
  · rw [decide_eq_true_eq]
    rintro rfl
    simp [isBlankText] at hnamed
  · simpa using hnamed.2

/-- **A sound request about an object in reach is sent.** -/
theorem Reaches.sends (h : client.Reaches bucket key) {c : StoreCall} {r : Request}
    (hcall : requestOf c = .ok (some r)) (hsubject : r.subject = .object bucket key)
    (hupload : namesUpload r = true) (hheaders : ∀ x ∈ r.headers, isHeaderText x.2 = true) :
    ∃ signed, client.Sends c signed := by
  obtain ⟨accessKey, hkey⟩ := Option.isSome_iff_exists.1 h.signs
  obtain ⟨route, hroute, hsession⟩ := h.routed
  have hsound : isSound r = true := by
    simp only [isSound, hsubject, h.isSubject, hupload, Bool.true_and, List.all_eq_true]
    exact hheaders
  refine ⟨signOn r route accessKey, hcall, ?_⟩
  show client.dispatch r = _
  have hbucket : r.subject.bucket? = some bucket := by rw [hsubject]; rfl
  simp [dispatch, hkey, hbucket, hroute, hsound, hsession]

theorem Reaches.sends_head (h : client.Reaches bucket key) :
    ∃ signed, client.Sends (.head bucket key) signed :=
  h.sends rfl rfl rfl (by simp)

theorem Reaches.sends_initiate (h : client.Reaches bucket key) (acl : Option Acl) :
    ∃ signed, client.Sends (.initiate bucket key acl) signed := by
  refine h.sends rfl rfl rfl fun x hx => ?_
  obtain ⟨a, -, rfl⟩ := List.mem_map.1 hx
  exact isHeaderText_header a

end Reaches

section Session

variable {client : Client} {handle : UploadHandle} (h : client.Reaches handle.bucket handle.key)
  (hid : handle.uploadId ≠ "")
include h hid

theorem Reaches.sends_copyPart {number : Nat} (hnumber : number < countLimit) (range : ByteRange)
    {sourceBucket : String} (hsource : isHeaderText sourceBucket = true) (sourceKey : String) :
    ∃ signed, client.Sends (.copyPart handle number range sourceBucket sourceKey) signed := by
  refine h.sends (requestOf_copyPart handle hnumber range sourceBucket sourceKey) rfl ?_ ?_
  · show (some handle.uploadId != some "") = true
    simp [hid]
  · simp [partRequest, isHeaderText_sourceText hsource, isHeaderText_rangeText]

theorem Reaches.sends_complete {parts : List FinishedPart}
    (hnumbers : ∀ p ∈ parts, p.number < countLimit) :
    ∃ signed, client.Sends (.complete handle parts) signed := by
  refine h.sends (requestOf_complete handle hnumbers) rfl ?_ ?_
  · simp [namesUpload, completionRequest, hid]
  · simp [completionRequest]

theorem Reaches.sends_abort : ∃ signed, client.Sends (.abort handle) signed :=
  h.sends rfl rfl (by simp [namesUpload, hid]) (by simp)

end Session

end Client

end BucketFs.Remote
