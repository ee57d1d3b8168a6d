import BucketFs.Proofs.KeyMap
import BucketFs.Proofs.Remote.Requests
import BucketFs.Store.Answer

/-!
# Reads of a remote service and of a store in memory

A store in memory finds the object and cuts a half-open range out of it.  A client asks for an
inclusive range in a header, and does not ask at all where nothing is to be read.

* `ServesReads` — how a service answers the reads of one bucket; `serves_bucketReads` — a service
  that answers so.
* `Store.get_found`, `Store.get_missing` — how a store in memory answers.
* `Client.answer_get_found` and its siblings — how a client answers over such a service.
* `get_agrees_iff` — both answer alike exactly if the object is there or something is to be read of
  it, and the service can be asked for it.
-/

namespace BucketFs

open BucketFs.Text BucketFs.Bytes

/-- The bytes of an object that a read asks for. -/
def ObjectRecord.read (o : ObjectRecord) (range : Option ByteRange) : Bytes :=
  match range with
  | none => o.data
  | some r => o.data.slice r.start r.stop

/-- Whether a read asks for no bytes. -/
def readsNothing (range : Option ByteRange) : Bool := range.any fun r => r.stop ≤ r.start

/-- Whether a read stays within an object. -/
def ObjectRecord.Within (o : ObjectRecord) (range : Option ByteRange) : Prop :=
  ∀ r ∈ range, r.start ≤ r.stop ∧ r.stop ≤ o.data.length

theorem ObjectRecord.read_of_nothing {o : ObjectRecord} {range : Option ByteRange}
    (h : readsNothing range = true) : o.read range = [] := by
  cases range with
  | none => cases h
  | some r =>
    have hle : r.stop ≤ r.start := by simpa [readsNothing] using h
    simp [ObjectRecord.read, slice, Nat.sub_eq_zero_of_le hle]

/-! ## A store in memory -/

namespace Store

variable {s : Store} {bucket key : String} {objects : Bucket} (hb : s.bucket? bucket = some objects)
include hb

theorem get_found {o : ObjectRecord} (ho : objects.get? key = some o) {range : Option ByteRange}
    (hrange : o.Within range) : s.get bucket key range = .ok (o.read range) := by
  simp only [get, find, hb, ho]
  cases range with
  | none => rfl
  | some r =>
    obtain ⟨hstart, hstop⟩ := hrange r rfl
    exact if_neg (by omega)

theorem get_missing (hkey : objects.get? key = none) (range : Option ByteRange) :
    s.get bucket key range = .error (.notFound bucket key) := by
  simp only [get, find, hb, hkey]

end Store

namespace Remote

variable {τ : Type}

/-! ## A service -/

/-- Whether a request reads an object. -/
structure Request.Reads (r : Request) (bucket key : String) : Prop where
  method : r.method = .get
  subject : r.subject = .object bucket key
  query : r.query = []

/-- How a service answers the reads of a bucket.  Whatever else it does, it gives a whole object
where no range is asked for, the bytes from the first to the last position where a header names
them, and reports keys that are not there. -/
structure ServesReads (transport : Transport τ) (bucket : String) (objects : Bucket) : Prop where
  whole : ∀ {key : String} {signed : SignedRequest} {o : ObjectRecord}
    (range : Option ByteRange) (t : τ),
    signed.request.Reads bucket key → objects.get? key = some o →
    signed.request.headers.lookup "range" = none →
    (transport (.get bucket key range) signed t).1 = .ok o.data
  inclusive : ∀ {key : String} {signed : SignedRequest} {o : ObjectRecord} {first last : Nat}
    (range : Option ByteRange) (t : τ),
    signed.request.Reads bucket key → objects.get? key = some o →
    signed.request.headers.lookup "range" = some s!"bytes={first}-{last}" →
    first ≤ last → last < o.data.length →
    (transport (.get bucket key range) signed t).1 = .ok (o.data.slice first (last + 1))
  missing : ∀ {key : String} {signed : SignedRequest} (range : Option ByteRange) (t : τ),
    signed.request.Reads bucket key → objects.get? key = none →
    ∃ failure, (transport (.get bucket key range) signed t).1 = .error failure ∧
      failure.code = some "NoSuchKey"

/-- The answer of a service to a read of a bucket.  A header that names no positions in order is
passed over, and a range behind the end of the object is refused. -/
def servedRead (objects : Bucket) (r : Request) : Except ServiceFailure Bytes :=
  match objects.get? r.subject.key with
  | none => .error { status := some 404, code := some "NoSuchKey" }
  | some o =>
    match (r.headers.lookup "range").bind readRange? with
    | none => .ok o.data
    | some (first, last) =>
      if last < first then .ok o.data
      else if first < o.data.length then .ok (o.data.slice first (last + 1))
      else .error { status := some 416, code := some "InvalidRange" }

/-- The transport to a service that reads from the objects of a bucket and does nothing else. -/
def bucketReads (objects : Bucket) : Transport τ := fun c signed t =>
  match c with
  | .get _ _ _ => (servedRead objects signed.request, t)
  | _ => (.error {}, t)

/-- Such a service answers the reads of its bucket, if its objects have positions to name. -/
theorem serves_bucketReads (bucket : String) {objects : Bucket}
    (hsize : ∀ key o, objects.get? key = some o → o.data.length ≤ wordLimit) :
    ServesReads (bucketReads objects : Transport τ) bucket objects := by
  constructor
  case whole =>
    intro key signed o range t hreads ho hheader
    simp only [bucketReads, servedRead, hreads.subject, Subject.key, ho, hheader, Option.bind_none]
  case inclusive =>
    intro key signed o first last range t hreads ho hheader hle hlt
    have hlimit := hsize key o ho
    have hread : readRange? s!"bytes={first}-{last}" = some (first, last) :=
      readRange?_rangeText (r := ⟨first, last + 1⟩) (Nat.lt_succ_of_le hle) (by dsimp only; omega)
    simp only [bucketReads, servedRead, hreads.subject, Subject.key, ho, hheader,
      Option.bind_some, hread]
    rw [if_neg (by omega), if_pos (by omega)]
  case missing =>
    intro key signed range t hreads hkey
    refine ⟨{ status := some 404, code := some "NoSuchKey" }, ?_, rfl⟩
    simp only [bucketReads, servedRead, hreads.subject, Subject.key, hkey]

/-! ## A client -/

/-- The request of a read. -/
def readRequest (bucket key : String) (range : Option ByteRange) : Request :=
  { method := .get
    subject := .object bucket key
    headers := range.toList.map fun r => ("range", rangeText r) }

theorem requestOf_get_nothing {range : Option ByteRange} (h : readsNothing range = true)
    (bucket key : String) : requestOf (.get bucket key range) = .ok none := by
  cases range with
  | none => cases h
  | some r =>
    have hle : r.start ≥ r.stop := by simpa [readsNothing] using h
    exact if_pos hle

theorem requestOf_get {range : Option ByteRange} (h : readsNothing range = false)
    (bucket key : String) :
    requestOf (.get bucket key range) = .ok (some (readRequest bucket key range)) := by
  cases range with
  | none => rfl
  | some r =>
    have hlt : ¬ r.start ≥ r.stop := by simpa [readsNothing] using h
    exact if_neg hlt

namespace Client

/-- What a client needs to send requests about the objects of a bucket at once: a key to sign with,
a route that takes no session, and a bucket with a name. -/
structure ReachesBucket (client : Client) (bucket : String) : Prop where
  signs : client.accessKey.isSome = true
  routed : ∃ route, client.route? (some bucket) = some route ∧ route.session = false
  named : isBlankText bucket = false

variable {client : Client} {bucket key : String} {range : Option ByteRange}

theorem ReachesBucket.reaches (h : client.ReachesBucket bucket) (hkey : isBlankText key = false) :
    client.Reaches bucket key :=
  ⟨h.signs, h.routed, by simp [isSubject, isKey, h.named, hkey]⟩

/-- A request about an object without a name is not sent. -/
theorem dispatch_of_blank (hkey : isBlankText key = true) (range : Option ByteRange) :
    client.dispatch (readRequest bucket key range) = .refused := by
  have hunsound : isSound (readRequest bucket key range) = false := by
    have hcopy : (readRequest bucket key range).isPartCopy = false := by
      cases range with
      | none => rfl
      | some r => rfl
    rw [isSound, hcopy]
    simp [readRequest, isSubject, isKey, hkey]
  unfold dispatch
  split
  · simp [hunsound]
  · rfl

/-- **Where nothing is to be read**, the answer is given without a request. -/
theorem answer_get_nothing (transport : Transport τ) (t : τ) (h : readsNothing range = true) :
    client.answer transport (.get bucket key range) t = (.ok [], t) := by
  simp only [answer, requestOf_get_nothing h]
  rfl

theorem answer_get_blank (transport : Transport τ) (t : τ) (h : readsNothing range = false)
    (hkey : isBlankText key = true) :
    client.answer transport (.get bucket key range) t =
      (.error (.internal (.requestFailed "GetObject" bucket key)), t) := by
  simp only [answer, requestOf_get h, dispatch_of_blank hkey]
  rfl

/-- Where something is to be read of an object in reach, its request is sent. -/
theorem answer_get_sent (transport : Transport τ) (t : τ) (hreach : client.Reaches bucket key)
    (h : readsNothing range = false) :
    ∃ signed, signed.request.Reads bucket key ∧
      signed.request.headers = (range.toList.map fun r => ("range", rangeText r)) ∧
      (client.answer transport (.get bucket key range) t).1 =
        readReply (.get bucket key range) (transport (.get bucket key range) signed t).1 := by
  have hcall := requestOf_get h bucket key
  obtain ⟨signed, hrequest, hsent⟩ := hreach.sends hcall rfl rfl (by
    simp [readRequest, isHeaderText_rangeText])
  have hsigned : signed.request = readRequest bucket key range := by
    rw [hcall] at hrequest
    exact (Option.some.inj (Except.ok.inj hrequest)).symm
  refine ⟨signed, ?_, by rw [hsigned, readRequest], ?_⟩
  · rw [hsigned]
    exact ⟨rfl, rfl, rfl⟩
  · simp only [answer, hrequest, hsent]

section Served

variable {transport : Transport τ} {objects : Bucket}
  (hserves : ServesReads transport bucket objects) (hreach : client.Reaches bucket key)
  (h : readsNothing range = false)
include hserves hreach h

/-- **An object that is there** is answered as far as it was asked for. -/
theorem answer_get_found (t : τ) {o : ObjectRecord} (ho : objects.get? key = some o)
    (hrange : o.Within range) :
    (client.answer transport (.get bucket key range) t).1 = .ok (o.read range) := by
  obtain ⟨signed, hreads, hheaders, hanswer⟩ := answer_get_sent transport t hreach h
  rw [hanswer]
  cases range with
  | none =>
    rw [hserves.whole none t hreads ho (by rw [hheaders]; rfl)]
    rfl
  | some r =>
    obtain ⟨-, hstop⟩ := hrange r rfl
    have hlt : r.start < r.stop := by simpa [readsNothing] using h
    have hheader : signed.request.headers.lookup "range" =
        some s!"bytes={r.start}-{r.stop - 1}" := by
      rw [hheaders]
      rfl
    rw [hserves.inclusive (some r) t hreads ho hheader (by omega) (by omega),
      Nat.sub_add_cancel (by omega)]
    rfl

theorem answer_get_missing (t : τ) (hkey : objects.get? key = none) :
    (client.answer transport (.get bucket key range) t).1 = .error (.notFound bucket key) := by
  obtain ⟨signed, hreads, -, hanswer⟩ := answer_get_sent transport t hreach h
  obtain ⟨failure, hfailure, hcode⟩ := hserves.missing range t hreads hkey
  rw [hanswer, hfailure]
  have hmissing : failure.codeOf = some "NoSuchKey" := by rw [ServiceFailure.codeOf, hcode]; rfl
  simp [readReply, errorOf, hmissing, missingCodes, blamed]

end Served

end Client

/-! ## Both -/

/-- **Reads agree between a store in memory and a service** over the same objects, wherever the
range is within the object.  The store answers by the bytes of the object that is there, and reports
one that is not.  The client answers alike, but for two cases: it does not look for an object of
which nothing is to be read, and cannot ask for one whose key is blank. -/
theorem get_agrees_iff {client : Client} {transport : Transport τ} {s : Store} {bucket : String}
    {objects : Bucket} (hb : s.bucket? bucket = some objects)
    (hreach : client.ReachesBucket bucket) (hserves : ServesReads transport bucket objects)
    (key : String) {range : Option ByteRange}
    (hrange : ∀ o, objects.get? key = some o → o.Within range) (t : τ) :
    (s.get bucket key range =
      match objects.get? key with
      | some o => .ok (o.read range)
      | none => .error (.notFound bucket key)) ∧
    ((client.answer transport (.get bucket key range) t).1 = s.get bucket key range ↔
      if readsNothing range then (objects.get? key).isSome = true
      else isBlankText key = false) := by
  have hstore : s.get bucket key range =
      match objects.get? key with
      | some o => .ok (o.read range)
      | none => .error (.notFound bucket key) := by
    cases ho : objects.get? key with
    | some o => exact Store.get_found hb ho (hrange o ho)
    | none => exact Store.get_missing hb ho range
  refine ⟨hstore, ?_⟩
  rw [hstore]
  cases hnothing : readsNothing range with
  | true =>
    rw [Client.answer_get_nothing transport t hnothing, if_pos rfl]
    cases objects.get? key with
    | some o => simp [ObjectRecord.read_of_nothing hnothing]
    | none => simp
  | false =>
    rw [if_neg (by simp)]
    cases hkey : isBlankText key with
    | true =>
      rw [Client.answer_get_blank transport t hnothing hkey]
      cases objects.get? key with
      | some o => simp
      | none => simp
    | false =>
      have hobject := hreach.reaches hkey
      cases ho : objects.get? key with
      | some o =>
        simp [Client.answer_get_found hserves hobject hnothing t ho (hrange o ho)]
      | none =>
        simp [Client.answer_get_missing hserves hobject hnothing t ho]

/-- The last three of four bytes. -/
theorem get_agrees_iff_last :
    let client : Client := ⟨⟨"us-east-1", some "http://localhost:4566", true⟩, some "test"⟩
    let objects : Bucket := KeyMap.empty.insert "k" ⟨[1, 2, 3, 4], "e", .epoch, .byDefault⟩
    let transport : Transport Unit := bucketReads objects
    let s : Store := (Store.new 1000 .epoch).setBucket "b" objects
    s.bucket? "b" = some objects ∧ client.ReachesBucket "b" ∧
      ServesReads transport "b" objects ∧
      (∀ o, objects.get? "k" = some o → o.Within (some ⟨1, 4⟩)) ∧
      s.get "b" "k" (some ⟨1, 4⟩) = .ok [2, 3, 4] ∧
      (client.answer transport (.get "b" "k" (some ⟨1, 4⟩)) ()).1 =
        s.get "b" "k" (some ⟨1, 4⟩) := by
  intro client objects transport s
  have hb : s.bucket? "b" = some objects := rfl
  have hreach : client.ReachesBucket "b" :=
    ⟨rfl, Option.map_eq_some_iff.1
      (show (client.route? (some "b")).map (·.session) = some false by decide +kernel), by decide⟩
  have hobject : ∀ key o, objects.get? key = some o → o.data = [1, 2, 3, 4] := by
    intro key o ho
    have hmem := KeyMap.get?_eq_some_iff.1 ho
    obtain ⟨-, rfl⟩ := Prod.mk.inj (List.mem_singleton.1 hmem)
    rfl
  have hserves : ServesReads transport "b" objects :=
    serves_bucketReads "b" fun key o ho => by rw [hobject key o ho]; decide
  have hrange : ∀ o, objects.get? "k" = some o → o.Within (some ⟨1, 4⟩) := by
    rintro o ho r ⟨⟩
    rw [hobject "k" o ho]
    decide
  obtain ⟨hstore, hagree⟩ := get_agrees_iff hb hreach hserves "k" hrange ()
  exact ⟨hb, hreach, hserves, hrange, hstore, hagree.2 rfl⟩

/-- No byte of an object that is not there: the client answers by none, where the store reports that
the object is missing. -/
theorem get_nothing_of_missing :
    let client : Client := ⟨⟨"us-east-1", some "http://localhost:4566", true⟩, some "test"⟩
    let transport : Transport Unit := bucketReads .empty
    let s : Store := (Store.new 1000 .epoch).setBucket "b" .empty
    s.bucket? "b" = some .empty ∧ client.ReachesBucket "b" ∧ ServesReads transport "b" .empty ∧
      (client.answer transport (.get "b" "k" (some ⟨0, 0⟩)) ()).1 = .ok [] ∧
      s.get "b" "k" (some ⟨0, 0⟩) = .error (.notFound "b" "k") := by
  intro client transport s
  have hreach : client.ReachesBucket "b" :=
    ⟨rfl, Option.map_eq_some_iff.1
      (show (client.route? (some "b")).map (·.session) = some false by decide +kernel), by decide⟩
  have hserves : ServesReads transport "b" .empty :=
    serves_bucketReads "b" fun _ _ ho => by cases ho
  exact ⟨rfl, hreach, hserves, rfl, rfl⟩

end Remote

end BucketFs
