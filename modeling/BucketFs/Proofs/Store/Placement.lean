import BucketFs.Proofs.Store.Isolation
import Mathlib.Algebra.GroupWithZero.Nat

/-!
# Where the parts of an object stand

A completion strings the bytes of the listed parts together.  Each part declares a range, and each
range begins where the one before it stops.

* `SentPart.setback` — how far the range of a part runs backwards; such a range declares no byte.
* `Adjacent.slice_eq` — as long as no range runs backwards, every part stands at its range.
* `Adjacent.length_eq` — an object is longer than its last part declares by all setbacks before.
* `Store.assembled_in_place` — so an object has its parts in place just when no range runs
  backwards.
* `Store.assembled_out_of_place` — a store does take a part whose range runs backwards.
-/

namespace BucketFs

/-- How far the range of a part runs backwards. -/
def SentPart.setback (part : SentPart) : Nat := part.range.start - part.range.stop

/-- Whether a part has as many bytes as its range. -/
def SentPart.Fits (part : SentPart) : Prop := part.range.stop - part.range.start = part.data.length

/-- Whether each part stands in a content at its range, and the content ends with the last part. -/
structure InPlace (content : Bytes) (chosen : List SentPart) : Prop where
  parts : ∀ part ∈ chosen, part.range.stop ≤ content.length ∧
    content.slice part.range.start part.range.stop = part.data
  length : ∀ last, chosen.getLast? = some last → content.length = last.range.stop

section Adjacent

variable {chosen : List SentPart}

/-- **The length of adjacent parts**: up to the end of the last one, and all setbacks on top. -/
theorem Adjacent.length_eq : ∀ {offset : Nat}, Adjacent offset chosen →
    (∀ part ∈ chosen, part.Fits) →
    offset + (chosen.flatMap (·.data)).length =
      (chosen.getLast?.map (·.range.stop)).getD offset + (chosen.map SentPart.setback).sum := by
  induction chosen with
  | nil => intro offset _ _; rfl
  | cons part rest ih =>
    intro offset h hfits
    obtain ⟨hstart, hrest⟩ := h
    have hfit : part.range.stop - part.range.start = part.data.length :=
      hfits part List.mem_cons_self
    have hlater := ih hrest fun q hq => hfits q (List.mem_cons_of_mem _ hq)
    have hlast : ((part :: rest).getLast?.map (·.range.stop)).getD offset =
        (rest.getLast?.map (·.range.stop)).getD part.range.stop := by
      rw [List.getLast?_cons]
      cases rest.getLast? <;> rfl
    rw [hlast, List.flatMap_cons, List.length_append, List.map_cons, List.sum_cons,
      SentPart.setback]
    omega

/-- **Adjacent parts stand at their ranges**, behind whatever fills the place before them, as long
as no range runs backwards. -/
theorem Adjacent.slice_eq : ∀ {before : Bytes}, Adjacent before.length chosen →
    (∀ part ∈ chosen, part.Fits) → (∀ part ∈ chosen, part.range.start ≤ part.range.stop) →
    ∀ part ∈ chosen, part.range.stop ≤ (before ++ chosen.flatMap (·.data)).length ∧
      (before ++ chosen.flatMap (·.data)).slice part.range.start part.range.stop = part.data := by
  induction chosen with
  | nil => intro before _ _ _ part hpart; cases hpart
  | cons first rest ih =>
    intro before h hfits hforward
    obtain ⟨hstart, hrest⟩ := h
    have hfit : first.range.stop - first.range.start = first.data.length :=
      hfits first List.mem_cons_self
    have hle := hforward first List.mem_cons_self
    intro part hpart
    rcases List.mem_cons.1 hpart with rfl | hpart
    · rw [List.flatMap_cons, Bytes.slice, hfit, hstart, List.drop_left, List.take_left]
      refine ⟨?_, rfl⟩
      simp only [List.length_append]
      omega
    · have hlength : first.range.stop = (before ++ first.data).length := by
        rw [List.length_append]
        omega
      rw [hlength] at hrest
      have hlater := ih hrest (fun q hq => hfits q (List.mem_cons_of_mem _ hq))
        (fun q hq => hforward q (List.mem_cons_of_mem _ hq)) part hpart
      rwa [List.append_assoc, ← List.flatMap_cons] at hlater

/-- **Adjacent parts are in place just when no range runs backwards.** -/
theorem Adjacent.inPlace_iff (h : Adjacent 0 chosen) (hfits : ∀ part ∈ chosen, part.Fits) :
    InPlace (chosen.flatMap (·.data)) chosen ↔
      ∀ part ∈ chosen, part.range.start ≤ part.range.stop := by
  have hlength := h.length_eq hfits
  have hsum : (chosen.map SentPart.setback).sum = 0 ↔
      ∀ part ∈ chosen, part.range.start ≤ part.range.stop := by
    simp only [List.sum_eq_zero_iff_forall_eq_nat, List.forall_mem_map,
      SentPart.setback, Nat.sub_eq_zero_iff_le]
  constructor
  · intro hplaced part hpart
    have hlast := List.getLast?_eq_some_getLast (List.ne_nil_of_mem hpart)
    have hend := hplaced.length _ hlast
    rw [hlast, Option.map_some, Option.getD_some] at hlength
    exact hsum.1 (by omega) part hpart
  · intro hforward
    have hbegin : Adjacent ([] : Bytes).length chosen := h
    have hparts := hbegin.slice_eq hfits hforward
    refine ⟨hparts, fun last hlast => ?_⟩
    rw [hsum.2 hforward, hlast, Option.map_some, Option.getD_some] at hlength
    omega

end Adjacent

namespace Store

variable {steps later : List StoreStep} {pageLimit : Nat} {now : Timestamp} {bucket key : String}
  {acl : Option Acl} {handle : UploadHandle} {s' : Store}

/-- **An assembled object has every part at the range that the part declared**, and ends with the
last part, just when no listed part has a range that runs backwards.  The parts are those that the
history sent last to the session, whatever calls it made besides and however they were answered. -/
theorem assembled_in_place
    (hbegins : (new pageLimit now).Begins steps bucket key acl handle s' later)
    {naming : UploadHandle} (hnaming : naming.uploadId = handle.uploadId)
    {parts : List FinishedPart}
    (hok : (((new pageLimit now).replay steps).complete naming parts).1 = .ok ()) :
    ∃ chosen content,
      List.Forall₂ (fun p part => lastSent? handle.uploadId p.number s' later = some part) parts
        chosen ∧
      (((new pageLimit now).replay steps).complete naming parts).2.content? bucket key =
        some content ∧
      (InPlace content chosen ↔ ∀ part ∈ chosen, part.range.start ≤ part.range.stop) := by
  obtain ⟨n, hn, hid, hregular', hholds⟩ := hbegins.holds (regular_new pageLimit now)
  have hregular : ((new pageLimit now).replay steps).Regular :=
    (regular_new pageLimit now).replay steps
  rw [hbegins.replay_eq] at hok hregular ⊢
  rw [hid] at hnaming ⊢
  -- a session that is settled is not completed any more
  have hopen : ¬ Settled (uploadId n) s' later := by
    intro hsettled
    obtain ⟨e, herror⟩ := (settledContract_of_gone (settled_replay hregular' hn hsettled)).complete
      naming parts hnaming
    rw [herror] at hok
    cases hok
  have hlatest := hholds.replay hregular' hn hopen
  simp only [Option.or_none] at hlatest
  have hcontract := hlatest.contract hregular (lastSent?_zero _ _ _)
  obtain ⟨chosen, hchosen⟩ := (hcontract.completes naming parts hnaming).1 hok
  have hsent : List.Forall₂ (fun p part => lastSent? (uploadId n) p.number s' later = some part)
      parts chosen := hchosen.latest.imp fun p part hnames => hnames.1
  have hfits : ∀ part ∈ chosen, part.Fits :=
    ((List.forall₂_and_left _ _).1 (hsent.flip.imp fun part p hp =>
      And.intro (accepted_of_lastSent? hp).2 hp)).1
  exact ⟨chosen, chosen.flatMap (·.data), hsent,
    (hcontract.writes naming parts chosen hnaming hchosen).content,
    hchosen.adjacent.inPlace_iff hfits⟩

/-- A part that is sent, one that is refused for its length, and one in its place that is copied. -/
theorem assembled_in_place_copied :
    let handle : UploadHandle := ⟨"b", "k", uploadId 0⟩
    let before := [.addObject "b" "source" [1, 2, 3]]
    let later := [.call (.uploadPart handle 1 ⟨0, 2⟩ [8, 9]),
      .call (.uploadPart handle 2 ⟨2, 5⟩ [7]), .call (.copyPart handle 2 ⟨2, 3⟩ "b" "source")]
    let steps := before ++ .call (.initiate "b" "k" none) :: later
    let s := (new 1000 .epoch).replay steps
    let s' := (((new 1000 .epoch).replay before).initiate "b" "k" none).2
    let parts := [⟨1, Etag.ofContent [8, 9]⟩, ⟨2, Etag.ofContent [3]⟩]
    (new 1000 .epoch).Begins steps "b" "k" none handle s' later ∧
      (s.complete handle parts).1 = .ok () ∧
      ∃ chosen content, (s.complete handle parts).2.content? "b" "k" = some content ∧
        chosen.map (·.range) = [⟨0, 2⟩, ⟨2, 3⟩] ∧ InPlace content chosen := by
  intro handle before later steps s s' parts
  have hbegun : (((new 1000 .epoch).replay before).initiate "b" "k" none).1 = .ok handle := by
    decide +kernel
  have hbegins : (new 1000 .epoch).Begins steps "b" "k" none handle s' later :=
    ⟨before, rfl, Prod.ext hbegun rfl⟩
  have hok : (s.complete handle parts).1 = .ok () := by decide +kernel
  obtain ⟨chosen, content, hsent, hcontent, hplaced⟩ := assembled_in_place hbegins rfl hok
  have hfirst : lastSent? handle.uploadId 1 s' later =
      some ⟨⟨0, 2⟩, [8, 9], Etag.ofContent [8, 9]⟩ := by decide +kernel
  have hsecond : lastSent? handle.uploadId 2 s' later =
      some ⟨⟨2, 3⟩, [3], Etag.ofContent [3]⟩ := by decide +kernel
  obtain ⟨part₁, rest, hpart₁, hrest, rfl⟩ := List.forall₂_cons_left_iff.1 hsent
  obtain ⟨part₂, last, hpart₂, hlast, rfl⟩ := List.forall₂_cons_left_iff.1 hrest
  obtain rfl := List.forall₂_nil_left_iff.1 hlast
  obtain rfl := Option.some.inj (hfirst.symm.trans hpart₁)
  obtain rfl := Option.some.inj (hsecond.symm.trans hpart₂)
  exact ⟨hbegins, hok, _, content, hcontent, rfl, hplaced.2 (by decide)⟩

/-- A part without bytes whose range runs backwards is taken, and the part behind it, which declares
the range `1..2`, stands at `2..3`. -/
theorem assembled_out_of_place :
    let handle : UploadHandle := ⟨"b", "k", uploadId 0⟩
    let before := [.makeBucket "b"]
    let later := [.call (.uploadPart handle 1 ⟨0, 2⟩ [97, 98]),
      .call (.uploadPart handle 2 ⟨2, 1⟩ []), .call (.uploadPart handle 3 ⟨1, 2⟩ [99])]
    let steps := before ++ .call (.initiate "b" "k" none) :: later
    let s := (new 1000 .epoch).replay steps
    let s' := (((new 1000 .epoch).replay before).initiate "b" "k" none).2
    let parts := [⟨1, Etag.ofContent [97, 98]⟩, ⟨2, Etag.ofContent []⟩, ⟨3, Etag.ofContent [99]⟩]
    (new 1000 .epoch).Begins steps "b" "k" none handle s' later ∧
      (s.complete handle parts).1 = .ok () ∧
      (s.complete handle parts).2.content? "b" "k" = some [97, 98, 99] ∧
      lastSent? handle.uploadId 3 s' later = some ⟨⟨1, 2⟩, [99], Etag.ofContent [99]⟩ ∧
      Bytes.slice [97, 98, 99] 1 2 ≠ [99] ∧ Bytes.slice [97, 98, 99] 2 3 = [99] := by
  intro handle before later steps s s' parts
  have hbegun : (((new 1000 .epoch).replay before).initiate "b" "k" none).1 = .ok handle := by
    decide +kernel
  exact ⟨⟨before, rfl, Prod.ext hbegun rfl⟩, by decide +kernel, by decide +kernel,
    by decide +kernel, by decide, by decide⟩

end Store

end BucketFs
