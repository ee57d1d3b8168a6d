import BucketFs.Proofs.Result
import BucketFs.Proofs.Transfer.Plan
import BucketFs.Transfer.SessionBook
import Mathlib.Data.List.Basic

/-!
# The book of a session

The tags of a session stand in the places of its parts.  For consecutive parts, a book is therefore
a plan with a tag or none for each of its parts.

* `finishFrom_eq_ok_iff` — parts can be listed just when they are consecutive and all have a tag.
* `set_tag` — noting a tag sets it for its part and for no other.
-/

namespace BucketFs

open PlannedPart

/-- **Parts can be listed** just when they are consecutive and every one of them has a tag; the list
then has them in order, each with its tag. -/
theorem finishFrom_eq_ok_iff {size : Nat} {entries : List (PlannedPart × Option String)}
    {list : List FinishedPart} : ∀ {index offset : Nat},
    SessionBook.finishFrom size index offset entries = .ok list ↔
      Consecutive size index offset (entries.map (·.1)) ∧
      list.map (·.number) = entries.map (·.1.number) ∧
      list.map (fun f => some f.etag) = entries.map (·.2) := by
  induction entries generalizing list with
  | nil =>
    intro index offset
    rw [SessionBook.finishFrom]
    split
    · rename_i hend
      cases list <;> simp [Consecutive, hend]
    · rename_i hend
      simp [Consecutive, hend]
  | cons entry rest ih =>
    intro index offset
    obtain ⟨part, etag?⟩ := entry
    rw [List.map_cons, Consecutive]
    unfold SessionBook.finishFrom
    split
    · rename_i hnumber
      simp [hnumber]
    · rename_i hnumber
      split
      · rename_i hplace
        constructor
        · intro h
          cases h
        · rintro ⟨⟨-, hstart, hlt, -⟩, -⟩
          dsimp only at hstart hlt
          omega
      · rename_i hplace
        have hplaced : part.range.start = offset ∧ offset < part.range.stop := by omega
        cases etag? with
        | none => cases list <;> simp
        | some etag =>
          dsimp only
          rw [Result.map_eq_ok_iff]
          constructor
          · rintro ⟨later, hlater, rfl⟩
            obtain ⟨hcovers, hnumbers, htags⟩ := ih.1 hlater
            exact ⟨⟨Decidable.not_not.1 hnumber, hplaced.1, hplaced.2, hcovers⟩,
              congrArg _ hnumbers, congrArg _ htags⟩
          · rintro ⟨⟨-, -, -, hcovers⟩, hnumbers, htags⟩
            cases list with
            | nil => cases hnumbers
            | cons f later =>
              obtain ⟨number, tag⟩ := f
              simp only [List.map_cons, List.cons.injEq, Option.some.injEq] at hnumbers htags
              obtain ⟨rfl, hnumbers⟩ := hnumbers
              obtain ⟨rfl, htags⟩ := htags
              exact ⟨later, ih.2 ⟨hcovers, hnumbers, htags⟩, rfl⟩

/-- The tags with one of them set. -/
def setTag (tag? : PlannedPart → Option String) (part : PlannedPart) (etag : String) :
    PlannedPart → Option String :=
  fun p => if p = part then some etag else tag? p

/-- The list of parts that have a tag, each with it. -/
def tagged (tag? : PlannedPart → Option String) (ps : List PlannedPart) : List FinishedPart :=
  ps.filterMap fun p => (tag? p).map fun etag => ⟨p.number, etag⟩

section Tags

variable {size index offset : Nat} {ps : List PlannedPart} {tag? : PlannedPart → Option String}

theorem set_tag (h : Consecutive size index offset ps) {part : PlannedPart} (hpart : part ∈ ps)
    (etag : String) :
    (ps.map tag?).set (part.number - index - 1) (some etag) = ps.map (setTag tag? part etag) := by
  induction ps generalizing index offset with
  | nil => cases hpart
  | cons p rest ih =>
    have hnodup := (List.nodup_cons.1 h.nodup).1
    obtain ⟨hnumber, -, -, hrest⟩ := h
    rcases List.mem_cons.1 hpart with rfl | hpart
    · have hkeep : rest.map tag? = rest.map (setTag tag? part etag) := by
        refine List.map_congr_left fun q hq => ?_
        rw [setTag, if_neg]
        rintro rfl
        exact hnodup hq
      rw [show part.number - index - 1 = 0 by omega, List.map_cons, List.map_cons,
        List.set_cons_zero, hkeep, setTag, if_pos rfl]
    · have hbehind := hrest.number_mem hpart
      have hne : p ≠ part := by
        rintro rfl
        exact hnodup hpart
      rw [show part.number - index - 1 = part.number - (index + 1) - 1 + 1 by omega, List.map_cons,
        List.map_cons, List.set_cons_succ, ih hrest hpart, setTag, if_neg hne]

theorem tagged_eq (htags : ∀ p ∈ ps, ∃ etag, tag? p = some etag) :
    tagged tag? ps = ps.map fun p => ⟨p.number, (tag? p).getD ""⟩ := by
  refine List.filterMap_eq_map_iff_forall_eq_some.2 fun p hp => ?_
  obtain ⟨etag, hetag⟩ := htags p hp
  rw [hetag, Option.map_some, Option.getD_some]

theorem tagged_numbers (htags : ∀ p ∈ ps, ∃ etag, tag? p = some etag) :
    (tagged tag? ps).map (·.number) = ps.map (·.number) := by
  rw [tagged_eq htags, List.map_map]
  rfl

/-- The parts are listed with their tags when every one of them has a tag. -/
theorem finishFrom_eq_ok (h : Consecutive size index offset ps)
    (htags : ∀ p ∈ ps, ∃ etag, tag? p = some etag) :
    SessionBook.finishFrom size index offset (ps.zip (ps.map tag?)) = .ok (tagged tag? ps) := by
  have hlength : ps.length = (ps.map tag?).length := by rw [List.length_map]
  have hparts : (ps.zip (ps.map tag?)).map (·.1) = ps := List.map_fst_zip (Nat.le_of_eq hlength)
  refine finishFrom_eq_ok_iff.2 ⟨hparts.symm ▸ h, ?_, ?_⟩
  · rw [tagged_numbers htags, ← congrArg (List.map PlannedPart.number) hparts, List.map_map]
    rfl
  · rw [List.map_snd_zip (Nat.le_of_eq hlength.symm), tagged_eq htags, List.map_map]
    refine List.map_congr_left fun p hp => ?_
    obtain ⟨etag, hetag⟩ := htags p hp
    simp [hetag]

theorem mem_tagged {f : FinishedPart} :
    f ∈ tagged tag? ps ↔ ∃ p ∈ ps, p.number = f.number ∧ tag? p = some f.etag := by
  rw [tagged, List.mem_filterMap]
  constructor
  · rintro ⟨p, hp, h⟩
    obtain ⟨etag, hetag, rfl⟩ := Option.map_eq_some_iff.1 h
    exact ⟨p, hp, rfl, hetag⟩
  · rintro ⟨p, hp, hnumber, hetag⟩
    exact ⟨p, hp, by rw [hetag, Option.map_some, hnumber]⟩

end Tags

namespace SessionBook

/-- A book of a plan while parts are being sent, with the tags noted so far. -/
structure InFlight (s : SessionBook) (handle : UploadHandle) (size : Nat) (plan : List PlannedPart)
    (tag? : PlannedPart → Option String) : Prop where
  handle_eq : s.handle = handle
  size_eq : s.size = size
  parts_eq : s.parts = plan
  etags_eq : s.etags = plan.map tag?
  phase_eq : s.phase = .partsInFlight

variable {s : SessionBook} {handle : UploadHandle} {size : Nat} {plan : List PlannedPart}
  {tag? : PlannedPart → Option String}

theorem startSending_start (handle : UploadHandle) (size : Nat) (plan : List PlannedPart) :
    ∃ s, (start handle size plan).startSending = .ok s ∧
      s.InFlight handle size plan fun _ => none :=
  ⟨{ start handle size plan with phase := .partsInFlight }, rfl, rfl, rfl, rfl,
    List.map_const'.symm, rfl⟩

/-- A part of the plan can be noted while parts are being sent. -/
theorem InFlight.note (h : s.InFlight handle size plan tag?) (hplan : Consecutive size 0 0 plan)
    {part : PlannedPart} (hpart : part ∈ plan) (etag : String) :
    ∃ s', s.note part.number etag = .ok s' ∧
      s'.InFlight handle size plan (setTag tag? part etag) := by
  have hnumber := hplan.number_mem hpart
  have hlen : s.etags.length = plan.length := by rw [h.etags_eq, List.length_map]
  refine ⟨{ s with etags := s.etags.set (part.number - 1) (some etag) }, ?_, h.handle_eq,
    h.size_eq, h.parts_eq, ?_, h.phase_eq⟩
  · rw [SessionBook.note, if_neg (by rw [h.phase_eq]; exact fun hne => hne rfl),
      if_neg (by omega)]
  · rw [h.etags_eq]
    exact set_tag hplan hpart etag

theorem InFlight.finishedParts (h : s.InFlight handle size plan tag?)
    (hplan : Consecutive size 0 0 plan) (htags : ∀ p ∈ plan, ∃ etag, tag? p = some etag) :
    s.finishedParts = .ok (tagged tag? plan) := by
  rw [SessionBook.finishedParts, h.size_eq, h.parts_eq, h.etags_eq]
  exact finishFrom_eq_ok hplan htags

theorem InFlight.finish (h : s.InFlight handle size plan tag?) : ∃ s', s.finish = .ok s' :=
  ⟨_, if_pos (by rw [h.phase_eq]; exact List.mem_singleton_self _)⟩

end SessionBook

end BucketFs
