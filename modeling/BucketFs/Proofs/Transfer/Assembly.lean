import BucketFs.Proofs.Transfer.Book
import BucketFs.Store.Answer

/-!
# What a store assembles from the parts of a plan

* `flatMap_slices` — the slices of consecutive parts make up the content.
* `keepPart_eq_ok` — a part of an open session is kept when it carries the bytes of its range.
* `assemble_plan` — a session that holds the slices of a plan assembles the content.
-/

namespace BucketFs

open PlannedPart

/-! ## Slices -/

theorem Bytes.length_slice {content : Bytes} {start stop : Nat} (hstop : stop ≤ content.length) :
    (content.slice start stop).length = stop - start := by
  rw [slice, List.length_take, List.length_drop]
  omega

/-- The bytes of a part. -/
def slicePart (content : Bytes) (p : PlannedPart) : Bytes :=
  content.slice p.range.start p.range.stop

/-- What a store keeps of a part. -/
def storedPart (content : Bytes) (p : PlannedPart) : SentPart :=
  ⟨p.range, slicePart content p, Etag.ofContent (slicePart content p)⟩

/-- **The slices of consecutive parts** make up the content from the first of them on. -/
theorem flatMap_slices (content : Bytes) {ps : List PlannedPart} :
    ∀ {index offset : Nat}, Consecutive content.length index offset ps →
      ps.flatMap (slicePart content) = content.drop offset := by
  induction ps with
  | nil =>
    intro index offset h
    rw [show offset = content.length from h, List.drop_length]
    rfl
  | cons p rest ih =>
    intro index offset h
    obtain ⟨-, hstart, hlt, hrest⟩ := h
    have hstop : p.range.stop = offset + (p.range.stop - offset) := by omega
    calc (p :: rest).flatMap (slicePart content)
        = (content.drop offset).take (p.range.stop - offset) ++ content.drop p.range.stop := by
          rw [List.flatMap_cons, ih hrest, slicePart, Bytes.slice, hstart]
      _ = (content.drop offset).take (p.range.stop - offset) ++
            (content.drop offset).drop (p.range.stop - offset) := by
          rw [List.drop_drop, ← hstop]
      _ = content.drop offset := List.take_append_drop _ _

/-! ## Sessions -/

theorem OpenSession.part?_setPart (u : OpenSession) (number : Nat) (part : SentPart) (m : Nat) :
    (u.setPart number part).part? m = if m = number then some part else u.part? m := by
  have hkept : ∀ l : List (Nat × SentPart), m ≠ number →
      (l.filter fun p => p.1 ≠ number).lookup m = l.lookup m := by
    intro l hm
    induction l with
    | nil => rfl
    | cons p rest ih =>
      obtain ⟨n, q⟩ := p
      by_cases hn : n = number
      · subst hn
        rw [List.filter_cons_of_neg (by simp), ih, List.lookup_cons, beq_false_of_ne hm]
      · rw [List.filter_cons_of_pos (by simpa using hn), List.lookup_cons, List.lookup_cons, ih]
  rw [setPart, part?, List.lookup_cons]
  by_cases hm : m = number
  · rw [hm, beq_self_eq_true, if_pos rfl]
  · rw [beq_false_of_ne hm, if_neg hm]
    exact hkept u.parts hm

namespace Store

theorem keepPart_eq_ok {s : Store} {handle : UploadHandle} {u : OpenSession} {number : Nat}
    {range : ByteRange} {data : Bytes} (hu : s.uploads.get? handle.uploadId = some u)
    (hnumber : number ≠ 0) (hlength : range.stop - range.start = data.length) :
    s.keepPart handle number range data =
      (.ok (Etag.ofContent data),
        { s with
          uploads := s.uploads.insert handle.uploadId
            (u.setPart number ⟨range, data, Etag.ofContent data⟩) }) := by
  rw [keepPart, if_neg hnumber, if_neg (fun hne => hne hlength), hu]

variable {u : OpenSession} {content : Bytes} {ps : List PlannedPart}

theorem selectParts_plan {size : Nat} : ∀ {index offset : Nat},
    Consecutive size index offset ps →
    (∀ p ∈ ps, u.part? p.number = some (storedPart content p)) →
    selectParts u index offset
        (ps.map fun p => ⟨p.number, Etag.ofContent (slicePart content p)⟩) =
      .ok (ps.map (storedPart content)) := by
  induction ps with
  | nil => intro index offset _ _; rfl
  | cons p rest ih =>
    intro index offset h hkept
    obtain ⟨hnumber, hstart, hlt, hrest⟩ := h
    rw [List.map_cons, selectParts, if_neg (show ¬ p.number ≤ index by omega),
      hkept p List.mem_cons_self]
    dsimp only
    rw [if_neg (fun hne => hne rfl), if_neg (fun hne => hne hstart), hnumber]
    have hlater := ih hrest fun q hq => hkept q (List.mem_cons_of_mem _ hq)
    rw [show (storedPart content p).range.stop = p.range.stop from rfl, hlater]
    rfl

/-- **A session that holds the slices of a plan** assembles the content. -/
theorem assemble_plan (hplan : Consecutive content.length 0 0 ps) (hne : ps ≠ [])
    (hkept : ∀ p ∈ ps, u.part? p.number = some (storedPart content p)) :
    ∃ etag, assemble u (ps.map fun p => ⟨p.number, Etag.ofContent (slicePart content p)⟩) =
      .ok (content, etag) := by
  refine ⟨Etag.ofParts ((ps.map (storedPart content)).map (·.etag)), ?_⟩
  have hdata : (ps.map (storedPart content)).flatMap (·.data) = content := by
    rw [List.flatMap_map]
    exact flatMap_slices content hplan
  rw [assemble, if_neg (by simpa using hne), selectParts_plan hplan hkept, Except.map, hdata]

end Store

end BucketFs
