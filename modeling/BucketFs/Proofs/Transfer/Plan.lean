import BucketFs.Transfer.Plan
import Mathlib.Algebra.Group.Nat.Defs
import Mathlib.Data.List.Nodup

/-!
# Part plans

* `Consecutive` — parts that are numbered in order, are not empty and lead without a gap from one
  place to another.
* `parts_eq` — an object has a plan exactly if the end of its last part is a position before it is
  cut off; otherwise the sum overflows.
* `consecutive_of_parts` — a plan leads from the start of its object to its end.
-/

namespace BucketFs

namespace PlannedPart

/-! ## Rounding up -/

theorem lt_ceilDiv_iff {size chunk i : Nat} (hchunk : 0 < chunk) :
    i < ceilDiv size chunk ↔ i * chunk < size := by
  have hdiv := Nat.div_add_mod' size chunk
  rw [ceilDiv]
  split
  · rename_i hmod
    rw [hmod, Nat.add_zero] at hdiv
    rw [← Nat.mul_lt_mul_right hchunk, hdiv]
  · rename_i hmod
    rw [Nat.lt_succ_iff, Nat.le_div_iff_mul_le hchunk]
    constructor
    · intro h
      refine Nat.lt_of_le_of_ne h fun heq => hmod ?_
      rw [← heq, Nat.mul_mod_left]
    · exact Nat.le_of_lt

theorem le_ceilDiv_mul (size : Nat) {chunk : Nat} (hchunk : 0 < chunk) :
    size ≤ ceilDiv size chunk * chunk := by
  rw [← Nat.not_lt, ← lt_ceilDiv_iff hchunk]
  exact Nat.lt_irrefl _

/-- The last part begins inside the object. -/
theorem ceilDiv_mul_lt (size : Nat) {chunk : Nat} (hchunk : 0 < chunk) :
    ceilDiv size chunk * chunk < size + chunk := by
  cases hcount : ceilDiv size chunk with
  | zero => omega
  | succ n =>
    have hlast : n * chunk < size := (lt_ceilDiv_iff hchunk).1 (by omega)
    rw [Nat.add_mul, Nat.one_mul]
    omega

/-! ## Consecutive parts -/

/-- Parts that are numbered from `index + 1` on, are not empty, and lead without a gap from the
position `offset` to the position `size`. -/
def Consecutive (size : Nat) : (index offset : Nat) → List PlannedPart → Prop
  | _, offset, [] => offset = size
  | index, offset, p :: rest =>
    p.number = index + 1 ∧ p.range.start = offset ∧ offset < p.range.stop ∧
      Consecutive size (index + 1) p.range.stop rest

section Consecutive

variable {size index offset : Nat} {ps : List PlannedPart}

theorem Consecutive.numbers (h : Consecutive size index offset ps) :
    ps.map (·.number) = List.range' (index + 1) ps.length := by
  induction ps generalizing index offset with
  | nil => rfl
  | cons p rest ih =>
    obtain ⟨hnumber, -, -, hrest⟩ := h
    rw [List.map_cons, ih hrest, hnumber, List.length_cons, List.range'_succ]

theorem Consecutive.numbers_nodup (h : Consecutive size index offset ps) :
    (ps.map (·.number)).Nodup := by
  rw [h.numbers]
  exact List.nodup_range'

theorem Consecutive.nodup (h : Consecutive size index offset ps) : ps.Nodup :=
  .of_map _ h.numbers_nodup

theorem Consecutive.number_mem (h : Consecutive size index offset ps) {p : PlannedPart}
    (hp : p ∈ ps) : index < p.number ∧ p.number ≤ index + ps.length := by
  have hmem : p.number ∈ ps.map (·.number) := List.mem_map_of_mem hp
  rw [h.numbers, List.mem_range'_1] at hmem
  omega

theorem Consecutive.eq_of_number (h : Consecutive size index offset ps) {p q : PlannedPart}
    (hp : p ∈ ps) (hq : q ∈ ps) (heq : p.number = q.number) : p = q :=
  List.inj_on_of_nodup_map h.numbers_nodup hp hq heq

theorem Consecutive.ne_nil (h : Consecutive size index offset ps) (hlt : offset < size) :
    ps ≠ [] := by
  rintro rfl
  exact absurd h (Nat.ne_of_lt hlt)

theorem Consecutive.offset_le (h : Consecutive size index offset ps) : offset ≤ size := by
  induction ps generalizing index offset with
  | nil => exact Nat.le_of_eq h
  | cons p rest ih =>
    obtain ⟨-, -, hlt, hrest⟩ := h
    exact Nat.le_trans (Nat.le_of_lt hlt) (ih hrest)

theorem Consecutive.range_mem (h : Consecutive size index offset ps) {p : PlannedPart}
    (hp : p ∈ ps) : p.range.start < p.range.stop ∧ p.range.stop ≤ size := by
  induction ps generalizing index offset with
  | nil => cases hp
  | cons q rest ih =>
    obtain ⟨-, hstart, hlt, hrest⟩ := h
    rcases List.mem_cons.1 hp with rfl | hp
    · exact ⟨hstart ▸ hlt, hrest.offset_le⟩
    · exact ih hrest hp

end Consecutive

/-! ## Plans -/

theorem position_of_lt {n : Nat} (h : n < positionLimit) : position n = .ok n := if_pos h

theorem position_of_le {n : Nat} (h : positionLimit ≤ n) : position n = .error .overflow :=
  if_neg (Nat.not_lt.2 h)

/-- The place of the part with the given index, if its end is a position. -/
def placed (size chunk i : Nat) : PlannedPart := ⟨i + 1, ⟨i * chunk, min ((i + 1) * chunk) size⟩⟩

/-- **A part overflows exactly if its end is no position** before it is cut off. -/
theorem ofIndex_eq (size chunk i : Nat) :
    ofIndex size chunk i =
      if (i + 1) * chunk < positionLimit then .ok (placed size chunk i) else .error .overflow := by
  have hsum : i * chunk + chunk = (i + 1) * chunk := by rw [Nat.add_mul, Nat.one_mul]
  rw [ofIndex, ← hsum]
  split
  · rename_i hfits
    rw [position_of_lt (by omega)]
    change (position (i * chunk + chunk)).bind _ = _
    rw [position_of_lt hfits, hsum]
    rfl
  · rename_i hover
    by_cases hstart : i * chunk < positionLimit
    · rw [position_of_lt hstart]
      change (position (i * chunk + chunk)).bind _ = _
      rw [position_of_le (Nat.not_lt.1 hover)]
      rfl
    · rw [position_of_le (Nat.not_lt.1 hstart)]
      rfl

theorem mapM_ofIndex_eq_ok {size chunk : Nat} {is : List Nat}
    (h : ∀ i ∈ is, (i + 1) * chunk < positionLimit) :
    is.mapM (ofIndex size chunk) = .ok (is.map (placed size chunk)) := by
  induction is with
  | nil => rfl
  | cons i is ih =>
    rw [List.mapM_cons, ofIndex_eq, if_pos (h i (by simp)), ih fun k hk => h k (by simp [hk])]
    rfl

theorem mapM_ofIndex_overflow {size chunk i : Nat} {is : List Nat} (hi : i ∈ is)
    (h : positionLimit ≤ (i + 1) * chunk) :
    is.mapM (ofIndex size chunk) = .error .overflow := by
  induction is with
  | nil => cases hi
  | cons k is ih =>
    rw [List.mapM_cons, ofIndex_eq]
    split
    · rename_i hfits
      have hrest : i ∈ is := (List.mem_cons.1 hi).resolve_left fun heq => by
        subst heq
        omega
      rw [ih hrest]
      rfl
    · rfl

/-- **There is a plan exactly if the end of the last part is a position** before it is cut off. -/
theorem parts_eq {size chunk : Nat} (hchunk : 0 < chunk)
    (hcount : ceilDiv size chunk < numberLimit) :
    parts size chunk =
      if ceilDiv size chunk * chunk < positionLimit then
        .ok ((List.range (ceilDiv size chunk)).map (placed size chunk))
      else .error .overflow := by
  rw [parts, if_neg (by omega)]
  dsimp only
  rw [if_pos hcount]
  split
  · rename_i hlimit
    refine mapM_ofIndex_eq_ok fun i hi => ?_
    exact Nat.lt_of_le_of_lt (Nat.mul_le_mul_right chunk (List.mem_range.1 hi)) hlimit
  · rename_i hover
    cases hlast : ceilDiv size chunk with
    | zero =>
      rw [hlast, Nat.zero_mul] at hover
      exact absurd (by decide) hover
    | succ n =>
      rw [hlast] at hover
      exact mapM_ofIndex_overflow (List.mem_range.2 (Nat.lt_succ_self n)) (Nat.not_lt.1 hover)

/-- An object has a plan if one chunk more than its size is not beyond the positions. -/
theorem parts_eq_ok {size chunk : Nat} (hchunk : 0 < chunk)
    (hcount : ceilDiv size chunk < numberLimit) (hsum : size + chunk ≤ positionLimit) :
    parts size chunk = .ok ((List.range (ceilDiv size chunk)).map (placed size chunk)) := by
  rw [parts_eq hchunk hcount]
  exact if_pos (Nat.lt_of_lt_of_le (ceilDiv_mul_lt size hchunk) hsum)

/-- The parts from one index on lead from their place to the end of the object. -/
theorem consecutive_range' {size chunk : Nat} (hchunk : 0 < chunk) :
    ∀ m i : Nat, i + m = ceilDiv size chunk →
      Consecutive size i (min (i * chunk) size) ((List.range' i m).map (placed size chunk)) := by
  intro m
  induction m with
  | zero =>
    intro i hi
    have hle := le_ceilDiv_mul size hchunk
    rw [← hi, Nat.add_zero] at hle
    exact Nat.min_eq_right hle
  | succ m ih =>
    intro i hi
    have hlt : i * chunk < size := (lt_ceilDiv_iff hchunk).1 (by omega)
    rw [List.range'_succ, List.map_cons]
    refine ⟨rfl, (Nat.min_eq_left (Nat.le_of_lt hlt)).symm, ?_, ih (i + 1) (by omega)⟩
    rw [placed, Nat.add_mul, Nat.one_mul]
    dsimp only
    omega

/-- All parts lead from the start of their object to its end. -/
theorem consecutive_range {size chunk : Nat} (hchunk : 0 < chunk) :
    Consecutive size 0 0 ((List.range (ceilDiv size chunk)).map (placed size chunk)) := by
  have hall := consecutive_range' hchunk (ceilDiv size chunk) 0 (Nat.zero_add _)
  rwa [Nat.zero_mul, Nat.zero_min, ← List.range_eq_range'] at hall

/-- What a plan can come to. -/
theorem parts_cases (size chunk : Nat) :
    (∃ fault, parts size chunk = .error (.invalidArgument fault)) ∨
      parts size chunk = .error .overflow ∨
      (0 < chunk ∧
        parts size chunk = .ok ((List.range (ceilDiv size chunk)).map (placed size chunk))) := by
  by_cases hzero : chunk = 0
  · exact .inl ⟨_, if_pos hzero⟩
  by_cases hcount : ceilDiv size chunk < numberLimit
  · have hchunk := Nat.pos_of_ne_zero hzero
    rw [parts_eq hchunk hcount]
    split
    · exact .inr (.inr ⟨hchunk, rfl⟩)
    · exact .inr (.inl rfl)
  · refine .inl ⟨.tooManyParts (ceilDiv size chunk), ?_⟩
    rw [parts, if_neg hzero]
    exact if_neg hcount

/-- **A plan leads from the start of its object to its end.** -/
theorem consecutive_of_parts {size chunk : Nat} {plan : List PlannedPart}
    (h : parts size chunk = .ok plan) :
    Consecutive size 0 0 plan ∧ plan.length = ceilDiv size chunk := by
  rcases parts_cases size chunk with ⟨fault, hrefused⟩ | hover | ⟨hchunk, hplan⟩
  · rw [hrefused] at h
    cases h
  · rw [hover] at h
    cases h
  · rw [hplan] at h
    cases h
    exact ⟨consecutive_range hchunk, by rw [List.length_map, List.length_range]⟩

end PlannedPart

/-- A transfer is split only by a chunk size that is smaller than its object. -/
theorem TransferOptions.splits_iff {o : TransferOptions} {size : Nat} :
    o.splits size = true ↔ 0 < o.chunkSize ∧ o.chunkSize < size := by
  simp [splits]

end BucketFs
