import BucketFs.Proofs.Transfer.Plan
import Mathlib.Algebra.Order.Floor.Div

/-!
# What a plan makes of an object

The end of a part is the chunk size added to its start and cut off at the end of the object.  The
sum is formed before it is cut off, so that it may leave the range of positions although the object
does not; this can only happen to the last part.

* `ceilDiv_eq` — the number of parts is the quotient rounded up.
* `Partitions` — what a plan is to make of its object.
* `plan_partitions_object` — every object has a plan that partitions it, unless its parts cannot be
  numbered or the sum for the last one overflows; `plan_beyond_positions` is an object of which it
  does.
-/

namespace BucketFs

namespace PlannedPart

variable {size chunk i : Nat}

/-! ## Rounding up -/

theorem ceilDiv_eq (hchunk : 0 < chunk) : ceilDiv size chunk = size ⌈/⌉ chunk := by
  refine eq_of_forall_ge_iff fun n => ?_
  rw [ceilDiv_le_iff_le_mul hchunk, Nat.mul_comm, ← Nat.not_lt, lt_ceilDiv_iff hchunk, Nat.not_lt]

/-! ## The parts of a plan -/

/-- What a plan is to make of an object: consecutive parts, numbered from one, that are as long as
the chunk size; the last one may be shorter. -/
structure Partitions (size chunk : Nat) (plan : List PlannedPart) : Prop where
  count : plan.length = size ⌈/⌉ chunk
  covers : Consecutive size 0 0 plan
  full : ∀ p ∈ plan.dropLast, p.length = .ok chunk
  last : ∀ p ∈ plan, ∃ n ≤ chunk, p.length = .ok n

theorem length_eq_ok {p : PlannedPart} (h : p.range.start ≤ p.range.stop) :
    p.length = .ok (p.range.stop - p.range.start) := if_pos h

/-- The length of a part that starts inside its object. -/
theorem placed_length (hstart : i * chunk < size) :
    (placed size chunk i).length = .ok (min chunk (size - i * chunk)) := by
  have hplace : (placed size chunk i).range = ⟨i * chunk, min (i * chunk + chunk) size⟩ := by
    rw [placed, Nat.add_mul, Nat.one_mul]
  rw [length_eq_ok (by rw [hplace]; dsimp only; omega), hplace]
  congr 1
  dsimp only
  omega

/-- The parts of an object, placed one behind the other, partition it. -/
theorem partitions_placed (hchunk : 0 < chunk) :
    Partitions size chunk ((List.range (ceilDiv size chunk)).map (placed size chunk)) := by
  refine ⟨by rw [List.length_map, List.length_range, ceilDiv_eq hchunk], consecutive_range hchunk,
    fun p hp => ?_, fun p hp => ?_⟩
  · rw [List.dropLast_eq_take, ← List.map_take, List.take_range, List.length_map,
      List.length_range] at hp
    obtain ⟨i, hi, rfl⟩ := List.mem_map.1 hp
    rw [List.mem_range] at hi
    -- a part before the last one ends where the next one starts
    have hnext : (i + 1) * chunk < size := (lt_ceilDiv_iff hchunk).1 (by omega)
    rw [Nat.add_mul, Nat.one_mul] at hnext
    rw [placed_length (by omega), Nat.min_eq_left (by omega)]
  · obtain ⟨i, hi, rfl⟩ := List.mem_map.1 hp
    have hstart : i * chunk < size := (lt_ceilDiv_iff hchunk).1 (List.mem_range.1 hi)
    exact ⟨_, Nat.min_le_left _ _, placed_length hstart⟩

/-- **Every object has a plan that partitions it**, whatever its size and the chunk size are, as
long as the end of the last part is a position before it is cut off; where it is none, the plan
overflows.  A chunk size of zero and a count beyond the part numbers are refused. -/
theorem plan_partitions_object (size chunk : Nat) :
    (0 < chunk → size ⌈/⌉ chunk < numberLimit →
      ((size ⌈/⌉ chunk) * chunk < positionLimit →
        ∃ plan, parts size chunk = .ok plan ∧ Partitions size chunk plan) ∧
      (positionLimit ≤ (size ⌈/⌉ chunk) * chunk → parts size chunk = .error .overflow)) ∧
    (chunk = 0 → parts size chunk = .error (.invalidArgument .noChunk)) ∧
    (0 < chunk → numberLimit ≤ size ⌈/⌉ chunk →
      parts size chunk = .error (.invalidArgument (.tooManyParts (size ⌈/⌉ chunk)))) := by
  refine ⟨fun hchunk hcount => ?_, fun hzero => if_pos hzero, fun hchunk hmany => ?_⟩
  · rw [← ceilDiv_eq hchunk] at hcount ⊢
    rw [parts_eq hchunk hcount]
    constructor
    · intro hlimit
      exact ⟨_, if_pos hlimit, partitions_placed hchunk⟩
    · intro hover
      exact if_neg (Nat.not_lt.2 hover)
  · rw [← ceilDiv_eq hchunk] at hmany ⊢
    rw [parts, if_neg (by omega)]
    exact if_neg (Nat.not_lt.2 hmany)

/-- The greatest size with the greatest number of parts. -/
theorem plan_partitions_greatest :
    18446744073709551615 < positionLimit ∧ 4294967297 < positionLimit ∧
      18446744073709551615 ⌈/⌉ 4294967297 = 4294967295 ∧
      ∃ plan, parts 18446744073709551615 4294967297 = .ok plan ∧
        Partitions 18446744073709551615 4294967297 plan := by
  have hcount : 18446744073709551615 ⌈/⌉ 4294967297 = 4294967295 := by
    rw [Nat.ceilDiv_eq_add_pred_div]
  obtain ⟨hplan, -⟩ := (plan_partitions_object 18446744073709551615 4294967297).1 (by decide)
    (by rw [hcount]; decide)
  exact ⟨by decide, by decide, hcount, hplan (by rw [hcount]; decide)⟩

/-- An object of one byte more than half of all positions, in chunks of that half: two parts would
partition it, but the end of the second one is formed as the number of all positions. -/
theorem plan_beyond_positions :
    9223372036854775809 < positionLimit ∧ 0 < 9223372036854775808 ∧
      9223372036854775809 ⌈/⌉ 9223372036854775808 < numberLimit ∧
      parts 9223372036854775809 9223372036854775808 = .error .overflow ∧
      Partitions 9223372036854775809 9223372036854775808
        [⟨1, 0, 9223372036854775808⟩, ⟨2, 9223372036854775808, 9223372036854775809⟩] := by
  have hplaced : (List.range (ceilDiv 9223372036854775809 9223372036854775808)).map
      (placed 9223372036854775809 9223372036854775808) =
        [⟨1, 0, 9223372036854775808⟩, ⟨2, 9223372036854775808, 9223372036854775809⟩] := by decide
  have hcount : 9223372036854775809 ⌈/⌉ 9223372036854775808 < numberLimit := by
    rw [← ceilDiv_eq (by decide)]
    decide
  refine ⟨by decide, by decide, hcount, by decide, ?_⟩
  rw [← hplaced]
  exact partitions_placed (by decide)

end PlannedPart

end BucketFs
