import BucketFs.Text.Number

/-!
# Numbers in texts

* `mem_toString_digit` — a number is written in digits only.
* `readWord?_toString` — a word that was written is read back.
-/

namespace BucketFs.Text

theorem toList_toString (n : Nat) : (toString n).toList = Nat.toDigits 10 n := by
  rw [Nat.toString_eq_repr, Nat.toList_repr]

theorem mem_toString_digit {n : Nat} {c : Char} (h : c ∈ (toString n).toList) :
    isDigit c = true := by
  rw [toList_toString] at h
  have hdigit := Nat.isDigit_of_mem_toDigits (by decide) (by decide) h
  simp only [Char.isDigit, ge_iff_le, Bool.and_eq_true, decide_eq_true_eq,
    UInt32.le_iff_toNat_le] at hdigit
  simpa [isDigit] using hdigit

theorem not_mem_toString {c : Char} (hc : isDigit c = false) (n : Nat) :
    c ∉ (toString n).toList := by
  intro h
  rw [mem_toString_digit h] at hc
  cases hc

theorem ofDigits_toString (n : Nat) : ofDigits (toString n).toList = n := by
  rw [toList_toString]
  exact Nat.ofDigitChars_toDigits (by decide) (by decide)

theorem withoutPlus_of_not_mem {cs : List Char} (h : '+' ∉ cs) : withoutPlus cs = cs := by
  unfold withoutPlus
  split
  · simp at h
  · rfl

/-- **A word that was written is read back.** -/
theorem readWord?_toString {n : Nat} (h : n < wordLimit) : readWord? (toString n) = some n := by
  have hne : (toString n).toList ≠ [] := by
    rw [toList_toString]
    exact Nat.toDigits_ne_nil
  have hall : (toString n).toList.all isDigit = true :=
    List.all_eq_true.2 fun _ hc => mem_toString_digit hc
  simp only [readWord?, withoutPlus_of_not_mem (not_mem_toString (by decide) n), ofDigits_toString]
  exact if_pos ⟨hne, hall, h⟩

end BucketFs.Text
