import BucketFs.Proofs.Text.Names

/-!
# Cutting at the first occurrence of a character

* `cut?_eq_some_iff`, `cut?_eq_none_iff` — when a text is cut, and into what.
* `names_of_cut` — the first of the names of a text is what stands before its first separator but
  for those at its start, and the others stand behind that one.
-/

namespace BucketFs.Text

variable {c : Char}

theorem takeWhile_ne_append {xs : List Char} (h : c ∉ xs) (ys : List Char) :
    (xs ++ c :: ys).takeWhile (· ≠ c) = xs := by
  rw [List.takeWhile_append_of_pos fun a ha => by simpa using ne_of_mem_of_not_mem ha h]
  simp

theorem dropWhile_ne_append {xs : List Char} (h : c ∉ xs) (ys : List Char) :
    (xs ++ c :: ys).dropWhile (· ≠ c) = c :: ys := by
  rw [List.dropWhile_append_of_pos fun a ha => by simpa using ne_of_mem_of_not_mem ha h]
  simp

theorem dropWhile_ne_of_not_mem {xs : List Char} (h : c ∉ xs) : xs.dropWhile (· ≠ c) = [] := by
  induction xs with
  | nil => rfl
  | cons d rest ih =>
    rw [List.mem_cons, not_or] at h
    rw [List.dropWhile_cons_of_pos (by simpa using Ne.symm h.1), ih h.2]

theorem cut?_eq_none_iff {s : String} : cut? c s = none ↔ c ∉ s.toList := by
  unfold cut?
  constructor
  · intro h hmem
    obtain ⟨xs, ys, heq, hxs⟩ := List.eq_append_cons_of_mem hmem
    rw [heq, dropWhile_ne_append hxs] at h
    cases h
  · intro h
    rw [dropWhile_ne_of_not_mem h]

/-- **A text is cut** into what stands before and behind the first occurrence. -/
theorem cut?_eq_some_iff {s a b : String} :
    cut? c s = some (a, b) ↔ c ∉ a.toList ∧ s.toList = a.toList ++ c :: b.toList := by
  constructor
  · intro h
    have hmem : c ∈ s.toList := by
      by_cases hmem : c ∈ s.toList
      · exact hmem
      · rw [cut?_eq_none_iff.2 hmem] at h
        cases h
    obtain ⟨xs, ys, heq, hxs⟩ := List.eq_append_cons_of_mem hmem
    rw [cut?, heq, dropWhile_ne_append hxs, takeWhile_ne_append hxs] at h
    cases h
    simp [heq, hxs]
  · rintro ⟨ha, heq⟩
    rw [cut?, heq, dropWhile_ne_append ha, takeWhile_ne_append ha]
    simp

/-! ## Names -/

theorem names_trimStart (s : String) : names (trimStart separator s) = names s := by
  rw [names, names, trimStart, String.toList_ofList]
  induction s.toList with
  | nil => rfl
  | cons d rest ih =>
    by_cases hd : d = separator
    · rw [hd, List.dropWhile_cons_of_pos (by simp), ih, pieces, if_pos rfl]
      simp
    · rw [List.dropWhile_cons_of_neg (by simpa using hd)]

/-- **The first name and the others** are told apart by the first separator behind a name. -/
theorem names_of_cut {s n rest : String}
    (h : cut? separator (trimStart separator s) = some (n, rest)) :
    names s = n :: names rest := by
  obtain ⟨hn, heq⟩ := cut?_eq_some_iff.1 h
  have hname : IsName n := by
    refine ⟨fun hempty => (trimStart_eq_iff.1 (rfl : trimStart separator s = _)).2 ?_, hn⟩
    rw [heq, hempty]
    rfl
  have htext : trimStart separator s = n ++ slash ++ rest := by
    apply String.toList_injective
    rw [heq, String.toList_append, String.toList_append, List.append_assoc]
    rfl
  rw [← names_trimStart, htext, names_append_slash_append, hname.names_eq]
  rfl

theorem names_of_uncut {s : String} (h : cut? separator (trimStart separator s) = none) :
    names s = if trimStart separator s = "" then [] else [trimStart separator s] := by
  rw [← names_trimStart]
  by_cases hempty : trimStart separator s = ""
  · rw [if_pos hempty, hempty]
    rfl
  · rw [if_neg hempty, IsName.names_eq ⟨hempty, cut?_eq_none_iff.1 h⟩]

end BucketFs.Text
