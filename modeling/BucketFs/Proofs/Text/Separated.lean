import BucketFs.Proofs.Text.Prefix

/-!
# Names and separators

* `pieces_append` — cutting at a separator cuts both sides.
* `names_append_slash` — a separator at the end adds no name.
* `trimStart_eq_iff`, `trimEnd_eq_iff` — what trimming takes away, and what it leaves.
* `endsFirst_slash_iff` — a text that ends in its first separator is a name and that separator.
-/

namespace BucketFs.Text

theorem pieces_ne_nil (sep : Char) (cs : List Char) : pieces sep cs ≠ [] := by
  cases cs with
  | nil => simp [pieces]
  | cons c rest =>
    rw [pieces]
    split
    · simp
    · split <;> simp

theorem pieces_cons_of_ne {sep c : Char} (h : c ≠ sep) {cs p : List Char} {ps : List (List Char)}
    (hp : pieces sep cs = p :: ps) : pieces sep (c :: cs) = (c :: p) :: ps := by
  rw [pieces, if_neg h, hp]

/-- **Cutting at a separator** cuts what stands before it and what stands behind it. -/
theorem pieces_append (sep : Char) (xs ys : List Char) :
    pieces sep (xs ++ sep :: ys) = pieces sep xs ++ pieces sep ys := by
  induction xs with
  | nil => simp [pieces]
  | cons c rest ih =>
    by_cases h : c = sep
    · rw [List.cons_append, pieces, if_pos h, ih, pieces, if_pos h, List.cons_append]
    · cases hp : pieces sep rest with
      | nil => exact absurd hp (pieces_ne_nil sep rest)
      | cons p ps =>
        rw [hp] at ih
        rw [List.cons_append, pieces_cons_of_ne h ih, pieces_cons_of_ne h hp]
        rfl

theorem names_append_slash (s : String) : names (s ++ slash) = names s := by
  have h : (s ++ slash).toList = s.toList ++ separator :: [] := by
    rw [String.toList_append]; rfl
  rw [names, h, pieces_append, List.filter_append]
  simp [names, pieces]

/-! ## Trimming -/

section Trimming

variable {c : Char} {s t : String}

theorem dropWhile_beq_eq_iff {xs ys : List Char} :
    xs.dropWhile (· == c) = ys ↔
      (∃ n, xs = List.replicate n c ++ ys) ∧ ys.head? ≠ some c := by
  constructor
  · rintro rfl
    refine ⟨⟨(xs.takeWhile (· == c)).length, ?_⟩, fun hhead => ?_⟩
    · rw [← List.eq_replicate_of_mem fun a ha =>
        eq_of_beq (List.all_eq_true.1 List.all_takeWhile a ha), List.takeWhile_append_dropWhile]
    · have hnot := List.head?_dropWhile_not (· == c) xs
      rw [hhead] at hnot
      exact Bool.false_ne_true (hnot.symm.trans (beq_self_eq_true c))
  · rintro ⟨⟨n, rfl⟩, hhead⟩
    rw [List.dropWhile_append_of_pos fun a ha => by simpa using List.eq_of_mem_replicate ha]
    cases ys with
    | nil => rfl
    | cons a rest => exact List.dropWhile_cons_of_neg (by simpa using hhead)

/-- **What trimming the start leaves** does not start with the character, and stands behind a number
of them. -/
theorem trimStart_eq_iff : trimStart c s = t ↔
    (∃ n, s.toList = List.replicate n c ++ t.toList) ∧ t.toList.head? ≠ some c := by
  rw [← dropWhile_beq_eq_iff, ← String.toList_inj, trimStart, String.toList_ofList]

/-- **What trimming the end leaves** does not end in the character, and stands before a number of
them. -/
theorem trimEnd_eq_iff : trimEnd c s = t ↔
    (∃ n, s.toList = t.toList ++ List.replicate n c) ∧ t.toList.getLast? ≠ some c := by
  have hmirror : (∃ n, s.toList = t.toList ++ List.replicate n c) ↔
      ∃ n, s.toList.reverse = List.replicate n c ++ t.toList.reverse := by
    refine exists_congr fun n => ?_
    rw [← List.reverse_inj, List.reverse_append, List.reverse_replicate]
  rw [hmirror, ← List.head?_reverse, ← dropWhile_beq_eq_iff, ← String.toList_inj, trimEnd,
    String.toList_ofList, List.reverse_eq_iff]

theorem trimEnd_eq_empty_iff : trimEnd c s = "" ↔ ∀ a ∈ s.toList, a = c := by
  rw [trimEnd_eq_iff, and_iff_left nofun]
  constructor
  · rintro ⟨n, hn⟩ a ha
    rw [hn] at ha
    exact List.eq_of_mem_replicate ha
  · exact fun hall => ⟨s.toList.length, List.eq_replicate_of_mem hall⟩

theorem trimEnd_of_getLast?_ne (h : s.toList.getLast? ≠ some c) : trimEnd c s = s :=
  trimEnd_eq_iff.2 ⟨⟨0, (List.append_nil _).symm⟩, h⟩

theorem trimEnd_of_not_mem (h : c ∉ s.toList) : trimEnd c s = s :=
  trimEnd_of_getLast?_ne fun hlast => h (List.mem_of_getLast? hlast)

theorem trimEnd_append_slash {n : String} (h : separator ∉ n.toList) :
    trimEnd separator (n ++ slash) = n :=
  trimEnd_eq_iff.2 ⟨⟨1, String.toList_append⟩, fun hlast => h (List.mem_of_getLast? hlast)⟩

end Trimming

/-! ## Occurrences of the separator -/

theorem occurs_slash_iff {s : String} : Occurs slash s ↔ separator ∈ s.toList := by
  constructor
  · rintro ⟨x, y, h⟩
    rw [← h]
    simp [slash, separator]
  · intro h
    obtain ⟨x, y, hxy⟩ := List.append_of_mem h
    exact ⟨x, y, by rw [hxy]; simp [slash, separator]⟩

/-- **The part up to the first separator** is a name with the separator behind it. -/
theorem endsFirst_slash_iff {p : String} :
    EndsFirst slash p ↔ ∃ n, p = n ++ slash ∧ separator ∉ n.toList := by
  constructor
  · rintro ⟨hocc, hmin⟩
    obtain ⟨x, y, hxy⟩ := List.append_of_mem (occurs_slash_iff.1 hocc)
    -- the shortest part ends in the occurrence itself
    have hp : String.ofList x ++ slash = p := by
      apply hmin
      · rw [hasPrefix_iff, String.toList_append, String.toList_ofList, hxy]
        exact ⟨y, by simp [slash, separator]⟩
      · rw [occurs_slash_iff]
        simp [slash, separator]
    refine ⟨String.ofList x, hp.symm, fun hx => ?_⟩
    -- an earlier separator would make the name itself such a part
    have hname : String.ofList x = p := by
      apply hmin
      · rw [← hp]
        exact hasPrefix_append _ _
      · exact occurs_slash_iff.2 hx
    have hlen := congrArg String.length (hname.trans hp.symm)
    simp [slash] at hlen
  · rintro ⟨n, rfl, hn⟩
    refine ⟨occurs_slash_iff.2 (by simp [slash, separator]), fun q hq hocc => ?_⟩
    have hpre : q.toList <+: n.toList ++ [separator] := by
      have h := hasPrefix_iff.1 hq
      rwa [String.toList_append] at h
    rcases List.prefix_concat_iff.1 hpre with hall | hshort
    · apply String.toList_injective
      rw [hall, String.toList_append]
      rfl
    · -- a shorter part lies within the name, which has no separator
      exact absurd (hshort.subset (occurs_slash_iff.1 hocc)) hn

end BucketFs.Text
