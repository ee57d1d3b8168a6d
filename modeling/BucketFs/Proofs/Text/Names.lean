import BucketFs.Proofs.Text.Separated

/-!
# Names and the text that joins them

A key is a list of names with a separator between neighbours.

* `names_joined` — the names of a joined text are those that were joined, so different lists have
  different texts (`joined_inj`); `names_joined_texts` — other texts are joined as their names are.
* `startsWithSeparator_joined` — joined texts start as the first of them does.
* `trimEnd_joined`, `endsInSeparator_joined` — no separator stands at the end of a joined text.
* `prefix_of_hasPrefix` — what starts with a joined text and a separator has the joined names before
  all others.
-/

namespace BucketFs.Text

/-- A text that can stand between two separators. -/
structure IsName (n : String) : Prop where
  nonempty : n ≠ ""
  single : separator ∉ n.toList

instance (n : String) : Decidable (IsName n) :=
  decidable_of_iff (n ≠ "" ∧ separator ∉ n.toList)
    ⟨fun h => ⟨h.1, h.2⟩, fun h => ⟨h.nonempty, h.single⟩⟩

theorem isName_concat {ns : List String} {n : String} (hns : ∀ m ∈ ns, IsName m) (hn : IsName n) :
    ∀ m ∈ ns ++ [n], IsName m := by
  intro m hm
  rcases List.mem_append.1 hm with hm | hm
  · exact hns m hm
  · rwa [List.mem_singleton.1 hm]

/-! ## The names of a text -/

theorem pieces_of_not_mem {sep : Char} {cs : List Char} (h : sep ∉ cs) : pieces sep cs = [cs] := by
  induction cs with
  | nil => rfl
  | cons c rest ih =>
    rw [List.mem_cons, not_or] at h
    exact pieces_cons_of_ne (Ne.symm h.1) (ih h.2)

theorem not_mem_of_mem_pieces {sep : Char} {cs : List Char} :
    ∀ {p : List Char}, p ∈ pieces sep cs → sep ∉ p := by
  induction cs with
  | nil => simp [pieces]
  | cons c rest ih =>
    intro p hp
    by_cases hc : c = sep
    · rw [pieces, if_pos hc, List.mem_cons] at hp
      rcases hp with rfl | hp
      · exact List.not_mem_nil
      · exact ih hp
    · cases hrest : pieces sep rest with
      | nil => exact absurd hrest (pieces_ne_nil sep rest)
      | cons q qs =>
        rw [pieces_cons_of_ne hc hrest, List.mem_cons] at hp
        rw [hrest] at ih
        rcases hp with rfl | hp
        · rw [List.mem_cons, not_or]
          exact ⟨Ne.symm hc, ih List.mem_cons_self⟩
        · exact ih (List.mem_cons_of_mem _ hp)

theorem isName_of_mem_names {n s : String} (h : n ∈ names s) : IsName n := by
  simp only [names, List.mem_map, List.mem_filter, decide_eq_true_eq] at h
  obtain ⟨p, ⟨hp, hne⟩, rfl⟩ := h
  refine ⟨fun hempty => hne ?_, ?_⟩
  · simpa using congrArg String.toList hempty
  · rw [String.toList_ofList]
    exact not_mem_of_mem_pieces hp

theorem IsName.names_eq {n : String} (h : IsName n) : names n = [n] := by
  have hne : n.toList ≠ [] := by
    simpa [String.toList_eq_nil_iff] using h.nonempty
  rw [names, pieces_of_not_mem h.single, List.filter_cons_of_pos (by simpa using hne),
    List.filter_nil, List.map_singleton, String.ofList_toList]

/-- **A separator cuts the names** into those before it and those behind it. -/
theorem names_append_slash_append (s t : String) : names (s ++ slash ++ t) = names s ++ names t := by
  have hlist : (s ++ slash ++ t).toList = s.toList ++ separator :: t.toList := by
    simp [slash, separator]
  rw [names, hlist, pieces_append, List.filter_append, List.map_append]
  rfl

theorem names_slash_append (s : String) : names (slash ++ s) = names s := by
  have h := names_append_slash_append "" s
  rwa [String.empty_append] at h

/-! ## Joining -/

theorem joined_append {ns ms : List String} (hns : ns ≠ []) (hms : ms ≠ []) :
    joined (ns ++ ms) = joined ns ++ slash ++ joined ms :=
  String.intercalate_append_of_ne_nil hns hms

@[simp] theorem joined_nil : joined [] = "" := String.intercalate_nil

@[simp] theorem joined_singleton (n : String) : joined [n] = n := String.intercalate_singleton

theorem joined_concat {ns : List String} (h : ns ≠ []) (n : String) :
    joined (ns ++ [n]) = joined ns ++ slash ++ n := by
  rw [joined_append h (List.cons_ne_nil n []), joined_singleton]

/-- **The names of joined texts** are the names of each of them. -/
theorem names_joined_texts (ts : List String) : names (joined ts) = ts.flatMap names := by
  induction ts with
  | nil => rfl
  | cons t rest ih =>
    by_cases hnil : rest = []
    · rw [hnil, joined_singleton, List.flatMap_singleton]
    · rw [List.flatMap_cons, ← ih, ← List.singleton_append,
        joined_append (List.cons_ne_nil t []) hnil, joined_singleton, names_append_slash_append]

/-- **The names of a joined text** are those that were joined. -/
theorem names_joined {ns : List String} (h : ∀ n ∈ ns, IsName n) : names (joined ns) = ns := by
  rw [names_joined_texts]
  induction ns with
  | nil => rfl
  | cons n rest ih =>
    rw [List.flatMap_cons, (h n List.mem_cons_self).names_eq,
      ih fun m hm => h m (List.mem_cons_of_mem _ hm), List.singleton_append]

theorem joined_inj {ns ms : List String} (hns : ∀ n ∈ ns, IsName n) (hms : ∀ n ∈ ms, IsName n)
    (h : joined ns = joined ms) : ns = ms := by
  rw [← names_joined hns, h, names_joined hms]

theorem joined_eq_empty_iff {ns : List String} (h : ∀ n ∈ ns, IsName n) :
    joined ns = "" ↔ ns = [] := by
  constructor
  · intro hempty
    exact joined_inj h (fun _ hn => nomatch hn) hempty
  · rintro rfl
    rfl

/-! ## The start of a text -/

theorem startsWithSeparator_slash_append (s : String) :
    startsWithSeparator (slash ++ s) = true := by
  simp [startsWithSeparator, slash, separator]

theorem exists_slash_append {s : String} (h : startsWithSeparator s = true) :
    ∃ t, s = slash ++ t := by
  rw [startsWithSeparator, beq_iff_eq] at h
  obtain ⟨cs, hcs⟩ := List.head?_eq_some_iff.1 h
  refine ⟨String.ofList cs, String.toList_injective ?_⟩
  rw [hcs]
  simp [slash, separator]

theorem startsWithSeparator_append {s : String} (h : s ≠ "") (t : String) :
    startsWithSeparator (s ++ t) = startsWithSeparator s := by
  have hne : s.toList ≠ [] := by
    simpa [String.toList_eq_nil_iff] using h
  rw [startsWithSeparator, startsWithSeparator, String.toList_append, List.head?_append,
    List.head?_eq_some_head hne, Option.some_or]

/-- Joined texts start as the first of them does. -/
theorem startsWithSeparator_joined {first : String} (h : first ≠ "") (more : List String) :
    startsWithSeparator (joined (first :: more)) = startsWithSeparator first := by
  by_cases hnil : more = []
  · rw [hnil, joined_singleton]
  · rw [← List.singleton_append, joined_append (List.cons_ne_nil first []) hnil, joined_singleton,
      String.append_assoc, startsWithSeparator_append h]

theorem IsName.startsWithSeparator_eq {n : String} (h : IsName n) :
    startsWithSeparator n = false := by
  rw [startsWithSeparator, beq_eq_false_iff_ne]
  exact fun hhead => h.single (List.mem_of_mem_head? hhead)

/-! ## The end of a text -/

theorem endsInSeparator_append {n : String} (h : n ≠ "") (s : String) :
    endsInSeparator (s ++ n) = endsInSeparator n := by
  have hne : n.toList ≠ [] := by
    simpa [String.toList_eq_nil_iff] using h
  rw [endsInSeparator, endsInSeparator, String.toList_append, List.getLast?_append,
    List.getLast?_eq_some_getLast hne, Option.some_or]

@[simp] theorem endsInSeparator_append_slash (s : String) : endsInSeparator (s ++ slash) = true := by
  rw [endsInSeparator_append (by decide)]
  rfl

theorem IsName.endsInSeparator_eq {n : String} (h : IsName n) : endsInSeparator n = false := by
  rw [endsInSeparator, beq_eq_false_iff_ne]
  exact fun hlast => h.single (List.mem_of_getLast? hlast)

theorem endsInSeparator_joined {ns : List String} (h : ∀ n ∈ ns, IsName n) :
    endsInSeparator (joined ns) = false := by
  rcases List.eq_nil_or_concat ns with rfl | ⟨front, n, rfl⟩
  · rfl
  · have hn := h n (by simp)
    by_cases hnil : front = []
    · rw [hnil, List.concat_nil, joined_singleton, hn.endsInSeparator_eq]
    · rw [List.concat_eq_append, joined_concat hnil, endsInSeparator_append hn.nonempty,
        hn.endsInSeparator_eq]

theorem trimEnd_joined {ns : List String} (h : ∀ n ∈ ns, IsName n) :
    trimEnd separator (joined ns) = joined ns := by
  apply trimEnd_of_getLast?_ne
  rw [← beq_eq_false_iff_ne]
  exact endsInSeparator_joined h

/-- A text without the separators at its end does not end in one. -/
theorem endsInSeparator_trimEnd (s : String) : endsInSeparator (trimEnd separator s) = false :=
  beq_eq_false_iff_ne.2 (trimEnd_eq_iff.1 rfl).2

/-- What is trimmed from the end of a text. -/
theorem exists_trimmed (s : String) : ∃ cs : List Char, (∀ c ∈ cs, c = separator) ∧
    s = trimEnd separator s ++ String.ofList cs := by
  obtain ⟨⟨n, hn⟩, -⟩ := trimEnd_eq_iff.1 (rfl : trimEnd separator s = _)
  refine ⟨List.replicate n separator, fun c => List.eq_of_mem_replicate, ?_⟩
  apply String.toList_injective
  rw [String.toList_append, String.toList_ofList]
  exact hn

/-- Separators at the end of a text add no name. -/
theorem names_append_separators {cs : List Char} (h : ∀ c ∈ cs, c = separator) :
    ∀ s : String, names (s ++ String.ofList cs) = names s := by
  induction cs with
  | nil => intro s; rw [String.ofList_nil, String.append_empty]
  | cons c rest ih =>
    intro s
    have hcons : s ++ String.ofList (c :: rest) = s ++ slash ++ String.ofList rest := by
      apply String.toList_injective
      simp [h c List.mem_cons_self, slash, separator]
    rw [hcons, ih fun c hc => h c (List.mem_cons_of_mem _ hc), names_append_slash]

/-- A name behind nothing or behind a separator is the last name of a text. -/
theorem names_append_name {s n : String} (hs : s = "" ∨ endsInSeparator s = true) (hn : IsName n) :
    names (s ++ n) = names s ++ [n] := by
  rcases hs with rfl | hs
  · rw [String.empty_append, hn.names_eq]
    rfl
  · obtain ⟨front, hfront⟩ : ∃ front, s = front ++ slash := by
      rw [endsInSeparator, beq_iff_eq, List.getLast?_eq_some_iff] at hs
      obtain ⟨cs, hcs⟩ := hs
      refine ⟨String.ofList cs, String.toList_injective ?_⟩
      rw [hcs, String.toList_append, String.toList_ofList]
      rfl
    rw [hfront, names_append_slash_append, names_append_slash, hn.names_eq]

/-! ## Initial names -/

/-- **What starts with a joined text and a separator** has the joined names before all others. -/
theorem prefix_of_hasPrefix {ns : List String} (h : ∀ n ∈ ns, IsName n) {k : String}
    (hk : hasPrefix (joined ns ++ slash) k = true) : ns <+: names k := by
  obtain ⟨rest, rfl⟩ := hasPrefix_iff_exists.1 hk
  rw [names_append_slash_append, names_joined h]
  exact List.prefix_append ns (names rest)

end BucketFs.Text
