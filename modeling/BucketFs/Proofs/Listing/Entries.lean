import BucketFs.Proofs.KeyMap
import BucketFs.Proofs.Text.Prefix
import BucketFs.Store.Page

/-!
# The entries of a listing

Every key under the listed prefix makes one entry: itself, or the group it falls into.

* `nameOf_mono` — the entries of ascending keys ascend, so the keys of a group are neighbours.
* `isAfter_iff` — the test for what comes after a marker asks for a greater entry, although it
  looks at the key alone.
* `entriesAfter_ascending`, `mem_entriesAfter` and `entriesAfter_some` — the entries are listed in
  strictly ascending order, each once, and a marker cuts them off at its own place.
-/

namespace BucketFs.Listing

open BucketFs.Text

variable {listed : String} {delimiter : Option String}

/-! ## Groups -/

/-- Whether `g` is a group: the delimiter stands at its end, and nowhere before that behind the
listed prefix. -/
def IsGroup (listed : String) (delimiter : Option String) (g : String) : Prop :=
  ∃ d p, delimiter = some d ∧ g = listed ++ p ∧ EndsFirst d p

theorem IsGroup.hasPrefix_listed {g : String} (h : IsGroup listed delimiter g) :
    hasPrefix listed g = true := by
  obtain ⟨d, p, -, rfl, -⟩ := h
  exact hasPrefix_append listed p

theorem groupOf?_append (d r : String) :
    groupOf? listed (some d) (listed ++ r) =
      (upThrough? d.toList r.toList).map fun cs => listed ++ String.ofList cs := by
  simp only [groupOf?, drop_append]

/-- **The group of a key** is the one group that the key starts with. -/
theorem groupOf?_eq_some_iff {k g : String} (hk : hasPrefix listed k = true) :
    groupOf? listed delimiter k = some g ↔ IsGroup listed delimiter g ∧ hasPrefix g k = true := by
  obtain ⟨r, rfl⟩ := hasPrefix_iff_exists.1 hk
  constructor
  · intro h
    cases delimiter with
    | none => cases h
    | some d =>
      rw [groupOf?_append, Option.map_eq_some_iff] at h
      obtain ⟨cs, hcs, rfl⟩ := h
      rw [← String.toList_ofList (l := cs), upThrough?_eq_some_iff] at hcs
      exact ⟨⟨d, _, rfl, rfl, hcs.2⟩, hasPrefix_append_left.2 hcs.1⟩
  · rintro ⟨⟨d, p, rfl, rfl, hp⟩, hpr⟩
    rw [groupOf?_append, upThrough?_eq_some_iff.2 ⟨hasPrefix_append_left.1 hpr, hp⟩]
    simp

theorem groupOf?_eq_none_iff {r : String} :
    groupOf? listed delimiter (listed ++ r) = none ↔ ∀ d, delimiter = some d → ¬ Occurs d r := by
  cases delimiter with
  | none => simp [groupOf?]
  | some d => simp [groupOf?_append, upThrough?_eq_none_iff]

theorem groupOf?_of_isGroup {k g : String} (hg : IsGroup listed delimiter g)
    (hk : hasPrefix g k = true) : groupOf? listed delimiter k = some g :=
  (groupOf?_eq_some_iff (hasPrefix_trans hg.hasPrefix_listed hk)).2 ⟨hg, hk⟩

theorem isGroup_of_groupOf? {k g : String} (hk : hasPrefix listed k = true)
    (h : groupOf? listed delimiter k = some g) : IsGroup listed delimiter g :=
  ((groupOf?_eq_some_iff hk).1 h).1

/-! ## Names -/

/-- The name of the entry that a key makes. -/
def nameOf (listed : String) (delimiter : Option String) (key : String) : String :=
  (groupOf? listed delimiter key).getD key

@[simp] theorem name_entryOf (o : String × ObjectRecord) :
    (entryOf listed delimiter o).name = nameOf listed delimiter o.1 := by
  unfold entryOf nameOf
  split
  · rename_i g h; rw [h]; rfl
  · rename_i h; rw [h]; rfl

theorem nameOf_of_isGroup {k g : String} (hg : IsGroup listed delimiter g)
    (hk : hasPrefix g k = true) : nameOf listed delimiter k = g := by
  rw [nameOf, groupOf?_of_isGroup hg hk]; rfl

theorem nameOf_of_ungrouped {k : String} (h : groupOf? listed delimiter k = none) :
    nameOf listed delimiter k = k := by
  rw [nameOf, h]; rfl

/-- A key is an entry of its own, or its entry is a group that it starts with. -/
theorem nameOf_cases (delimiter : Option String) {k : String} (hk : hasPrefix listed k = true) :
    (groupOf? listed delimiter k = none ∧ nameOf listed delimiter k = k) ∨
      (IsGroup listed delimiter (nameOf listed delimiter k) ∧
        hasPrefix (nameOf listed delimiter k) k = true) := by
  cases h : groupOf? listed delimiter k with
  | none => exact .inl ⟨rfl, nameOf_of_ungrouped h⟩
  | some g =>
    have hg : nameOf listed delimiter k = g := by rw [nameOf, h]; rfl
    rw [hg]
    exact .inr ((groupOf?_eq_some_iff hk).1 h)

theorem hasPrefix_nameOf {k : String} (hk : hasPrefix listed k = true) :
    hasPrefix (nameOf listed delimiter k) k = true := by
  rcases nameOf_cases delimiter hk with ⟨-, h⟩ | ⟨-, h⟩
  · rw [h]; exact hasPrefix_refl k
  · exact h

theorem nameOf_le {k : String} (hk : hasPrefix listed k = true) :
    nameOf listed delimiter k ≤ k :=
  le_of_hasPrefix (hasPrefix_nameOf hk)

/-- **Entries ascend with their keys.** -/
theorem nameOf_mono (delimiter : Option String) {k l : String} (hk : hasPrefix listed k = true)
    (hl : hasPrefix listed l = true) (hkl : k ≤ l) :
    nameOf listed delimiter k ≤ nameOf listed delimiter l := by
  rcases nameOf_cases delimiter hl with ⟨-, hn⟩ | ⟨hg, hgl⟩
  · rw [hn]
    exact String.le_trans (nameOf_le hk) hkl
  · rcases String.le_total (nameOf listed delimiter k) (nameOf listed delimiter l) with h | h
    · exact h
    · -- then `k` lies between the group of `l` and `l` itself, hence in that group
      have hgk : hasPrefix (nameOf listed delimiter l) k = true :=
        hasPrefix_of_between hgl (String.le_trans h (nameOf_le hk)) hkl
      exact Std.le_of_eq (nameOf_of_isGroup hg hgk)

/-- Two keys make entries of one name only if both are in that group. -/
theorem isGroup_of_nameOf_eq {k l : String} (hk : hasPrefix listed k = true)
    (hl : hasPrefix listed l = true) (hne : k ≠ l)
    (h : nameOf listed delimiter k = nameOf listed delimiter l) :
    groupOf? listed delimiter k = some (nameOf listed delimiter k) ∧
      groupOf? listed delimiter l = some (nameOf listed delimiter k) := by
  have hgroup : IsGroup listed delimiter (nameOf listed delimiter k) := by
    rcases nameOf_cases delimiter hk with ⟨-, hk'⟩ | ⟨hg, -⟩
    · rcases nameOf_cases delimiter hl with ⟨-, hl'⟩ | ⟨hg, -⟩
      · exact absurd (hk'.symm.trans (h.trans hl')) hne
      · rw [h]; exact hg
    · exact hg
  refine ⟨groupOf?_of_isGroup hgroup (hasPrefix_nameOf hk), groupOf?_of_isGroup hgroup ?_⟩
  rw [h]
  exact hasPrefix_nameOf hl

/-! ## Markers -/

/-- Whether `m` is the name of an entry: an earlier page may end in it. -/
structure IsEntryName (listed : String) (delimiter : Option String) (m : String) : Prop where
  under : hasPrefix listed m = true
  nameOf_self : nameOf listed delimiter m = m

theorem isEntryName_nameOf {k : String} (hk : hasPrefix listed k = true) :
    IsEntryName listed delimiter (nameOf listed delimiter k) := by
  rcases nameOf_cases delimiter hk with ⟨-, h⟩ | ⟨hg, -⟩
  · exact ⟨by rwa [h], by rw [h, h]⟩
  · exact ⟨hg.hasPrefix_listed, nameOf_of_isGroup hg (hasPrefix_refl _)⟩

theorem isGroupMarker_iff {m : String} (hm : IsEntryName listed delimiter m) :
    isGroupMarker listed delimiter m = true ↔ IsGroup listed delimiter m := by
  unfold isGroupMarker
  rw [hm.under, Bool.true_and, Option.isSome_iff_exists]
  constructor
  · rintro ⟨g, h⟩
    have hg : m = g := by rw [← hm.nameOf_self, nameOf, h]; rfl
    rw [hg]
    rw [hg] at h
    exact isGroup_of_groupOf? (hg ▸ hm.under) h
  · intro h
    exact ⟨m, groupOf?_of_isGroup h (hasPrefix_refl m)⟩

/-- **What comes after a marker**: the keys whose entry is greater. -/
theorem isAfter_iff {m k : String} (hm : IsEntryName listed delimiter m)
    (hk : hasPrefix listed k = true) :
    isAfter listed delimiter (some m) k = true ↔ m < nameOf listed delimiter k := by
  have hle : listed ≤ m := le_of_hasPrefix hm.under
  simp only [isAfter, hle, if_true, Bool.and_eq_true, decide_eq_true_eq, Bool.not_eq_true',
    Bool.and_eq_false_iff]
  constructor
  · rintro ⟨hmk, hout⟩
    rw [← String.not_le]
    intro hnm
    rcases nameOf_cases delimiter hk with ⟨-, hn⟩ | ⟨hg, hgk⟩
    · rw [hn] at hnm
      exact hnm hmk
    · -- the marker lies in the group of `k`, so it is that group and `k` was reported with it
      have hgm : hasPrefix (nameOf listed delimiter k) m = true :=
        hasPrefix_of_between hgk hnm (Std.le_of_lt hmk)
      have heq : m = nameOf listed delimiter k := by
        rw [← nameOf_of_isGroup hg hgm, hm.nameOf_self]
      rcases hout with hout | hout
      · rw [← Bool.not_eq_true, isGroupMarker_iff hm] at hout
        exact hout (heq ▸ hg)
      · rw [heq, hgk] at hout
        cases hout
  · intro h
    refine ⟨Std.lt_of_lt_of_le h (nameOf_le hk), ?_⟩
    by_cases hmk : hasPrefix m k = true
    · refine .inl ?_
      rw [← Bool.not_eq_true, isGroupMarker_iff hm]
      intro hg
      rw [nameOf_of_isGroup hg hmk] at h
      exact String.lt_irrefl _ h
    · exact .inr (by simpa using hmk)

/-! ## Merging -/

/-- Neighbours before merging: in order, or twice the same group. -/
def Follows (a b : Entry) : Prop := a.name < b.name ∨ ∃ g, a = .group g ∧ b = .group g

theorem mem_mergeGroups {e : Entry} {l : List Entry} : e ∈ mergeGroups l ↔ e ∈ l := by
  induction l with
  | nil => simp [mergeGroups]
  | cons a rest ih =>
    unfold mergeGroups
    split
    · rename_i name next more hmore
      rw [hmore] at ih
      split
      · rename_i heq
        subst heq
        rw [ih, List.mem_cons, ← ih]
        simp
      · rw [List.mem_cons, ih, List.mem_cons]
    · rw [List.mem_cons, ih, List.mem_cons]

theorem mergeGroups_ascending {l : List Entry} (h : l.Pairwise Follows) :
    (mergeGroups l).Pairwise fun a b => a.name < b.name := by
  induction l with
  | nil => simp [mergeGroups]
  | cons a rest ih =>
    have hrest := ih (List.pairwise_cons.1 h).2
    have hhead := (List.pairwise_cons.1 h).1
    unfold mergeGroups
    split
    · rename_i name next more hmore
      rw [hmore] at hrest
      split
      · exact hrest
      · rename_i hne
        have hmem : ∀ b, b ∈ Entry.group next :: more → b ∈ rest := fun b hb => by
          rw [← mem_mergeGroups, hmore]; exact hb
        -- the first entry behind is greater, since it is no copy of the group
        have hnext : name < next := by
          rcases hhead _ (hmem _ List.mem_cons_self) with h | ⟨g, hg, hg'⟩
          · exact h
          · cases hg; cases hg'; exact absurd rfl hne
        refine List.pairwise_cons.2 ⟨fun b hb => ?_, hrest⟩
        rcases List.mem_cons.1 hb with rfl | hb'
        · exact hnext
        · exact String.lt_trans hnext ((List.pairwise_cons.1 hrest).1 b hb')
    · rename_i hno
      refine List.pairwise_cons.2 ⟨fun b hb => ?_, hrest⟩
      rcases hhead b (mem_mergeGroups.1 hb) with h | ⟨g, rfl, rfl⟩
      · exact h
      · -- a copy of the group behind would stand first among the merged entries
        exfalso
        cases hm : mergeGroups rest with
        | nil => rw [hm] at hb; cases hb
        | cons c more =>
          rw [hm] at hb hrest
          have hc : c ∈ rest := mem_mergeGroups.1 (hm ▸ List.mem_cons_self)
          rcases hhead c hc with hlt | ⟨g', hg', rfl⟩
          · rcases List.mem_cons.1 hb with rfl | hb'
            · exact String.lt_irrefl _ hlt
            · exact String.lt_irrefl _ (String.lt_trans hlt ((List.pairwise_cons.1 hrest).1 _ hb'))
          · exact hno _ _ _ rfl hm

/-! ## The entries of a bucket -/

theorem entryOf_follows {o p : String × ObjectRecord} (ho : hasPrefix listed o.1 = true)
    (hp : hasPrefix listed p.1 = true) (h : o.1 < p.1) :
    Follows (entryOf listed delimiter o) (entryOf listed delimiter p) := by
  have hle := nameOf_mono delimiter ho hp (Std.le_of_lt h)
  by_cases heq : nameOf listed delimiter o.1 = nameOf listed delimiter p.1
  · obtain ⟨h₁, h₂⟩ := isGroup_of_nameOf_eq ho hp (String.ne_of_lt h) heq
    exact .inr ⟨_, by rw [entryOf, h₁], by rw [entryOf, h₂]⟩
  · refine .inl ?_
    rw [name_entryOf, name_entryOf]
    exact Std.lt_of_le_of_ne hle heq

/-- **The entries are strictly ascending**, in particular each is listed once. -/
theorem entriesAfter_ascending (b : Bucket) (marker : Option String) :
    (entriesAfter b listed delimiter marker).Pairwise fun a b => a.name < b.name := by
  apply mergeGroups_ascending
  rw [List.pairwise_map]
  refine List.Pairwise.imp_of_mem ?_ (b.ascending.sublist List.filter_sublist)
  intro o p ho hp h
  simp only [List.mem_filter, Bool.and_eq_true] at ho hp
  exact entryOf_follows ho.2.1 hp.2.1 h

theorem mem_entriesAfter {b : Bucket} {marker : Option String} {e : Entry} :
    e ∈ entriesAfter b listed delimiter marker ↔
      ∃ o ∈ b.entries, hasPrefix listed o.1 = true ∧ isAfter listed delimiter marker o.1 = true ∧
        entryOf listed delimiter o = e := by
  simp only [entriesAfter, mem_mergeGroups, List.mem_map, List.mem_filter, Bool.and_eq_true,
    and_assoc]

/-- Every entry has the name of an entry. -/
theorem isEntryName_of_mem {b : Bucket} {marker : Option String} {e : Entry}
    (h : e ∈ entriesAfter b listed delimiter marker) : IsEntryName listed delimiter e.name := by
  obtain ⟨o, -, ho, -, rfl⟩ := mem_entriesAfter.1 h
  rw [name_entryOf]
  exact isEntryName_nameOf ho

theorem length_mergeGroups_le (l : List Entry) : (mergeGroups l).length ≤ l.length := by
  induction l with
  | nil => exact Nat.le_refl 0
  | cons e rest ih =>
    unfold mergeGroups
    split
    · rename_i hmore
      rw [hmore] at ih
      split <;> simp only [List.length_cons] at ih ⊢ <;> omega
    · simp only [List.length_cons]
      omega

theorem length_entriesAfter_le (b : Bucket) (marker : Option String) :
    (entriesAfter b listed delimiter marker).length ≤ b.size := by
  refine Nat.le_trans (length_mergeGroups_le _) ?_
  rw [List.length_map]
  exact List.length_filter_le _ _

/-- **A marker cuts the entries off at its own place.** -/
theorem entriesAfter_some {b : Bucket} {m : String} (hm : IsEntryName listed delimiter m) :
    entriesAfter b listed delimiter (some m) =
      (entriesAfter b listed delimiter none).filter fun e => m < e.name := by
  refine eq_of_ascending (entriesAfter_ascending b _)
    ((entriesAfter_ascending b none).sublist List.filter_sublist) fun e => ?_
  simp only [List.mem_filter, mem_entriesAfter, decide_eq_true_eq]
  constructor
  · rintro ⟨o, hob, ho, hafter, rfl⟩
    exact ⟨⟨o, hob, ho, rfl, rfl⟩, by rwa [name_entryOf, ← isAfter_iff hm ho]⟩
  · rintro ⟨⟨o, hob, ho, -, rfl⟩, hlt⟩
    rw [name_entryOf] at hlt
    exact ⟨o, hob, ho, (isAfter_iff hm ho).2 hlt, rfl⟩

end BucketFs.Listing
