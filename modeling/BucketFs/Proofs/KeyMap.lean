import BucketFs.KeyMap

/-!
# What a map answers

A map is seen through `KeyMap.get?`.  `get?_insert` and `get?_erase` say what a change does to that
view, and `ext_get?` that the view determines the map.
-/

namespace BucketFs

/-- A list in strictly ascending order is determined by its elements. -/
theorem eq_of_ascending {α : Type} {f : α → String} {l m : List α}
    (hl : l.Pairwise fun a b => f a < f b) (hm : m.Pairwise fun a b => f a < f b)
    (h : ∀ a, a ∈ l ↔ a ∈ m) : l = m := by
  have hne : ∀ {a b : α}, f a < f b → a ≠ b := fun hab he => String.lt_irrefl _ (he ▸ hab)
  refine List.Perm.eq_of_pairwise ?_ hl hm ?_
  · intro a b _ _ hab hba
    exact absurd hba (String.lt_asymm hab)
  · exact (List.perm_ext_iff_of_nodup (hl.imp hne) (hm.imp hne)).2 h

namespace KeyMap

variable {α : Type}

theorem lookup_cons_eq (e : String × α) (l : List (String × α)) (k : String) :
    (e :: l).lookup k = if k = e.1 then some e.2 else l.lookup k := by
  obtain ⟨k', v⟩ := e
  rw [List.lookup_cons]
  by_cases h : k = k'
  · simp [h]
  · have hb : (k == k') = false := by simp [h]
    simp [hb, h]

theorem get?_eq_some_iff {m : KeyMap α} {k : String} {v : α} :
    m.get? k = some v ↔ (k, v) ∈ m.entries := by
  obtain ⟨l, hl⟩ := m
  unfold get?
  induction l with
  | nil => simp
  | cons e rest ih =>
    have hrest := (List.pairwise_cons.1 hl).2
    have hhead := (List.pairwise_cons.1 hl).1
    simp only [lookup_cons_eq, List.mem_cons]
    split
    · rename_i hk
      subst hk
      rw [Option.some.injEq]
      constructor
      · rintro rfl
        exact .inl rfl
      · rintro (h | h)
        · rw [← h]
        · exact absurd (hhead _ h) (String.lt_irrefl _)
    · rename_i hk
      rw [ih hrest]
      constructor
      · exact .inr
      · rintro (rfl | h)
        · exact absurd rfl hk
        · exact h

theorem mem_keys_iff {m : KeyMap α} {k : String} : k ∈ m.keys ↔ ∃ v, m.get? k = some v := by
  simp only [keys, List.mem_map, get?_eq_some_iff]
  constructor
  · rintro ⟨e, he, rfl⟩
    exact ⟨e.2, he⟩
  · rintro ⟨v, hv⟩
    exact ⟨(k, v), hv, rfl⟩

theorem keys_nodup (m : KeyMap α) : m.keys.Nodup := by
  rw [keys, List.Nodup, List.pairwise_map]
  exact m.ascending.imp fun hlt => String.ne_of_lt hlt

theorem lookup_insertEntry (k : String) (v : α) (l : List (String × α)) (k' : String) :
    (insertEntry k v l).lookup k' = if k' = k then some v else l.lookup k' := by
  induction l with
  | nil => rw [insertEntry, lookup_cons_eq]
  | cons e rest ih =>
    rw [insertEntry]
    split
    · rw [lookup_cons_eq]
    · split
      · rename_i heq
        simp only [lookup_cons_eq, ← heq]
        split <;> rfl
      · rename_i hne
        simp only [lookup_cons_eq, ih]
        by_cases h : k' = e.1
        · simp [h, Ne.symm hne]
        · simp [h]

theorem get?_insert (m : KeyMap α) (k : String) (v : α) (k' : String) :
    (m.insert k v).get? k' = if k' = k then some v else m.get? k' :=
  lookup_insertEntry k v m.entries k'

@[simp] theorem get?_insert_self (m : KeyMap α) (k : String) (v : α) :
    (m.insert k v).get? k = some v := by
  simp [get?_insert]

theorem get?_insert_of_ne {m : KeyMap α} {k k' : String} {v : α} (h : k' ≠ k) :
    (m.insert k v).get? k' = m.get? k' := by
  simp [get?_insert, h]

theorem lookup_erased (k : String) (l : List (String × α)) (k' : String) :
    (l.filter fun e => e.1 ≠ k).lookup k' = if k' = k then none else l.lookup k' := by
  induction l with
  | nil => simp
  | cons e rest ih =>
    rw [List.filter_cons, lookup_cons_eq]
    by_cases he : e.1 = k
    · rw [if_neg (by simp [he]), ih]
      by_cases h : k' = k
      · simp [h]
      · simp [h, he]
    · rw [if_pos (by simp [he]), lookup_cons_eq, ih]
      by_cases h : k' = e.1
      · simp [h, he]
      · simp [h]

theorem get?_erase (m : KeyMap α) (k k' : String) :
    (m.erase k).get? k' = if k' = k then none else m.get? k' :=
  lookup_erased k m.entries k'

@[simp] theorem get?_erase_self (m : KeyMap α) (k : String) : (m.erase k).get? k = none := by
  simp [get?_erase]

theorem get?_erase_of_ne {m : KeyMap α} {k k' : String} (h : k' ≠ k) :
    (m.erase k).get? k' = m.get? k' := by
  simp [get?_erase, h]

/-- **Maps with the same answers are equal.** -/
theorem ext_get? {m n : KeyMap α} (h : ∀ k, m.get? k = n.get? k) : m = n := by
  apply ext
  refine eq_of_ascending m.ascending n.ascending fun e => ?_
  rw [show e = (e.1, e.2) from rfl, ← get?_eq_some_iff, ← get?_eq_some_iff, h]

theorem erase_of_get?_eq_none {m : KeyMap α} {k : String} (h : m.get? k = none) :
    m.erase k = m := by
  refine ext_get? fun k' => ?_
  rw [get?_erase]
  split
  · rename_i hk
    rw [hk, h]
  · rfl

theorem erase_insert (m : KeyMap α) (k : String) (v : α) : (m.insert k v).erase k = m.erase k := by
  refine ext_get? fun k' => ?_
  by_cases hk : k' = k <;> simp [get?_erase, get?_insert, hk]

theorem erase_erase (m : KeyMap α) (k : String) : (m.erase k).erase k = m.erase k :=
  erase_of_get?_eq_none (get?_erase_self m k)

end KeyMap

end BucketFs
