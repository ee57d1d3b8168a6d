/-!
# Maps ordered by key

A map from texts is the list of its entries in strictly ascending order of the keys, which is the
byte order of their UTF-8 forms.  Two maps with the same entries are therefore equal.
-/

namespace BucketFs

/-- A finite map from texts, in ascending order. -/
structure KeyMap (α : Type) where
  entries : List (String × α)
  ascending : entries.Pairwise fun a b => a.1 < b.1

namespace KeyMap

variable {α : Type}

/-- The map without entries. -/
def empty : KeyMap α := ⟨[], .nil⟩

/-- The number of entries. -/
def size (m : KeyMap α) : Nat := m.entries.length

/-- The keys in ascending order. -/
def keys (m : KeyMap α) : List String := m.entries.map (·.1)

/-- The value of a key. -/
def get? (m : KeyMap α) (k : String) : Option α := m.entries.lookup k

/-- Whether a key has a value. -/
def contains (m : KeyMap α) (k : String) : Bool := (m.get? k).isSome

/-- Puts an entry at its place, over an entry of the same key. -/
def insertEntry (k : String) (v : α) : List (String × α) → List (String × α)
  | [] => [(k, v)]
  | e :: rest =>
    if k < e.1 then (k, v) :: e :: rest
    else if k = e.1 then (k, v) :: rest
    else e :: insertEntry k v rest

theorem mem_insertEntry {k : String} {v : α} {l : List (String × α)} {e : String × α}
    (h : e ∈ insertEntry k v l) : e = (k, v) ∨ e ∈ l := by
  induction l with
  | nil => simpa [insertEntry] using h
  | cons a rest ih =>
    rw [insertEntry] at h
    split at h
    · simpa using h
    · split at h
      · simp only [List.mem_cons] at h ⊢
        exact h.elim .inl fun h => .inr (.inr h)
      · simp only [List.mem_cons] at h ⊢
        rcases h with h | h
        · exact .inr (.inl h)
        · exact (ih h).elim .inl fun h => .inr (.inr h)

theorem pairwise_insertEntry {k : String} {v : α} {l : List (String × α)}
    (h : l.Pairwise fun a b => a.1 < b.1) :
    (insertEntry k v l).Pairwise fun a b => a.1 < b.1 := by
  induction l with
  | nil => simp [insertEntry]
  | cons a rest ih =>
    have hrest := (List.pairwise_cons.1 h).2
    have hhead := (List.pairwise_cons.1 h).1
    rw [insertEntry]
    split
    · next hlt =>
      refine List.pairwise_cons.2 ⟨fun b hb => ?_, h⟩
      rcases List.mem_cons.1 hb with rfl | hb
      · exact hlt
      · exact String.lt_trans hlt (hhead b hb)
    · next hge =>
      split
      · next heq => exact List.pairwise_cons.2 ⟨fun b hb => heq ▸ hhead b hb, hrest⟩
      · next hne =>
        refine List.pairwise_cons.2 ⟨fun b hb => ?_, ih hrest⟩
        rcases mem_insertEntry hb with rfl | hb
        · exact String.not_le.1 fun hle => hne (String.le_antisymm hle (String.not_lt.1 hge))
        · exact hhead b hb

/-- The map with one value set. -/
def insert (m : KeyMap α) (k : String) (v : α) : KeyMap α :=
  ⟨insertEntry k v m.entries, pairwise_insertEntry m.ascending⟩

/-- The map without a key. -/
def erase (m : KeyMap α) (k : String) : KeyMap α :=
  ⟨m.entries.filter fun e => e.1 ≠ k, m.ascending.sublist List.filter_sublist⟩

theorem ext {m n : KeyMap α} (h : m.entries = n.entries) : m = n := by
  cases m; cases n; cases h; rfl

end KeyMap

end BucketFs
