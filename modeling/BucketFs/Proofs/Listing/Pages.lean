import BucketFs.Proofs.Bytes.Base64
import BucketFs.Proofs.Listing.Entries

/-!
# One page of a listing

A page shows the first entries behind a marker.

* `ListsKey` and `ListsGroup` say which keys and groups a listing has to show; `object_mem_iff` and
  `group_mem_iff` that these are its entries.
* `PageSpec`, `page_spec` — what one page says about the bucket it was made from.
* `entriesAfter_last` — in an unchanged bucket the next page starts where this one ended.
* `page_check` — a page without an empty entry passes its check.
-/

namespace BucketFs

open BucketFs.Text BucketFs.Listing

/-- The names of the entries of a page. -/
def ListPage.names (p : ListPage) : List String := p.keys ++ p.commonPrefixes

@[simp] theorem ListPage.length_names (p : ListPage) : p.names.length = p.size := by
  simp [names, size, keys]

namespace Listing

variable {listed : String} {delimiter : Option String}

/-! ## What a listing has to show -/

/-- A stored key under the listed prefix without the delimiter behind it. -/
structure ListsKey (b : Bucket) (listed : String) (delimiter : Option String) (k : String) :
    Prop where
  stored : k ∈ b.keys
  ungrouped : ∃ rest, k = listed ++ rest ∧
    ∀ d, delimiter = some d → d ≠ "" → ¬ Occurs d rest

/-- A text that ends in the first delimiter behind the listed prefix, and that a stored key starts
with. -/
structure ListsGroup (b : Bucket) (listed : String) (delimiter : Option String) (g : String) :
    Prop where
  ends : ∃ d p, delimiter = some d ∧ d ≠ "" ∧ g = listed ++ p ∧ EndsFirst d p
  inhabited : ∃ k ∈ b.keys, hasPrefix g k = true

/-- The delimiter that a listing groups by: an empty one groups nothing. -/
abbrev effective (delimiter : Option String) : Option String := delimiter.filter fun d => d ≠ ""

theorem effective_eq_some_iff {d : String} :
    effective delimiter = some d ↔ delimiter = some d ∧ d ≠ "" := by
  simp [effective, Option.filter_eq_some_iff]

/-- All entries of a bucket. -/
abbrev entries (b : Bucket) (listed : String) (delimiter : Option String) : List Entry :=
  entriesAfter b listed (effective delimiter) none

theorem mem_entries {b : Bucket} {e : Entry} :
    e ∈ entries b listed delimiter ↔
      ∃ o ∈ b.entries, hasPrefix listed o.1 = true ∧
        entryOf listed (effective delimiter) o = e := by
  simp [entries, mem_entriesAfter, isAfter]

theorem group_mem_iff {b : Bucket} {g : String} :
    Entry.group g ∈ entries b listed delimiter ↔ ListsGroup b listed delimiter g := by
  rw [mem_entries]
  constructor
  · rintro ⟨o, ho, hpre, he⟩
    have hg : groupOf? listed (effective delimiter) o.1 = some g := by
      unfold entryOf at he
      split at he
      · rename_i g' hg'
        cases he
        exact hg'
      · cases he
    obtain ⟨⟨d, p, hd, rfl, hp⟩, hgo⟩ := (groupOf?_eq_some_iff hpre).1 hg
    obtain ⟨hd, hd0⟩ := effective_eq_some_iff.1 hd
    exact ⟨⟨d, p, hd, hd0, rfl, hp⟩, o.1, List.mem_map.2 ⟨o, ho, rfl⟩, hgo⟩
  · rintro ⟨⟨d, p, hd, hd0, rfl, hp⟩, k, hk, hgk⟩
    obtain ⟨o, ho, rfl⟩ := List.mem_map.1 hk
    have hg : IsGroup listed (effective delimiter) (listed ++ p) :=
      ⟨d, p, effective_eq_some_iff.2 ⟨hd, hd0⟩, rfl, hp⟩
    exact ⟨o, ho, hasPrefix_trans (hasPrefix_append listed p) hgk, by
      rw [entryOf, groupOf?_of_isGroup hg hgk]⟩

theorem object_mem_iff {b : Bucket} {info : ObjectInfo} :
    Entry.object info ∈ entries b listed delimiter ↔
      ListsKey b listed delimiter info.key ∧
        ∃ o, b.get? info.key = some o ∧ info = o.info info.key := by
  rw [mem_entries]
  constructor
  · rintro ⟨⟨k, o⟩, ho, hpre, he⟩
    obtain ⟨rest, rfl⟩ := hasPrefix_iff_exists.1 hpre
    unfold entryOf at he
    split at he
    · cases he
    · rename_i hg
      cases he
      have hget := KeyMap.get?_eq_some_iff.2 ho
      refine ⟨⟨KeyMap.mem_keys_iff.2 ⟨o, hget⟩, rest, rfl, fun d hd hd0 => ?_⟩, o, hget, rfl⟩
      exact groupOf?_eq_none_iff.1 hg d (effective_eq_some_iff.2 ⟨hd, hd0⟩)
  · rintro ⟨⟨-, rest, hrest, hno⟩, o, ho, hinfo⟩
    have hg : groupOf? listed (effective delimiter) info.key = none := by
      rw [hrest, groupOf?_eq_none_iff]
      intro d hd
      obtain ⟨hd, hd0⟩ := effective_eq_some_iff.1 hd
      exact hno d hd hd0
    refine ⟨(info.key, o), KeyMap.get?_eq_some_iff.1 ho, ?_, ?_⟩
    · rw [hrest]
      exact hasPrefix_append listed rest
    · rw [entryOf, hg, ← hinfo]

/-- An entry of the given name. -/
def HasEntry (b : Bucket) (listed : String) (delimiter : Option String) (n : String) : Prop :=
  ∃ e ∈ entries b listed delimiter, e.name = n

theorem ListsKey.hasEntry {b : Bucket} {k : String} (h : ListsKey b listed delimiter k) :
    HasEntry b listed delimiter k := by
  obtain ⟨o, ho⟩ := KeyMap.mem_keys_iff.1 h.stored
  exact ⟨.object (o.info k), object_mem_iff.2 ⟨h, o, ho, rfl⟩, rfl⟩

theorem ListsGroup.hasEntry {b : Bucket} {g : String} (h : ListsGroup b listed delimiter g) :
    HasEntry b listed delimiter g :=
  ⟨.group g, group_mem_iff.2 h, rfl⟩

theorem hasEntry_iff {b : Bucket} {n : String} :
    HasEntry b listed delimiter n ↔
      ListsKey b listed delimiter n ∨ ListsGroup b listed delimiter n := by
  constructor
  · rintro ⟨e, he, rfl⟩
    cases e with
    | object info => exact .inl (object_mem_iff.1 he).1
    | group g => exact .inr (group_mem_iff.1 he)
  · rintro (h | h)
    · exact h.hasEntry
    · exact h.hasEntry

section Cut

variable {α : Type} {f : α → String} {l : List α} {k : Nat} {a : α}

theorem le_getLast_of_mem_take (hl : l.Pairwise fun x y => f x < f y)
    (ha : (l.take k).getLast? = some a) {e : α} (he : e ∈ l.take k) : f e ≤ f a := by
  obtain ⟨front, hfront⟩ := List.getLast?_eq_some_iff.1 ha
  have hasc := hl.sublist (List.take_sublist k l)
  rw [hfront, List.pairwise_append] at hasc
  rw [hfront, List.mem_append, List.mem_singleton] at he
  rcases he with he | rfl
  · exact Std.le_of_lt (hasc.2.2 e he a (by simp))
  · exact String.le_refl _

theorem getLast_lt_of_mem_drop (hl : l.Pairwise fun x y => f x < f y)
    (ha : (l.take k).getLast? = some a) {e : α} (he : e ∈ l.drop k) : f a < f e := by
  rw [← List.take_append_drop k l, List.pairwise_append] at hl
  exact hl.2.2 a (List.mem_of_getLast? ha) e he

/-- The first elements are those up to the last of them. -/
theorem mem_take_iff_le (hl : l.Pairwise fun x y => f x < f y)
    (ha : (l.take k).getLast? = some a) {e : α} (he : e ∈ l) : e ∈ l.take k ↔ f e ≤ f a := by
  constructor
  · exact le_getLast_of_mem_take hl ha
  · intro hle
    rw [← List.take_append_drop k l, List.mem_append] at he
    rcases he with he | he
    · exact he
    · exact absurd (getLast_lt_of_mem_drop hl ha he) (String.not_lt.2 hle)

/-- What is greater than the last of the first elements is what stands behind them. -/
theorem filter_lt_getLast (hl : l.Pairwise fun x y => f x < f y)
    (ha : (l.take k).getLast? = some a) : (l.filter fun e => f a < f e) = l.drop k := by
  have htake : ((l.take k).filter fun e => f a < f e) = [] := by
    rw [List.filter_eq_nil_iff]
    intro e he
    rw [decide_eq_true_eq, String.not_lt]
    exact le_getLast_of_mem_take hl ha he
  have hdrop : ((l.drop k).filter fun e => f a < f e) = l.drop k := by
    rw [List.filter_eq_self]
    intro e he
    simpa using getLast_lt_of_mem_drop hl ha he
  calc (l.filter fun e => f a < f e)
      = ((l.take k ++ l.drop k).filter fun e => f a < f e) := by rw [List.take_append_drop]
    _ = l.drop k := by rw [List.filter_append, htake, hdrop, List.nil_append]

end Cut

/-! ## The page -/

theorem names_perm (es : List Entry) :
    ((es.filterMap Entry.info?).map (·.key) ++ es.filterMap Entry.group?).Perm
      (es.map Entry.name) := by
  induction es with
  | nil => exact .nil
  | cons e rest ih =>
    cases e with
    | object info => exact ih.cons info.key
    | group g => exact (List.perm_middle).trans (ih.cons g)

variable {b : Bucket} {marker : Option String} {limit : Nat}

/-- The entries that a page shows. -/
abbrev shown (b : Bucket) (listed : String) (delimiter marker : Option String) (limit : Nat) :
    List Entry :=
  (entriesAfter b listed (effective delimiter) marker).take limit

theorem page_names_perm (b : Bucket) (listed : String) (delimiter marker : Option String)
    (limit : Nat) :
    (page b listed delimiter marker limit).names.Perm
      ((shown b listed delimiter marker limit).map Entry.name) :=
  names_perm _

theorem mem_page_names {n : String} :
    n ∈ (page b listed delimiter marker limit).names ↔
      ∃ e ∈ shown b listed delimiter marker limit, e.name = n := by
  rw [(page_names_perm b listed delimiter marker limit).mem_iff, List.mem_map]

theorem page_size :
    (page b listed delimiter marker limit).size =
      min limit (entriesAfter b listed (effective delimiter) marker).length := by
  have h := (page_names_perm b listed delimiter marker limit).length_eq
  rwa [ListPage.length_names, List.length_map, List.length_take] at h

theorem page_truncated_iff :
    (page b listed delimiter marker limit).truncated = true ↔
      limit < (entriesAfter b listed (effective delimiter) marker).length :=
  decide_eq_true_iff

theorem page_names_nodup : (page b listed delimiter marker limit).names.Nodup := by
  rw [(page_names_perm b listed delimiter marker limit).nodup_iff, List.Nodup, List.pairwise_map]
  exact ((entriesAfter_ascending b marker).sublist (List.take_sublist _ _)).imp String.ne_of_lt

/-- A full page ends in some entry, which its token carries. -/
theorem page_token (hlimit : 0 < limit)
    (h : (page b listed delimiter marker limit).truncated = true) :
    ∃ a, (shown b listed delimiter marker limit).getLast? = some a ∧
      (page b listed delimiter marker limit).nextToken = some (Token.encode a.name) := by
  have hlen := page_truncated_iff.1 h
  have hne : shown b listed delimiter marker limit ≠ [] := by
    intro h0
    have := congrArg List.length h0
    simp only [List.length_take, List.length_nil] at this
    omega
  refine ⟨_, List.getLast?_eq_some_getLast hne, ?_⟩
  have htoken : (page b listed delimiter marker limit).nextToken =
      (shown b listed delimiter marker limit).getLast?.map fun e => Token.encode e.name := by
    simp only [page, hlen, decide_true, if_true]
  rw [htoken, List.getLast?_eq_some_getLast hne, Option.map_some]

/-! ## What a page says about its bucket -/

/-- Whether a name stands behind a marker. -/
def Behind (marker : Option String) (n : String) : Prop := ∀ m, marker = some m → m < n

/-- Whether a marker is one that a listing hands out. -/
def IsMarker (listed : String) (delimiter marker : Option String) : Prop :=
  ∀ m, marker = some m → IsEntryName listed (effective delimiter) m

theorem behind_none (n : String) : Behind none n := fun m hm => (Option.some_ne_none m hm.symm).elim

theorem isMarker_none : IsMarker listed delimiter none := fun m hm =>
  (Option.some_ne_none m hm.symm).elim

theorem mem_entriesAfter_iff {e : Entry} (hm : IsMarker listed delimiter marker) :
    e ∈ entriesAfter b listed (effective delimiter) marker ↔
      e ∈ entries b listed delimiter ∧ Behind marker e.name := by
  cases marker with
  | none => simp [Behind]
  | some m => simp [entriesAfter_some (hm m rfl), Behind]

/-- What a page says about the entries of its bucket behind a marker. -/
structure PageSpec (b : Bucket) (listed : String) (delimiter marker : Option String) (limit : Nat)
    (p : ListPage) : Prop where
  distinct : p.names.Nodup
  behind : ∀ n ∈ p.names, Behind marker n
  objects : ∀ info ∈ p.objects, Entry.object info ∈ entries b listed delimiter
  groups : ∀ g ∈ p.commonPrefixes, Entry.group g ∈ entries b listed delimiter
  /-- The last page has all that is left. -/
  last : p.truncated = false → ∀ n, HasEntry b listed delimiter n → Behind marker n → n ∈ p.names
  /-- A page that is cut is full, and has all that is left up to the entry of its token. -/
  cut : p.truncated = true → p.size = limit ∧ ∃ m ∈ p.names,
    p.nextToken = some (Token.encode m) ∧ IsEntryName listed (effective delimiter) m ∧
      (∀ n ∈ p.names, n ≤ m) ∧
      ∀ n, HasEntry b listed delimiter n → Behind marker n → n ≤ m → n ∈ p.names

/-- **Every page says the truth about its bucket**, from whatever place it starts. -/
theorem page_spec (b : Bucket) (hm : IsMarker listed delimiter marker) (hlimit : 0 < limit) :
    PageSpec b listed delimiter marker limit (page b listed delimiter marker limit) := by
  have hshown : ∀ e ∈ shown b listed delimiter marker limit,
      e ∈ entries b listed delimiter ∧ Behind marker e.name := fun e he =>
    (mem_entriesAfter_iff hm).1 (List.mem_of_mem_take he)
  refine ⟨page_names_nodup, ?_, ?_, ?_, ?_, ?_⟩
  · intro n hn
    obtain ⟨e, he, rfl⟩ := mem_page_names.1 hn
    exact (hshown e he).2
  · intro info hinfo
    obtain ⟨e, he, hei⟩ := List.mem_filterMap.1 hinfo
    cases e with
    | object info' => cases hei; exact (hshown _ he).1
    | group g => cases hei
  · intro g hg
    obtain ⟨e, he, heg⟩ := List.mem_filterMap.1 hg
    cases e with
    | object info => cases heg
    | group g' => cases heg; exact (hshown _ he).1
  · intro htrunc n hn hbehind
    obtain ⟨e, he, rfl⟩ := hn
    have hlen : ¬ limit < (entriesAfter b listed (effective delimiter) marker).length := by
      rw [← page_truncated_iff, htrunc]
      exact Bool.false_ne_true
    refine mem_page_names.2 ⟨e, ?_, rfl⟩
    rw [shown, List.take_of_length_le (by omega)]
    exact (mem_entriesAfter_iff hm).2 ⟨he, hbehind⟩
  · intro htrunc
    have hlen := page_truncated_iff.1 htrunc
    obtain ⟨a, ha, htoken⟩ := page_token hlimit htrunc
    have hasc : (entriesAfter b listed (effective delimiter) marker).Pairwise fun x y =>
      x.name < y.name := entriesAfter_ascending b marker
    refine ⟨by rw [page_size]; omega, a.name, ?_, htoken, ?_, ?_, ?_⟩
    · exact mem_page_names.2 ⟨a, List.mem_of_getLast? ha, rfl⟩
    · exact isEntryName_of_mem (List.mem_of_mem_take (List.mem_of_getLast? ha))
    · intro n hn
      obtain ⟨e, he, rfl⟩ := mem_page_names.1 hn
      exact le_getLast_of_mem_take hasc ha he
    · intro n hn hbehind hle
      obtain ⟨e, he, rfl⟩ := hn
      have hmem := (mem_entriesAfter_iff hm).2 ⟨he, hbehind⟩
      exact mem_page_names.2 ⟨e, (mem_take_iff_le hasc ha hmem).2 hle, rfl⟩

/-- **In an unchanged bucket** the page behind a full one starts where that one ended. -/
theorem entriesAfter_last {a : Entry} (hm : IsMarker listed delimiter marker)
    (ha : (shown b listed delimiter marker limit).getLast? = some a) :
    entriesAfter b listed (effective delimiter) (some a.name) =
      (entriesAfter b listed (effective delimiter) marker).drop limit := by
  have hasc : (entriesAfter b listed (effective delimiter) marker).Pairwise fun x y =>
    x.name < y.name := entriesAfter_ascending b marker
  have hmem := List.mem_of_mem_take (List.mem_of_getLast? ha)
  have hlast := (mem_entriesAfter_iff hm).1 hmem
  rw [← filter_lt_getLast hasc ha]
  refine eq_of_ascending (entriesAfter_ascending b _) (hasc.sublist List.filter_sublist) fun e => ?_
  rw [entriesAfter_some (isEntryName_of_mem hmem), List.mem_filter, List.mem_filter,
    mem_entriesAfter_iff hm]
  simp only [decide_eq_true_eq]
  constructor
  · rintro ⟨he, hlt⟩
    exact ⟨⟨he, fun m hmm => String.lt_trans (hlast.2 m hmm) hlt⟩, hlt⟩
  · rintro ⟨⟨he, -⟩, hlt⟩
    exact ⟨he, hlt⟩

/-! ## The check of a page -/

theorem firstRepeated?_eq_none_iff {seen ks : List String} :
    ListPage.firstRepeated? seen ks = none ↔ ks.Nodup ∧ ∀ k ∈ ks, k ∉ seen := by
  induction ks generalizing seen with
  | nil => simp [ListPage.firstRepeated?]
  | cons k rest ih =>
    rw [ListPage.firstRepeated?, List.nodup_cons, List.forall_mem_cons]
    split
    · rename_i hseen
      exact ⟨fun h => absurd h (Option.some_ne_none k), fun h => absurd hseen h.2.1⟩
    · rename_i hseen
      rw [ih]
      constructor
      · rintro ⟨hrest, hnew⟩
        exact ⟨⟨fun hk => hnew k hk List.mem_cons_self, hrest⟩, hseen,
          fun k' hk' hmem => hnew k' hk' (List.mem_cons_of_mem _ hmem)⟩
      · rintro ⟨⟨hk, hrest⟩, -, hnew⟩
        refine ⟨hrest, fun k' hk' hmem => ?_⟩
        rcases List.mem_cons.1 hmem with rfl | hmem
        · exact hk hk'
        · exact hnew k' hk' hmem

theorem token_ne_empty {m : String} (h : m ≠ "") : Token.encode m ≠ "" := by
  intro hm
  have hdecode := Token.decode_encode m
  rw [hm, show "" = Token.encode "" from rfl, Token.decode_encode] at hdecode
  cases hdecode
  exact h rfl

theorem page_keys_nodup : (page b listed delimiter marker limit).keys.Nodup :=
  page_names_nodup.sublist (List.sublist_append_left _ _)

/-- The keys of a page are distinct, so only a token without text is refused. -/
theorem page_check_eq :
    (page b listed delimiter marker limit).check =
      if (page b listed delimiter marker limit).truncated = true ∧
          (page b listed delimiter marker limit).nextToken.getD "" = "" then
        .error (.internal (.truncatedWithoutToken listed))
      else .ok () := by
  unfold ListPage.check
  rw [firstRepeated?_eq_none_iff.2 ⟨page_keys_nodup, by simp⟩]
  simp only [Bool.and_eq_true, String.isEmpty_iff]
  rfl

/-- **A page passes its check** when no entry is empty: its keys are distinct, and its token carries
the last entry. -/
theorem page_check (hlimit : 0 < limit)
    (hne : ∀ e ∈ shown b listed delimiter marker limit, e.name ≠ "") :
    (page b listed delimiter marker limit).check = .ok () := by
  rw [page_check_eq, if_neg]
  rintro ⟨htruncated, hbad⟩
  obtain ⟨a, ha, htoken⟩ := page_token hlimit htruncated
  rw [htoken, Option.getD_some] at hbad
  exact token_ne_empty (hne a (List.mem_of_getLast? ha)) hbad

end Listing

end BucketFs
