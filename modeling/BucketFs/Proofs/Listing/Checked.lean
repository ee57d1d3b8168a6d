import BucketFs.Proofs.Listing.Pagination

/-!
# Which pages pass their check

A page that is cut is refused when its token has no text.  The token carries the last entry, so that
entry would be the empty key: the first of all entries, alone on its page.

* `Listing.Stuck` — the listings whose first page is refused; `Listing.page_check_cases` — no other
  page of a store in memory is.
* `Store.list_checked` — the same for the answer to a request.
-/

namespace BucketFs

open BucketFs.Text BucketFs.Listing

namespace Listing

variable {b : Bucket} {listed : String} {delimiter marker : Option String} {limit : Nat}

/-- Whether the first page of a bucket has room for one entry only, which is the empty key, and
other keys are behind it.  A listing starts at its first page when it has no marker, or no token. -/
structure Stuck (b : Bucket) (listed : String) (start : Option String) (limit : Nat) : Prop where
  whole : listed = ""
  first : start = none
  single : limit = 1
  empty : "" ∈ b.keys
  more : ∃ k ∈ b.keys, k ≠ ""

/-! ## The empty entry -/

/-- A group is not empty, so the empty key makes the only entry without a name. -/
theorem nameOf_eq_empty_iff {k : String} (hk : hasPrefix listed k = true) :
    nameOf listed (effective delimiter) k = "" ↔ k = "" := by
  constructor
  · intro hname
    rcases nameOf_cases (effective delimiter) hk with ⟨-, h⟩ | ⟨⟨d, p, hd, hg, hends⟩, -⟩
    · exact h.symm.trans hname
    · -- a group ends in the delimiter, which is not empty
      obtain ⟨-, rfl⟩ : listed = "" ∧ p = "" := by simpa [hname] using hg.symm
      exact absurd (occurs_empty_iff.1 hends.1) (effective_eq_some_iff.1 hd).2
  · rintro rfl
    exact hasPrefix_empty_right_iff.1 (hasPrefix_nameOf hk)

/-- An entry without a name is the empty key, listed from the start. -/
theorem eq_of_name_empty {e : Entry} (he : e ∈ entriesAfter b listed (effective delimiter) marker)
    (hname : e.name = "") : listed = "" ∧ marker = none ∧ "" ∈ b.keys := by
  obtain ⟨o, ho, hlisted, hafter, rfl⟩ := mem_entriesAfter.1 he
  rw [name_entryOf, nameOf_eq_empty_iff hlisted] at hname
  rw [hname] at hlisted hafter
  refine ⟨hasPrefix_empty_right_iff.1 hlisted, ?_, hname ▸ List.mem_map_of_mem ho⟩
  cases marker with
  | none => rfl
  | some m =>
    -- no text is less than the empty one
    have hle : "" ≤ m := le_of_hasPrefix (hasPrefix_empty_left m)
    rw [hasPrefix_empty_right_iff.1 hlisted, isAfter] at hafter
    simp only [hle, if_true, Bool.and_eq_true, decide_eq_true_eq] at hafter
    exact absurd hafter.1 (String.not_lt.2 hle)

/-- The empty key makes the first entry of a whole listing. -/
theorem exists_empty_entry (delimiter : Option String) (hempty : "" ∈ b.keys) :
    ∃ e ∈ entriesAfter b "" (effective delimiter) none, e.name = "" := by
  obtain ⟨o, ho, hkey⟩ := List.mem_map.1 hempty
  refine ⟨_, mem_entriesAfter.2 ⟨o, ho, hasPrefix_empty_left _, rfl, rfl⟩, ?_⟩
  rw [name_entryOf, hkey, nameOf_eq_empty_iff (hasPrefix_empty_left _)]

/-- Other keys make entries that have a name. -/
theorem exists_named_iff (b : Bucket) (delimiter : Option String) :
    (∃ e ∈ entriesAfter b "" (effective delimiter) none, e.name ≠ "") ↔ ∃ k ∈ b.keys, k ≠ "" := by
  constructor
  · rintro ⟨e, he, hname⟩
    obtain ⟨o, ho, hlisted, -, rfl⟩ := mem_entriesAfter.1 he
    rw [name_entryOf, Ne, nameOf_eq_empty_iff hlisted] at hname
    exact ⟨o.1, List.mem_map_of_mem ho, hname⟩
  · rintro ⟨k, hk, hne⟩
    obtain ⟨o, ho, rfl⟩ := List.mem_map.1 hk
    refine ⟨_, mem_entriesAfter.2 ⟨o, ho, hasPrefix_empty_left _, rfl, rfl⟩, ?_⟩
    rwa [name_entryOf, Ne, nameOf_eq_empty_iff (hasPrefix_empty_left _)]

theorem not_lt_empty (n : String) : ¬ n < "" :=
  String.not_lt.2 (le_of_hasPrefix (hasPrefix_empty_left n))

/-- **A cut page has a token without text** only when it is stuck. -/
theorem token_empty_iff (delimiter : Option String) (hlimit : 0 < limit) :
    ((page b listed delimiter marker limit).truncated = true ∧
      (page b listed delimiter marker limit).nextToken.getD "" = "") ↔
      Stuck b listed marker limit := by
  have hasc : (entriesAfter b listed (effective delimiter) marker).Pairwise fun x y =>
    x.name < y.name := entriesAfter_ascending b marker
  constructor
  · rintro ⟨htruncated, hbad⟩
    have hcut := page_truncated_iff.1 htruncated
    obtain ⟨a, ha, htoken⟩ := page_token hlimit htruncated
    rw [htoken, Option.getD_some] at hbad
    have hname : a.name = "" :=
      Decidable.byContradiction fun hne => token_ne_empty hne hbad
    obtain ⟨rfl, rfl, hempty⟩ :=
      eq_of_name_empty (List.mem_of_mem_take (List.mem_of_getLast? ha)) hname
    cases hall : entriesAfter b "" (effective delimiter) none with
    | nil =>
      rw [hall] at hcut
      exact absurd hcut (Nat.not_lt_zero _)
    | cons x rest =>
      cases rest with
      | nil =>
        rw [hall, List.length_singleton] at hcut
        omega
      | cons y rest =>
        rw [shown, hall] at ha
        rw [hall] at hasc
        have hxy : x.name < y.name := (List.pairwise_cons.1 hasc).1 y List.mem_cons_self
        have hy : y.name ≠ "" := fun h => not_lt_empty _ (h ▸ hxy)
        refine ⟨rfl, rfl, ?_, hempty, (exists_named_iff b delimiter).1 ⟨y, by rw [hall]; simp, hy⟩⟩
        -- a second entry on the page would be no greater than the last one, which has no name
        obtain ⟨n, rfl⟩ : ∃ n, limit = n + 1 := Nat.exists_eq_add_one.2 hlimit
        cases n with
        | zero => rfl
        | succ n =>
          have hle : y.name ≤ a.name := le_getLast_of_mem_take hasc ha (by simp)
          rw [hname] at hle
          exact absurd (Std.lt_of_lt_of_le hxy hle) (not_lt_empty _)
  · rintro ⟨rfl, rfl, rfl, hempty, hmore⟩
    obtain ⟨e, he, hname⟩ := exists_empty_entry delimiter hempty
    obtain ⟨e', he', hname'⟩ := (exists_named_iff b delimiter).2 hmore
    cases hall : entriesAfter b "" (effective delimiter) none with
    | nil =>
      rw [hall] at he
      cases he
    | cons x rest =>
      rw [hall] at he he' hasc
      -- the empty key comes before all others
      have hx : x.name = "" := by
        rcases List.mem_cons.1 he with rfl | he
        · exact hname
        · exact absurd (hname ▸ (List.pairwise_cons.1 hasc).1 e he) (not_lt_empty _)
      have hrest : e' ∈ rest := (List.mem_cons.1 he').resolve_left fun h => hname' (h ▸ hx)
      have hcut : 1 < (entriesAfter b "" (effective delimiter) none).length := by
        have := List.length_pos_of_mem hrest
        rw [hall, List.length_cons]
        omega
      obtain ⟨a, ha, htoken⟩ := page_token hlimit (page_truncated_iff.2 hcut)
      rw [shown, hall] at ha
      obtain rfl : x = a := Option.some.inj ha
      refine ⟨page_truncated_iff.2 hcut, ?_⟩
      rw [htoken, Option.getD_some, hx]
      rfl

/-- **Every page passes its check** that is not stuck. -/
theorem page_check_cases (hlimit : 0 < limit) :
    (¬ Stuck b listed marker limit ∧ (page b listed delimiter marker limit).check = .ok ()) ∨
      (Stuck b listed marker limit ∧ (page b listed delimiter marker limit).check =
        .error (.internal (.truncatedWithoutToken ""))) := by
  rw [page_check_eq, ← token_empty_iff delimiter hlimit]
  split
  · rename_i hbad
    have hstuck := (token_empty_iff delimiter hlimit).1 hbad
    exact .inr ⟨hbad, by rw [hstuck.whole]⟩
  · rename_i hgood
    exact .inl ⟨hgood, rfl⟩

end Listing

/-! ## Answers to requests -/

/-- Whether a request has no token, or one that can be read. -/
def ListQuery.Readable (r : ListQuery) : Prop :=
  ∀ token, r.token = some token → ∃ marker, Token.decode token = .ok marker

namespace Store

variable {s : Store} {r : ListQuery} {b : Bucket} {page : ListPage}

/-- A request that can be read is answered by a page. -/
theorem list_readable (hb : s.bucket? r.bucket = some b) (hreadable : r.Readable) :
    ∃ marker, (r.token = none ↔ marker = none) ∧
      s.list r = .ok (Listing.page b r.listed r.delimiter marker (s.effectiveLimit r.maxKeys)) := by
  rw [list]
  cases htoken : r.token with
  | none => exact ⟨none, by simp, by simp [hb, bind, Except.bind]⟩
  | some token =>
    obtain ⟨marker, hmarker⟩ := hreadable token htoken
    exact ⟨some marker, by simp, by simp [hb, hmarker, bind, Except.bind, Except.map]⟩

/-- **The answer to a request passes its check** unless it is stuck. -/
theorem list_checked (hb : s.bucket? r.bucket = some b) (hreadable : r.Readable) :
    ∃ page, s.list r = .ok page ∧
      ((¬ Stuck b r.listed r.token (s.effectiveLimit r.maxKeys) ∧ page.check = .ok ()) ∨
        (Stuck b r.listed r.token (s.effectiveLimit r.maxKeys) ∧
          page.check = .error (.internal (.truncatedWithoutToken "")))) := by
  obtain ⟨marker, hfirst, hlist⟩ := list_readable hb hreadable
  have hstuck : Stuck b r.listed r.token (s.effectiveLimit r.maxKeys) ↔
      Stuck b r.listed marker (s.effectiveLimit r.maxKeys) :=
    ⟨fun h => ⟨h.whole, hfirst.1 h.first, h.single, h.empty, h.more⟩,
      fun h => ⟨h.whole, hfirst.2 h.first, h.single, h.empty, h.more⟩⟩
  refine ⟨_, hlist, ?_⟩
  rw [hstuck]
  exact page_check_cases (s.effectiveLimit_pos _)

/-- A request that succeeds is answered by a page of its bucket. -/
theorem page_of_list (h : s.list r = .ok page) :
    ∃ b marker, s.bucket? r.bucket = some b ∧
      page = Listing.page b r.listed r.delimiter marker (s.effectiveLimit r.maxKeys) := by
  cases htoken : r.token with
  | none =>
    simp only [list, htoken, bind, Except.bind] at h
    split at h
    · cases h
    · rename_i b hb
      exact ⟨b, none, hb, (Except.ok.inj h).symm⟩
  | some token =>
    simp only [list, htoken] at h
    obtain ⟨marker, -, h⟩ := Result.bind_eq_ok_iff.1 h
    split at h
    · cases h
    · rename_i b hb
      exact ⟨b, marker, hb, (Except.ok.inj h).symm⟩

/-- The token of an answer can be read. -/
theorem list_token (h : s.list r = .ok page) {token : String}
    (htoken : page.nextToken = some token) :
    ∃ marker, Token.decode token = .ok marker := by
  obtain ⟨b, marker, -, rfl⟩ := page_of_list h
  simp only [Listing.page] at htoken
  split at htoken
  · obtain ⟨e, -, rfl⟩ := Option.map_eq_some_iff.1 htoken
    exact ⟨_, Token.decode_encode _⟩
  · cases htoken

end Store

end BucketFs
