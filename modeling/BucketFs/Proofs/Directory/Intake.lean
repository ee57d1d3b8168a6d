import BucketFs.Directory.Children
import BucketFs.Proofs.Listing.Pages

/-!
# What a directory stream takes in

Of the entries of a page, a stream keeps those that bring a new name.

* `fresh` — the entries that bring a new name, each with that name.
* `ChildStream.accept_entries` — a page adds the paths of its fresh entries, in ascending order, and
  nothing else; `ChildStream.accept_eq` says so for a page whose entries are known.
* `ChildStream.receive_error`, `ChildStream.receive_ok` — an answer that is refused adds nothing.
-/

namespace BucketFs

open BucketFs.Text BucketFs.Listing

/-! ## New names -/

/-- The entries that bring a name which is not one of `seen` and was not brought by an entry before
them, each with its name. -/
def fresh (name? : String → Option String) : (seen entries : List String) → List (String × String)
  | _, [] => []
  | seen, e :: rest =>
    match name? e with
    | none => fresh name? seen rest
    | some n =>
      if n ∈ seen then fresh name? seen rest else (n, e) :: fresh name? (n :: seen) rest

/-- All names so far, the latest first. -/
def seenAfter (name? : String → Option String) (seen entries : List String) : List String :=
  ((fresh name? seen entries).map (·.1)).reverse ++ seen

section Fresh

variable {name? : String → Option String} {seen : List String} {es : List String} {n e : String}

theorem fresh_append (xs ys : List String) : ∀ seen,
    fresh name? seen (xs ++ ys) =
      fresh name? seen xs ++ fresh name? (seenAfter name? seen xs) ys := by
  induction xs with
  | nil => intro seen; rfl
  | cons x rest ih =>
    intro seen
    rw [List.cons_append, seenAfter, fresh, fresh]
    split
    · exact ih seen
    · rename_i n _
      split
      · exact ih seen
      · rw [ih, List.cons_append, seenAfter, List.map_cons, List.reverse_cons, List.append_assoc]
        rfl

theorem of_mem_fresh (h : (n, e) ∈ fresh name? seen es) :
    n ∉ seen ∧ e ∈ es ∧ name? e = some n := by
  induction es generalizing seen with
  | nil => cases h
  | cons a rest ih =>
    rw [fresh] at h
    split at h
    · obtain ⟨hn, he, hname⟩ := ih h
      exact ⟨hn, List.mem_cons_of_mem _ he, hname⟩
    · rename_i m hm
      split at h
      · obtain ⟨hn, he, hname⟩ := ih h
        exact ⟨hn, List.mem_cons_of_mem _ he, hname⟩
      · rename_i hseen
        rcases List.mem_cons.1 h with heq | h
        · cases heq
          exact ⟨hseen, List.mem_cons_self, hm⟩
        · obtain ⟨hn, he, hname⟩ := ih h
          exact ⟨fun hs => hn (List.mem_cons_of_mem _ hs), List.mem_cons_of_mem _ he, hname⟩

/-- Every name that an entry brings is there, unless it was seen before. -/
theorem exists_mem_fresh (he : e ∈ es) (hname : name? e = some n) (hn : n ∉ seen) :
    ∃ e', (n, e') ∈ fresh name? seen es := by
  induction es generalizing seen with
  | nil => cases he
  | cons a rest ih =>
    rw [fresh]
    split
    · rename_i hnone
      rcases List.mem_cons.1 he with rfl | he
      · rw [hname] at hnone
        cases hnone
      · exact ih he hn
    · rename_i m hm
      rcases List.mem_cons.1 he with rfl | he
      · rw [hname] at hm
        cases hm
        rw [if_neg hn]
        exact ⟨_, List.mem_cons_self⟩
      · split
        · exact ih he hn
        · by_cases hmn : n = m
          · subst hmn
            exact ⟨_, List.mem_cons_self⟩
          · have hnew : n ∉ m :: seen := by simp [hmn, hn]
            obtain ⟨e', he'⟩ := ih he hnew
            exact ⟨e', List.mem_cons_of_mem _ he'⟩

theorem seenAfter_append (xs ys : List String) :
    seenAfter name? seen (xs ++ ys) = seenAfter name? (seenAfter name? seen xs) ys := by
  simp only [seenAfter, fresh_append, List.map_append, List.reverse_append, List.append_assoc]

/-- The names so far are those from before and those that the entries bring. -/
theorem mem_seenAfter_iff :
    n ∈ seenAfter name? seen es ↔ n ∈ seen ∨ ∃ e ∈ es, name? e = some n := by
  rw [seenAfter, List.mem_append, List.mem_reverse]
  constructor
  · rintro (h | h)
    · obtain ⟨⟨m, e⟩, hmem, rfl⟩ := List.mem_map.1 h
      exact .inr ⟨e, (of_mem_fresh hmem).2⟩
    · exact .inl h
  · rintro (h | ⟨e, he, hname⟩)
    · exact .inr h
    · by_cases hn : n ∈ seen
      · exact .inr hn
      · obtain ⟨e', he'⟩ := exists_mem_fresh he hname hn
        exact .inl (List.mem_map_of_mem he')

/-- Names stay distinct. -/
theorem seenAfter_nodup (hseen : seen.Nodup) : (seenAfter name? seen es).Nodup := by
  induction es generalizing seen with
  | nil => exact hseen
  | cons a rest ih =>
    rw [seenAfter, fresh]
    split
    · exact ih hseen
    · rename_i m _
      split
      · exact ih hseen
      · rename_i hm
        have hrest : (seenAfter name? (m :: seen) rest).Nodup := ih (List.nodup_cons.2 ⟨hm, hseen⟩)
        rwa [List.map_cons, List.reverse_cons, List.append_assoc]

/-- Entries whose names were all seen before bring nothing. -/
theorem fresh_eq_nil (h : ∀ e ∈ es, ∀ n, name? e = some n → n ∈ seen) :
    fresh name? seen es = [] := by
  refine List.eq_nil_iff_forall_not_mem.2 fun c hc => ?_
  obtain ⟨hnew, he, hname⟩ := of_mem_fresh (n := c.1) (e := c.2) hc
  exact hnew (h _ he _ hname)

/-- Entries that were there before can be left out. -/
theorem fresh_again {xs again ys : List String} (h : ∀ e ∈ again, e ∈ xs) :
    fresh name? seen (xs ++ (again ++ ys)) = fresh name? seen (xs ++ ys) := by
  have hagain : fresh name? (seenAfter name? seen xs) again = [] :=
    fresh_eq_nil fun e he n hn => mem_seenAfter_iff.2 (.inr ⟨e, h e he, hn⟩)
  have hseen : seenAfter name? (seenAfter name? seen xs) again = seenAfter name? seen xs := by
    rw [seenAfter, hagain]
    rfl
  rw [fresh_append, fresh_append again, hagain, hseen, List.nil_append, ← fresh_append]

/-- The fresh entries stand in the order of all entries. -/
theorem fresh_sublist (name? : String → Option String) (es : List String) : ∀ seen,
    ((fresh name? seen es).map (·.2)).Sublist es := by
  induction es with
  | nil => intro seen; exact .slnil
  | cons a rest ih =>
    intro seen
    rw [fresh]
    split
    · exact (ih seen).cons a
    · split
      · exact (ih seen).cons a
      · exact (ih _).cons_cons a

/-- In an ascending list, the entry that brings a name is the least of those that have it. -/
theorem le_of_mem_fresh (hes : es.Pairwise (· < ·)) (h : (n, e) ∈ fresh name? seen es) {e' : String}
    (he' : e' ∈ es) (hname : name? e' = some n) : e ≤ e' := by
  induction es generalizing seen with
  | nil => cases he'
  | cons a rest ih =>
    obtain ⟨hhead, hrest⟩ := List.pairwise_cons.1 hes
    -- the head itself would have brought the name
    have hskip : ∀ {seen : List String}, (n, e) ∈ fresh name? seen rest →
        (name? a = some n → n ∈ seen) → e ≤ e' := by
      intro seen h hseen
      rcases List.mem_cons.1 he' with heq | he'
      · exact absurd (hseen (heq ▸ hname)) (of_mem_fresh h).1
      · exact ih hrest h he'
    rw [fresh] at h
    split at h
    · rename_i hnone
      exact hskip h fun ha => by rw [hnone] at ha; cases ha
    · rename_i m hm
      split at h
      · rename_i hseen
        exact hskip h fun ha => by rw [hm] at ha; cases ha; exact hseen
      · rcases List.mem_cons.1 h with heq | h
        · cases heq
          rcases List.mem_cons.1 he' with rfl | he'
          · exact String.le_refl _
          · exact Std.le_of_lt (hhead e' he')
        · exact hskip h fun ha => by rw [hm] at ha; cases ha; exact List.mem_cons_self

/-- Entries that bring no name can be left out. -/
theorem fresh_filter {p : String → Bool} (h : ∀ e, p e = false → name? e = none)
    (es : List String) : ∀ seen, fresh name? seen (es.filter p) = fresh name? seen es := by
  induction es with
  | nil => intro seen; rfl
  | cons a rest ih =>
    intro seen
    cases ha : p a with
    | false => rw [List.filter_cons_of_neg (by simp [ha]), ih, fresh, h a ha]
    | true =>
      rw [List.filter_cons_of_pos ha, fresh, fresh]
      simp only [ih]

end Fresh

/-! ## One page -/

/-- The name that an entry adds below a prefix. -/
def childOf? (listed entry : String) : Option String :=
  ((dropPrefix? listed entry).map (trimEnd separator)).filter fun n => n ≠ ""

theorem childOf?_append {listed rest n : String} :
    childOf? listed (listed ++ rest) = some n ↔ trimEnd separator rest = n ∧ n ≠ "" := by
  simp only [childOf?, dropPrefix?_append, Option.map_some, Option.filter_eq_some_iff,
    Option.some_inj, decide_eq_true_eq]

theorem childOf?_self (listed : String) : childOf? listed listed = none := by
  have h : dropPrefix? listed listed = some "" := by
    have := dropPrefix?_append listed ""
    rwa [String.append_empty] at this
  rw [childOf?, h]
  rfl

namespace ChildStream

/-- The path of an entry. -/
def childPath (s : ChildStream) (entry : String) : Path := .ofBucketKey s.fs s.bucket entry

theorem childName?_eq (s : ChildStream) (entry : String) :
    s.childName? entry = childOf? s.listed entry := by
  unfold childName? childOf?
  split
  · rename_i h
    rw [h]
    rfl
  · rename_i rest h
    rw [h]
    by_cases hn : trimEnd separator rest = "" <;> simp [hn, Option.filter]

theorem foldl_addChild (es : List String) : ∀ s : ChildStream,
    es.foldl addChild s =
      { s with
        seen := seenAfter (childOf? s.listed) s.seen es
        buffer := s.buffer ++
          (fresh (childOf? s.listed) s.seen es).map fun c => s.childPath c.2 } := by
  induction es with
  | nil => intro s; simp [seenAfter, fresh]
  | cons e rest ih =>
    intro s
    rw [List.foldl_cons, ih, addChild, childName?_eq, seenAfter, seenAfter, fresh]
    cases childOf? s.listed e with
    | none => rfl
    | some n =>
      by_cases hn : n ∈ s.seen
      · simp only [hn, if_true]
      · simp [hn, childPath]

/-- The children of a page are looked at in ascending order. -/
theorem childEntries_eq (s : ChildStream) {page : ListPage} {names : List String}
    (hperm : page.names.Perm names) (hasc : names.Pairwise (· < ·)) :
    s.childEntries page = names.filter fun e => e ≠ s.listed := by
  have hfilter : ((page.commonPrefixes ++ page.keys).filter fun e => e ≠ s.listed).Perm
      (names.filter fun e => e ≠ s.listed) :=
    (List.perm_append_comm.trans hperm).filter _
  have hsorted : (s.childEntries page).Pairwise fun a b => decide (a ≤ b) = true := by
    refine List.pairwise_mergeSort ?_ ?_ _
    · intro a b c hab hbc
      simp only [decide_eq_true_eq] at hab hbc ⊢
      exact String.le_trans hab hbc
    · intro a b
      simpa using String.le_total a b
  refine List.Perm.eq_of_pairwise ?_ hsorted ?_ ((List.mergeSort_perm _ _).trans hfilter)
  · intro a b _ _ hab hba
    simp only [decide_eq_true_eq] at hab hba
    exact String.le_antisymm hab hba
  · refine (hasc.sublist List.filter_sublist).imp fun h => ?_
    simpa using Std.le_of_lt h

theorem mem_childEntries {s : ChildStream} {page : ListPage} {e : String} :
    e ∈ s.childEntries page ↔ e ∈ page.names ∧ e ≠ s.listed := by
  rw [childEntries, List.mem_mergeSort, List.mem_filter, decide_eq_true_eq, ListPage.names,
    List.mem_append, List.mem_append, or_comm]

/-- **A page adds the new names** among its entries, and leaves its token. -/
theorem accept_entries (s : ChildStream) (page : ListPage) :
    s.accept page =
      { s with
        seen := seenAfter (childOf? s.listed) s.seen (s.childEntries page)
        buffer := s.buffer ++
          (fresh (childOf? s.listed) s.seen (s.childEntries page)).map fun c => s.childPath c.2
        token := if page.truncated then page.nextToken else s.token
        exhausted := if page.truncated then s.exhausted else true } := by
  rw [accept, foldl_addChild]
  cases page.truncated <;> rfl

/-- **A page adds its new names** in ascending order, and leaves its token. -/
theorem accept_eq (s : ChildStream) {page : ListPage} {names : List String}
    (hperm : page.names.Perm names) (hasc : names.Pairwise (· < ·)) :
    s.accept page =
      { s with
        seen := seenAfter (childOf? s.listed) s.seen names
        buffer :=
          s.buffer ++ (fresh (childOf? s.listed) s.seen names).map fun c => s.childPath c.2
        token := if page.truncated then page.nextToken else s.token
        exhausted := if page.truncated then s.exhausted else true } := by
  have hskip : ∀ e, (decide (e ≠ s.listed)) = false → childOf? s.listed e = none := by
    intro e he
    rw [decide_eq_false_iff_not, Decidable.not_not] at he
    rw [he, childOf?_self]
  rw [accept_entries, childEntries_eq s hperm hasc, seenAfter, seenAfter, fresh_filter hskip]

/-- Whether an answer is taken in: it is a page that passes its check. -/
def verdict (reply : Result ListPage) : Result Unit := reply.bind ListPage.check

theorem verdict_eq_ok_iff {reply : Result ListPage} :
    verdict reply = .ok () ↔ ∃ page, reply = .ok page ∧ page.check = .ok () := by
  cases reply with
  | error e => simp [verdict, Except.bind]
  | ok page => simp [verdict, Except.bind]

theorem receive_ok (s : ChildStream) {page : ListPage} (h : page.check = .ok ()) :
    s.receive (.ok page) = (.ok (), ({ s with token := none } : ChildStream).accept page) := by
  rw [receive]
  simp only [h]

/-- An answer that is refused spends the token and changes nothing else. -/
theorem receive_error (s : ChildStream) {reply : Result ListPage} {e : FsError}
    (h : verdict reply = .error e) : s.receive reply = (.error e, { s with token := none }) := by
  cases reply with
  | error e' =>
    cases h
    rfl
  | ok page =>
    replace h : page.check = .error e := h
    rw [receive]
    simp only [h]

theorem receive_fst (s : ChildStream) (reply : Result ListPage) :
    (s.receive reply).1 = verdict reply := by
  cases h : verdict reply with
  | error e => rw [receive_error s h]
  | ok _ =>
    obtain ⟨page, rfl, hpage⟩ := verdict_eq_ok_iff.1 h
    rw [receive_ok s hpage]

end ChildStream

end BucketFs
