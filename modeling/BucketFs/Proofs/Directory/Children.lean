import BucketFs.Proofs.Directory.Intake
import BucketFs.Proofs.Listing.Pagination
import BucketFs.Proofs.Text.Separated

/-!
# The children of a directory

A child of a prefix is a name that is a key behind the prefix or that has keys below it.  A stream
meets it as a key, as a group, or as both, on whatever pages these stand.

* `mem_childNames_iff`, `childNames_ascending` — the names that all entries of a bucket bring are
  the children, in the order of the first text by which each is listed.
* `drain_cases`, `drain_run` — over an unchanged store a stream yields what the entries behind its
  token bring.
* `collect_children` — so it yields the children, whatever the page limits are.
-/

namespace BucketFs

open BucketFs.Text BucketFs.Listing

/-! ## Children -/

/-- A name directly below a prefix. -/
structure IsChild (b : Bucket) (listed name : String) : Prop where
  nonempty : name ≠ ""
  single : separator ∉ name.toList
  present : listed ++ name ∈ b.keys ∨ ∃ k ∈ b.keys, hasPrefix (listed ++ name ++ slash) k = true

/-- The first text by which a child is listed: its key, if there is one. -/
def childOrder (b : Bucket) (listed name : String) : String :=
  if listed ++ name ∈ b.keys then listed ++ name else listed ++ name ++ slash

/-- The entries of a bucket that bring a new name below a prefix, each with that name. -/
def listedChildren (b : Bucket) (listed : String) : List (String × String) :=
  fresh (childOf? listed) [] ((entries b listed (some slash)).map Entry.name)

/-- The names that the entries of a bucket bring. -/
def childNames (b : Bucket) (listed : String) : List String := (listedChildren b listed).map (·.1)

section Names

variable {b : Bucket} {listed n e : String}

/-- A key of its own has no separator behind the prefix. -/
theorem listsKey_slash_iff : ListsKey b listed (some slash) e ↔
    e ∈ b.keys ∧ ∃ rest, e = listed ++ rest ∧ separator ∉ rest.toList := by
  constructor
  · rintro ⟨hstored, rest, hrest, hno⟩
    refine ⟨hstored, rest, hrest, ?_⟩
    rw [← occurs_slash_iff]
    exact hno slash rfl (by decide)
  · rintro ⟨hstored, rest, hrest, hno⟩
    refine ⟨hstored, rest, hrest, fun d hd _ => ?_⟩
    cases hd
    rwa [occurs_slash_iff]

/-- A group is a name with a separator behind it, and has some key. -/
theorem listsGroup_slash_iff : ListsGroup b listed (some slash) e ↔
    ∃ m, e = listed ++ m ++ slash ∧ separator ∉ m.toList ∧ ∃ k ∈ b.keys, hasPrefix e k = true := by
  constructor
  · rintro ⟨⟨d, p, hd, -, rfl, hp⟩, hk⟩
    cases hd
    obtain ⟨m, rfl, hm⟩ := endsFirst_slash_iff.1 hp
    exact ⟨m, by rw [String.append_assoc], hm, hk⟩
  · rintro ⟨m, rfl, hm, hk⟩
    refine ⟨⟨slash, m ++ slash, rfl, by decide, by rw [String.append_assoc], ?_⟩, hk⟩
    exact endsFirst_slash_iff.2 ⟨m, rfl, hm⟩

theorem append_right_inj {p q r : String} : p ++ q = p ++ r ↔ q = r := by
  rw [← String.toList_inj, String.toList_append, String.toList_append, List.append_cancel_left_eq,
    String.toList_inj]

/-- **An entry brings a name** when it is the name behind the prefix, alone or with a separator. -/
theorem childOf?_entry (h : HasEntry b listed (some slash) e) :
    childOf? listed e = some n ↔
      n ≠ "" ∧ separator ∉ n.toList ∧ (e = listed ++ n ∨ e = listed ++ n ++ slash) := by
  rcases hasEntry_iff.1 h with hkey | hgroup
  · obtain ⟨-, rest, rfl, hrest⟩ := listsKey_slash_iff.1 hkey
    rw [childOf?_append, trimEnd_of_not_mem hrest]
    constructor
    · rintro ⟨rfl, hn⟩
      exact ⟨hn, hrest, .inl rfl⟩
    · rintro ⟨hn, -, heq | heq⟩
      · exact ⟨append_right_inj.1 heq, hn⟩
      · rw [String.append_assoc, append_right_inj] at heq
        refine absurd ?_ hrest
        rw [heq]
        simp [slash, separator]
  · obtain ⟨m, rfl, hm, -⟩ := listsGroup_slash_iff.1 hgroup
    rw [String.append_assoc, childOf?_append, trimEnd_append_slash hm]
    constructor
    · rintro ⟨rfl, hn⟩
      exact ⟨hn, hm, .inr (by rw [String.append_assoc])⟩
    · rintro ⟨hn, hsep, heq | heq⟩
      · rw [append_right_inj] at heq
        refine absurd ?_ hsep
        rw [← heq]
        simp [slash, separator]
      · rw [String.append_assoc, append_right_inj] at heq
        have hlists := congrArg String.toList heq
        rw [String.toList_append, String.toList_append, List.append_cancel_right_eq] at hlists
        exact ⟨String.toList_injective hlists, hn⟩

theorem mem_entry_names_iff :
    e ∈ (entries b listed (some slash)).map Entry.name ↔ HasEntry b listed (some slash) e :=
  List.mem_map

theorem entry_names_ascending (b : Bucket) (listed : String) (marker : Option String) :
    ((entriesAfter b listed (effective (some slash)) marker).map Entry.name).Pairwise (· < ·) :=
  List.pairwise_map.2 (entriesAfter_ascending b marker)

/-- **The children** are the names that the entries bring. -/
theorem mem_childNames_iff : n ∈ childNames b listed ↔ IsChild b listed n := by
  constructor
  · intro h
    obtain ⟨⟨n, e⟩, hmem, rfl⟩ := List.mem_map.1 h
    obtain ⟨-, he, hname⟩ := of_mem_fresh hmem
    have hentry := mem_entry_names_iff.1 he
    obtain ⟨hn, hsep, heq⟩ := (childOf?_entry hentry).1 hname
    refine ⟨hn, hsep, ?_⟩
    rcases hasEntry_iff.1 hentry with hkey | hgroup
    · rcases heq with rfl | rfl
      · exact .inl hkey.stored
      · exact .inr ⟨_, hkey.stored, hasPrefix_refl _⟩
    · obtain ⟨k, hk, hek⟩ := hgroup.inhabited
      rcases heq with rfl | rfl
      · -- a group ends in the separator, which the name does not have
        obtain ⟨m, hm, -⟩ := listsGroup_slash_iff.1 hgroup
        rw [String.append_assoc, append_right_inj] at hm
        refine absurd ?_ hsep
        rw [hm]
        simp [slash, separator]
      · exact .inr ⟨k, hk, hek⟩
  · rintro ⟨hn, hsep, hpresent⟩
    have hentry : ∃ e, HasEntry b listed (some slash) e ∧
        (e = listed ++ n ∨ e = listed ++ n ++ slash) := by
      rcases hpresent with hkey | hbelow
      · exact ⟨_, (listsKey_slash_iff.2 ⟨hkey, n, rfl, hsep⟩).hasEntry, .inl rfl⟩
      · exact ⟨_, (listsGroup_slash_iff.2 ⟨n, rfl, hsep, hbelow⟩).hasEntry, .inr rfl⟩
    obtain ⟨e, he, heq⟩ := hentry
    obtain ⟨e', he'⟩ := exists_mem_fresh (mem_entry_names_iff.2 he)
      ((childOf?_entry he).2 ⟨hn, hsep, heq⟩) List.not_mem_nil
    exact List.mem_map.2 ⟨_, he', rfl⟩

/-- The entry that brings a child is the first text by which the child is listed. -/
theorem eq_childOrder (h : (n, e) ∈ listedChildren b listed) : e = childOrder b listed n := by
  obtain ⟨-, he, hname⟩ := of_mem_fresh h
  have hentry := mem_entry_names_iff.1 he
  obtain ⟨hn, hsep, heq⟩ := (childOf?_entry hentry).1 hname
  unfold childOrder
  split
  · rename_i hkey
    -- the key comes before its own group, so it brings the name
    have hk : HasEntry b listed (some slash) (listed ++ n) :=
      (listsKey_slash_iff.2 ⟨hkey, n, rfl, hsep⟩).hasEntry
    have hle : e ≤ listed ++ n :=
      le_of_mem_fresh (entry_names_ascending b listed none) h (mem_entry_names_iff.2 hk)
        ((childOf?_entry hk).2 ⟨hn, hsep, .inl rfl⟩)
    rcases heq with rfl | rfl
    · rfl
    · have hback : listed ++ n ≤ listed ++ n ++ slash := le_of_hasPrefix (hasPrefix_append _ _)
      exact String.le_antisymm hle hback
  · rename_i hkey
    rcases heq with rfl | rfl
    · rcases hasEntry_iff.1 hentry with hk | hg
      · exact absurd hk.stored hkey
      · obtain ⟨m, hm, -⟩ := listsGroup_slash_iff.1 hg
        rw [String.append_assoc, append_right_inj] at hm
        refine absurd ?_ hsep
        rw [hm]
        simp [slash, separator]
    · rfl

/-- **The children ascend** by the first text by which each is listed. -/
theorem childNames_ascending (b : Bucket) (listed : String) :
    (childNames b listed).Pairwise fun m n => childOrder b listed m < childOrder b listed n := by
  have hsub := (entry_names_ascending b listed none).sublist
    (fresh_sublist (childOf? listed) _ [])
  rw [List.pairwise_map] at hsub
  rw [childNames, List.pairwise_map]
  refine List.Pairwise.imp_of_mem ?_ hsub
  intro c d hc hd hlt
  rwa [← eq_childOrder (e := c.2) hc, ← eq_childOrder (e := d.2) hd]

theorem childNames_nodup (b : Bucket) (listed : String) : (childNames b listed).Nodup := by
  refine (childNames_ascending b listed).imp fun {m n} hlt heq => ?_
  rw [heq] at hlt
  exact String.lt_irrefl _ hlt

/-- The path of a child does not tell by which entry it was found. -/
theorem childPath_eq (s : ChildStream) (h : (n, e) ∈ listedChildren b listed) :
    s.childPath e = .ofBucketKey s.fs s.bucket (listed ++ n) := by
  rw [ChildStream.childPath, eq_childOrder h, childOrder]
  split
  · rfl
  · rw [Path.ofBucketKey, names_append_slash, Path.ofBucketKey]

theorem entry_ne_empty (hkeys : "" ∉ b.keys) (h : HasEntry b listed (some slash) e) : e ≠ "" := by
  rintro rfl
  rcases hasEntry_iff.1 h with hkey | hgroup
  · exact hkeys hkey.stored
  · obtain ⟨m, hm, -⟩ := listsGroup_slash_iff.1 hgroup
    have hlen := congrArg String.length hm
    simp only [String.length_append, String.length_empty] at hlen
    have : slash.length = 1 := rfl
    omega

end Names

/-! ## The stream -/

namespace ChildStream

variable {s : Store} {b : Bucket} {file : LocalFile} {marker : Option String} {st : ChildStream}

/-- The paths that a list of entries adds to a stream. -/
def added (st : ChildStream) (es : List Entry) : List Path :=
  (fresh (childOf? st.listed) st.seen (es.map Entry.name)).map fun c => st.childPath c.2

/-- The stream behind a page of its listing. -/
def behind (st : ChildStream) (es : List Entry) (p : ListPage) : ChildStream :=
  { st with
    seen := seenAfter (childOf? st.listed) st.seen (es.map Entry.name)
    buffer := st.buffer ++ st.added es
    token := p.nextToken
    exhausted := !p.truncated }

/-- A stream at a place of a listing that it has not come to the end of. -/
structure At (st : ChildStream) (s : Store) (b : Bucket) (marker : Option String) : Prop where
  bucket : s.bucket? st.bucket = some b
  isMarker : IsMarker st.listed (some slash) marker
  token : st.token = marker.map Token.encode
  unfinished : st.exhausted = false

/-- The answer to the request of a stream is the page behind its place. -/
theorem list_request (h : st.At s b marker) {limit : Nat}
    (hlimit : s.effectiveLimit st.maxKeys = limit) :
    s.list st.request = .ok (page b st.listed (some slash) marker limit) := by
  have hpage := Store.list_eq (r := st.request) h.bucket marker
  rw [← h.token] at hpage
  rwa [← hlimit]

/-- **A stream over a store in memory** adds the entries that a page shows, if the page passes its
check. -/
theorem receive_page (h : st.At s b marker) {limit : Nat}
    (hlimit : s.effectiveLimit st.maxKeys = limit)
    (hcheck : (page b st.listed (some slash) marker limit).check = .ok ()) :
    st.receive (s.list st.request) =
      (.ok (), st.behind (shown b st.listed (some slash) marker limit)
        (page b st.listed (some slash) marker limit)) := by
  rw [list_request h hlimit]
  generalize hp : page b st.listed (some slash) marker limit = p at hcheck ⊢
  have hperm : p.names.Perm ((shown b st.listed (some slash) marker limit).map Entry.name) := by
    rw [← hp]
    exact page_names_perm b st.listed (some slash) marker limit
  have hasc : ((shown b st.listed (some slash) marker limit).map Entry.name).Pairwise (· < ·) := by
    rw [List.map_take]
    exact (entry_names_ascending b st.listed marker).sublist (List.take_sublist _ _)
  rw [receive_ok _ hcheck, accept_eq _ hperm hasc, behind, added]
  cases htrunc : p.truncated with
  | true => simp only [if_true, h.unfinished, Bool.not_true]; rfl
  | false =>
    have htoken : p.nextToken = none := by
      rw [← hp] at htrunc ⊢
      simp only [page, decide_eq_false_iff_not] at htrunc ⊢
      simp only [htrunc, decide_false, Bool.false_eq_true, if_false]
    rw [htoken]
    rfl

/-- Without an empty key every page passes its check. -/
theorem page_check_of_keys (hkeys : "" ∉ b.keys) {listed : String} {limit : Nat}
    (hlimit : 0 < limit) (hm : IsMarker listed (some slash) marker) :
    (page b listed (some slash) marker limit).check = .ok () :=
  page_check hlimit fun e he => entry_ne_empty hkeys
    ⟨e, ((mem_entriesAfter_iff hm).1 (List.mem_of_mem_take he)).1, rfl⟩

/-- Behind a page that is cut, a stream stands at the last entry that was shown. -/
theorem At.behind (h : st.At s b marker) {limit : Nat} (hlimit : 0 < limit)
    (htrunc : (page b st.listed (some slash) marker limit).truncated = true) :
    ∃ m, (st.behind (shown b st.listed (some slash) marker limit)
        (page b st.listed (some slash) marker limit)).At s b (some m) ∧
      entriesAfter b st.listed (effective (some slash)) (some m) =
        (entriesAfter b st.listed (effective (some slash)) marker).drop limit := by
  obtain ⟨a, ha, htoken⟩ := page_token hlimit htrunc
  have hmem := List.mem_of_mem_take (List.mem_of_getLast? ha)
  refine ⟨a.name, ⟨h.bucket, ?_, ?_, ?_⟩, entriesAfter_last h.isMarker ha⟩
  · intro m hm
    cases hm
    exact isEntryName_of_mem hmem
  · exact htoken
  · simp only [ChildStream.behind, htrunc, Bool.not_true]

/-- A list of entries is added part by part. -/
theorem added_append (st : ChildStream) (xs ys : List Entry) (p : ListPage) :
    st.added (xs ++ ys) = st.added xs ++ (st.behind xs p).added ys := by
  rw [added, List.map_append, fresh_append, List.map_append]
  rfl

theorem drain_exhausted {rounds : Nat} (h : st.exhausted = true) :
    st.drain rounds = .done (st.buffer, none) := by
  cases rounds <;> rw [drain, if_pos h]

/-- The stream without what it has buffered. -/
def emptied (st : ChildStream) : ChildStream := { st with buffer := [] }

theorem At.emptied (h : st.At s b marker) : st.emptied.At s b marker :=
  ⟨h.bucket, h.isMarker, h.token, h.unfinished⟩

/-- One round of draining yields the buffer and goes on behind the next page. -/
theorem drain_step (h : st.At s b marker) {limit : Nat}
    (hlimit : s.effectiveLimit st.maxKeys = limit)
    (hcheck : (page b st.listed (some slash) marker limit).check = .ok ()) {next : ChildStream}
    (hnext : next = st.emptied.behind (shown b st.listed (some slash) marker limit)
      (page b st.listed (some slash) marker limit)) {rounds : Nat} {paths : List Path}
    {failure : Option FsError}
    (hrest : (next.drain rounds).run Store.handler (s, file) = ((paths, failure), (s, file))) :
    (st.drain (rounds + 1)).run Store.handler (s, file) =
      ((st.buffer ++ paths, failure), (s, file)) := by
  have hreceive : st.emptied.receive (s.list st.request) = (.ok (), next) := by
    rw [hnext]
    exact receive_page h.emptied hlimit hcheck
  rw [emptied] at hreceive
  rw [drain, if_neg (by rw [h.unfinished]; exact Bool.false_ne_true)]
  simp only [Program.run_call, Store.handler, Store.answer, hreceive, Program.run_bind, hrest,
    Program.run_done]

/-- A page that does not pass its check ends the draining. -/
theorem drain_refused (h : st.At s b marker) {limit : Nat}
    (hlimit : s.effectiveLimit st.maxKeys = limit) {e : FsError}
    (hcheck : (page b st.listed (some slash) marker limit).check = .error e) (rounds : Nat) :
    (st.drain (rounds + 1)).run Store.handler (s, file) = ((st.buffer, some e), (s, file)) := by
  rw [drain, if_neg (by rw [h.unfinished]; exact Bool.false_ne_true)]
  simp only [Program.run_call, Store.handler, Store.answer, list_request h hlimit, receive, hcheck,
    Program.run_done]

/-- A page of a listing that does not pass its check. -/
def Refused (b : Bucket) (listed : String) (limit : Nat) (e : FsError) : Prop :=
  ∃ m, IsMarker listed (some slash) m ∧ (page b listed (some slash) m limit).check = .error e

/-- **Draining a stream over an unchanged store** yields what is buffered and what the entries
behind its place bring, unless a page does not pass its check. -/
theorem drain_cases (file : LocalFile) (rounds : Nat) :
    ∀ (marker : Option String) (st : ChildStream), st.At s b marker →
      (entriesAfter b st.listed (effective (some slash)) marker).length < rounds →
      (st.drain rounds).run Store.handler (s, file) =
        ((st.buffer ++ st.added (entriesAfter b st.listed (effective (some slash)) marker), none),
          (s, file)) ∨
      ∃ paths e, (st.drain rounds).run Store.handler (s, file) = ((paths, some e), (s, file)) ∧
        Refused b st.listed (s.effectiveLimit st.maxKeys) e := by
  induction rounds with
  | zero => intro marker st _ h; exact absurd h (Nat.not_lt_zero _)
  | succ rounds ih =>
    intro marker st h hlen
    obtain ⟨limit, hlimit⟩ : ∃ limit, s.effectiveLimit st.maxKeys = limit := ⟨_, rfl⟩
    have hpos : 0 < limit := hlimit ▸ s.effectiveLimit_pos st.maxKeys
    cases hcheck : (page b st.listed (some slash) marker limit).check with
    | error e =>
      rw [hlimit]
      exact .inr ⟨_, e, drain_refused h hlimit hcheck rounds, marker, h.isMarker, hcheck⟩
    | ok _ =>
      by_cases hcut : limit < (entriesAfter b st.listed (effective (some slash)) marker).length
      · obtain ⟨m, hm, hdrop⟩ := h.emptied.behind hpos (page_truncated_iff.2 hcut)
        have hshorter :
            (entriesAfter b st.emptied.listed (effective (some slash)) (some m)).length <
              rounds := by
          rw [hdrop, List.length_drop]
          change (entriesAfter b st.listed (effective (some slash)) marker).length - limit < rounds
          omega
        rcases ih (some m) _ hm hshorter with hrest | ⟨paths, e, hrest, hrefused⟩
        · refine .inl ?_
          rw [drain_step h hlimit hcheck rfl hrest]
          -- what is added by the page and behind it is what all the entries add
          have hpaths : st.added (entriesAfter b st.listed (effective (some slash)) marker) =
              st.emptied.added (shown b st.listed (some slash) marker limit) ++
                (st.emptied.behind (shown b st.listed (some slash) marker limit)
                  (page b st.listed (some slash) marker limit)).added
                    (entriesAfter b st.emptied.listed (effective (some slash)) (some m)) := by
            rw [hdrop, ← added_append]
            exact (congrArg st.added (List.take_append_drop limit _)).symm
          rw [hpaths]
          rfl
        · exact .inr ⟨_, e, drain_step h hlimit hcheck rfl hrest, hrefused⟩
      · -- the page shows all that is left
        have hall : shown b st.listed (some slash) marker limit =
            entriesAfter b st.listed (effective (some slash)) marker :=
          List.take_of_length_le (Nat.not_lt.1 hcut)
        have hlast : (page b st.listed (some slash) marker limit).truncated = false := by
          rw [← Bool.not_eq_true, page_truncated_iff]
          exact hcut
        refine .inl (drain_step h hlimit hcheck rfl ?_)
        rw [drain_exhausted (by rw [ChildStream.behind, hlast]; rfl), Program.run_done, hall]
        rfl

/-- Without an empty key draining a stream yields all there is. -/
theorem drain_run (file : LocalFile) (hkeys : "" ∉ b.keys) (rounds : Nat) (marker : Option String)
    (st : ChildStream) (h : st.At s b marker)
    (hlen : (entriesAfter b st.listed (effective (some slash)) marker).length < rounds) :
    (st.drain rounds).run Store.handler (s, file) =
      ((st.buffer ++ st.added (entriesAfter b st.listed (effective (some slash)) marker), none),
        (s, file)) := by
  rcases drain_cases file rounds marker st h hlen with hrun | ⟨paths, e, -, m, hm, hcheck⟩
  · exact hrun
  · rw [page_check_of_keys hkeys (s.effectiveLimit_pos st.maxKeys) hm] at hcheck
    cases hcheck

/-- A new stream stands before the first entry. -/
theorem new_eq {fs : FileSystem} {bucket listed : String} (hopen : fs.isOpen = true)
    (hslash : listed ≠ slash) (hlisted : listed = "" ∨ endsInSeparator listed = true) :
    new fs bucket listed =
      .ok ⟨fs.id, fs.access, bucket, listed, fs.settings.maxKeys, [], [], none, false⟩ := by
  have hend : ¬ (listed ≠ "" ∧ (!endsInSeparator listed) = true) := by
    rintro ⟨hne, hend⟩
    rcases hlisted with h | h
    · exact hne h
    · rw [h] at hend
      cases hend
  simp only [new, FileSystem.checkOpen, hopen, if_true, bind, Except.bind, if_neg hslash,
    if_neg hend]

end ChildStream

/-- **A directory stream yields exactly the children, each once**, in an order that depends on the
bucket alone: not on the page limit of the store nor on the page size that is asked for. -/
theorem collect_children (b : Bucket) (hkeys : "" ∉ b.keys) (listed : String)
    (hslash : listed ≠ slash) (hlisted : listed = "" ∨ endsInSeparator listed = true) :
    ∃ names : List String,
      (∀ n, n ∈ names ↔ IsChild b listed n) ∧
      (names.Pairwise fun m n => childOrder b listed m < childOrder b listed n) ∧
      ∀ (s : Store) (bucket : String) (fs : FileSystem) (file : LocalFile) (rounds : Nat),
        s.bucket? bucket = some b → fs.isOpen = true → b.size < rounds →
        ∃ stream, ChildStream.new fs bucket listed = .ok stream ∧
          (stream.collect rounds).run.run Store.handler (s, file) =
            (.ok (names.map fun n => .ofBucketKey fs.id bucket (listed ++ n)), (s, file)) := by
  refine ⟨childNames b listed, fun n => mem_childNames_iff, childNames_ascending b listed, ?_⟩
  intro s bucket fs file rounds hb hopen hrounds
  refine ⟨_, ChildStream.new_eq hopen hslash hlisted, ?_⟩
  generalize hst : (⟨fs.id, fs.access, bucket, listed, fs.settings.maxKeys, [], [], none, false⟩ :
    ChildStream) = st
  have hat : st.At s b none := by
    subst hst
    exact ⟨hb, isMarker_none, rfl, rfl⟩
  have hdrain := ChildStream.drain_run file hkeys rounds none st hat
    (Nat.lt_of_le_of_lt (length_entriesAfter_le b none) hrounds)
  have hpaths : st.buffer ++ st.added (entriesAfter b st.listed (effective (some slash)) none) =
      (childNames b listed).map fun n => .ofBucketKey fs.id bucket (listed ++ n) := by
    subst hst
    rw [List.nil_append, ChildStream.added, childNames, List.map_map]
    exact List.map_congr_left fun c hc => childPath_eq _ hc
  rw [hpaths] at hdrain
  simp only [ChildStream.collect, ExceptT.run, ExceptT.mk, Program.run_bind, hdrain,
    Program.run_done]

/-- A file `a`, a name between it and the directory `a/`, and keys below that directory, with
pages of one entry. -/
theorem collect_children_paged :
    let o : ObjectRecord := ⟨[], "", .epoch, .byDefault⟩
    let b : Bucket := ((KeyMap.empty.insert "a" o).insert "a-b" o).insert "a/x" o
    "" ∉ b.keys ∧ ∃ names : List String, IsChild b "" "a" ∧ "a" ∈ names ∧
      ∀ (fs : FileSystem) (file : LocalFile), fs.isOpen = true →
        ∃ stream, ChildStream.new fs "b" "" = .ok stream ∧
          (stream.collect 4).run.run Store.handler ((Store.new 1 .epoch).setBucket "b" b, file) =
            (.ok (names.map fun n => .ofBucketKey fs.id "b" ("" ++ n)),
              ((Store.new 1 .epoch).setBucket "b" b, file)) := by
  intro o b
  have hkeys : "" ∉ b.keys := by decide
  obtain ⟨names, hmem, -, hrun⟩ := collect_children b hkeys "" (by decide) (.inl rfl)
  have hchild : IsChild b "" "a" := ⟨by decide, by decide, .inl (by decide)⟩
  refine ⟨hkeys, names, hchild, (hmem "a").2 hchild, fun fs file hopen => ?_⟩
  exact hrun _ "b" fs file 4 (by simp) hopen (by decide)

end BucketFs
