import BucketFs.Location.Uri
import BucketFs.Proofs.Location.Path
import BucketFs.Proofs.Text.Cut
import BucketFs.Proofs.Text.Percent

/-!
# URIs and the paths they name

* `Uri.parse_of_host` — a host without separators and an encoded path are read back.
* `Uri.host_of_parse`, `Uri.path_of_parse` — what is read has no separator in its host, and a path
  that starts with one.
* `Uri.names_path` — the names of the path are the bucket and the names of the key.
* `Path.parse_uri` — the URI of an absolute path is read as a path of the same names.
-/

namespace BucketFs

open BucketFs.Text BucketFs.Bytes

/-! ## The first byte of a text -/

namespace Bytes

theorem startsWithSeparator_of_utf8 {s : String} {rest : Bytes} (h : utf8 s = 0x2f :: rest) :
    startsWithSeparator s = true := by
  rw [utf8_eq_flatMap] at h
  obtain ⟨c, cs, hs, hc, -⟩ := exists_cons_of_ascii (by decide) h
  have hsep : c = separator := Char.toNat_inj.1 hc
  rw [startsWithSeparator, hs, hsep]
  rfl

end Bytes

namespace Uri

/-! ## Texts of URIs -/

theorem splitAuthority_host (rest : String) : separator ∉ (splitAuthority rest).1.toList := by
  intro hmem
  rw [splitAuthority] at hmem
  by_cases hsep : separator ∈ rest.toList
  · obtain ⟨xs, ys, heq, hxs⟩ := List.eq_append_cons_of_mem hsep
    rw [heq, takeWhile_ne_append hxs, String.toList_ofList] at hmem
    exact hxs hmem
  · rw [String.toList_ofList] at hmem
    exact hsep ((List.takeWhile_prefix _).subset hmem)

/-- What stands behind the host starts with a separator. -/
theorem splitAuthority_path (rest : String) : ∃ t, (splitAuthority rest).2 = slash ++ t := by
  rw [splitAuthority]
  by_cases hsep : separator ∈ rest.toList
  · obtain ⟨xs, ys, heq, hxs⟩ := List.eq_append_cons_of_mem hsep
    refine ⟨String.ofList ys, String.toList_injective ?_⟩
    rw [heq, dropWhile_ne_append hxs]
    simp [slash, separator]
  · rw [dropWhile_ne_of_not_mem hsep]
    exact ⟨"", by simp⟩

/-- A host without separators and the path behind it are told apart. -/
theorem splitAuthority_append {host : String} (hhost : separator ∉ host.toList) (t : String) :
    splitAuthority (host ++ slash ++ t) = (host, slash ++ t) := by
  have hlist : (host ++ slash ++ t).toList = host.toList ++ separator :: t.toList := by
    simp [slash, separator]
  rw [splitAuthority, hlist, takeWhile_ne_append hhost, dropWhile_ne_append hhost]
  simp only [String.ofList_toList, List.cons_ne_nil, if_false, Prod.mk.injEq, true_and]
  apply String.toList_injective
  simp [slash, separator]

/-- The URI of a host and an encoded path, unless the path does not decode. -/
def ofEncoded (text host encoded : String) : Result Uri :=
  match Percent.decode? encoded with
  | none => .error (.invalidArgument (.undecodableUri text))
  | some path => .ok ⟨host, path⟩

/-- A text of the form of a URI is read as its host and its encoded path. -/
theorem parse_append {host : String} (hhost : separator ∉ host.toList) (encoded : String) :
    parse (scheme ++ "://" ++ host ++ slash ++ encoded) =
      ofEncoded (scheme ++ "://" ++ host ++ slash ++ encoded) host (slash ++ encoded) := by
  have hcut : cut? ':' (scheme ++ "://" ++ host ++ slash ++ encoded) =
      some (scheme, "//" ++ (host ++ slash ++ encoded)) := by
    rw [cut?_eq_some_iff]
    refine ⟨by decide, ?_⟩
    simp [scheme, slash]
  rw [parse, hcut]
  simp only [bind, Except.bind]
  rw [if_neg (by decide), dropPrefix?_append]
  simp only [splitAuthority_append hhost]
  rfl

/-- **A URI is read as its host and its decoded path.** -/
theorem parse_of_host {host encoded path : String} (hhost : separator ∉ host.toList)
    (hpath : Percent.decode? (slash ++ encoded) = some path) :
    parse (scheme ++ "://" ++ host ++ slash ++ encoded) = .ok ⟨host, path⟩ := by
  rw [parse_append hhost, ofEncoded, hpath]

/-- What a text that is a URI says. -/
theorem parse_eq_ok {text : String} {u : Uri} (h : parse text = .ok u) :
    ∃ rest, u.host = (splitAuthority rest).1 ∧
      Percent.decode? (splitAuthority rest).2 = some u.path := by
  unfold parse at h
  simp only [bind, Except.bind] at h
  split at h
  · split at h
    · cases h
    · split at h
      · cases h
      · rename_i rest _
        split at h
        · cases h
        · rename_i path hpath
          cases h
          exact ⟨rest, rfl, hpath⟩
  · cases h

theorem host_of_parse {text : String} {u : Uri} (h : parse text = .ok u) :
    separator ∉ u.host.toList := by
  obtain ⟨rest, hhost, -⟩ := parse_eq_ok h
  rw [hhost]
  exact splitAuthority_host rest

/-- **The path of a URI is absolute.** -/
theorem path_of_parse {text : String} {u : Uri} (h : parse text = .ok u) :
    startsWithSeparator u.path = true := by
  obtain ⟨rest, -, hpath⟩ := parse_eq_ok h
  obtain ⟨t, ht⟩ := splitAuthority_path rest
  rw [ht, Percent.decode?, utf8_slash_append, Percent.decodeBytes_cons_of_ne (by decide)] at hpath
  exact startsWithSeparator_of_utf8 (utf8_of_ofUtf8? hpath)

/-! ## Buckets and keys -/

/-- **The names of the path** are the bucket and the names of the key. -/
theorem names_path {u : Uri} {bucket : String} (h : u.bucket? = some bucket) :
    names u.path = bucket :: names u.key := by
  rw [bucket?] at h
  rw [key]
  cases hcut : cut? separator (trimStart separator u.path) with
  | some cut =>
    obtain ⟨n, rest⟩ := cut
    rw [names_of_cut hcut] at h ⊢
    simpa using h
  | none =>
    rw [names_of_uncut hcut] at h ⊢
    split at h
    · cases h
    · rename_i hne
      rw [if_neg hne, ← Option.some.inj h]
      rfl

/-- **A URI names one path**, by its text and by its bucket and key. -/
theorem parse_path_eq {text : String} {u : Uri} (h : parse text = .ok u) {bucket : String}
    (hbucket : u.bucket? = some bucket) (id : FsId) :
    Path.parse id u.path [] = Path.ofBucketKey id bucket u.key := by
  have hnames := names_path hbucket
  have hname : IsName bucket := isName_of_mem_names (hnames ▸ List.mem_cons_self)
  rw [Path.parse, Path.ofBucketKey, path_of_parse h, if_neg hname.nonempty]
  simp [hnames]

end Uri

/-! ## The URI of a path -/

namespace Path

/-- The bytes that a URI writes verbatim are ASCII, and `%` is not among them. -/
theorem readable_isVerbatim : Percent.Readable isVerbatim := by
  intro b hb
  constructor
  · simp only [isVerbatim, Bool.and_eq_true, decide_eq_true_eq] at hb
    have hlt : b.toNat < 127 := UInt8.lt_iff_toNat_lt.1 hb.1.2
    omega
  · rintro rfl
    exact absurd hb (by decide)

/-- **The URI of an absolute path** is read as the host and a path of the same names. -/
theorem parse_uri {p : Path} {host : String} (hp : p.Named) (habsolute : p.absolute = true)
    (hhost : separator ∉ host.toList) :
    ∃ u, Uri.parse (p.uri (scheme ++ "://" ++ host ++ slash)) = .ok u ∧ u.host = host ∧
      Path.parse p.fs u.path [] = p := by
  have hpath := Percent.decode?_joined readable_isVerbatim p.segments
  refine ⟨_, Uri.parse_of_host hhost hpath, rfl, ?_⟩
  rw [Path.parse, List.flatMap_singleton, names_slash_append, names_joined hp,
    startsWithSeparator_slash_append, ← habsolute]

end Path

end BucketFs
