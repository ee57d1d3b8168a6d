import BucketFs.Proofs.Location.Ways

/-!
# Initial and final parts of paths

* `relativize_resolve` — the way to what was put behind a path is what was put there.
* `startsWith_iff`, `endsWith_iff` — initial and final parts, by the names.
* `PartLaws` — how parts, ways and putting paths behind others belong together.
* `parts_agree` — these laws hold for all paths of a filesystem, and nothing is a part of a path of
  another one.
-/

namespace BucketFs.Path

variable {p q r : Path}

theorem isEmpty_iff : p.isEmpty = true ↔ p.absolute = false ∧ p.segments = [] := by
  simp [isEmpty]

theorem eq_of_isEmpty (hp : p.isEmpty = true) (hq : q.isEmpty = true) (hfs : p.fs = q.fs) :
    p = q := by
  obtain ⟨habsolute, hsegments⟩ := isEmpty_iff.1 hp
  obtain ⟨habsolute', hsegments'⟩ := isEmpty_iff.1 hq
  rw [Path.mk.injEq]
  exact ⟨hfs, habsolute.trans habsolute'.symm, hsegments.trans hsegments'.symm⟩

/-! ## Ways -/

theorem commonLength_append (as bs : List String) : commonLength as (as ++ bs) = as.length := by
  induction as with
  | nil => rfl
  | cons a as ih => rw [List.cons_append, commonLength, if_pos rfl, ih, List.length_cons]

/-- **The way to what was put behind a path** is what was put there. -/
theorem relativize_resolve (hfs : q.fs = p.fs) (hrelative : q.absolute = false) :
    p.relativize (p.resolve q) = .ok q := by
  rw [resolve_of_relative hrelative, relativize_eq_ok_iff]
  refine ⟨rfl, rfl, ?_⟩
  rw [own, own, commonLength_comm (p.segments ++ q.segments), commonLength_append,
    List.drop_length, List.drop_left, relative, Path.mk.injEq]
  exact ⟨hfs, hrelative, rfl⟩

/-! ## Initial parts -/

/-- **Initial parts**, by the names. -/
theorem startsWith_iff :
    p.startsWith q = true ↔ p.fs = q.fs ∧ p.absolute = q.absolute ∧ q.segments <+: p.segments ∧
      (q.isEmpty = true → p.isEmpty = true) := by
  unfold startsWith
  by_cases hfs : p.fs = q.fs
  · rw [if_neg (not_not.2 hfs)]
    by_cases hempty : q.isEmpty = true
    · rw [if_pos hempty]
      constructor
      · intro hp
        rw [eq_of_isEmpty hp hempty hfs]
        exact ⟨rfl, rfl, List.prefix_refl _, id⟩
      · exact fun h => h.2.2.2 hempty
    · rw [if_neg hempty, Bool.and_eq_true, beq_iff_eq, List.isPrefixOf_iff_prefix]
      exact ⟨fun h => ⟨hfs, h.1, h.2, fun h => absurd h hempty⟩, fun h => ⟨h.2.1, h.2.2.1⟩⟩
  · rw [if_pos hfs]
    exact iff_of_false Bool.false_ne_true fun h => hfs h.1

theorem startsWith_refl (p : Path) : p.startsWith p = true :=
  startsWith_iff.2 ⟨rfl, rfl, List.prefix_refl _, id⟩

theorem startsWith_antisymm (hpq : p.startsWith q = true) (hqp : q.startsWith p = true) :
    p = q := by
  obtain ⟨hfs, habsolute, hinitial, -⟩ := startsWith_iff.1 hpq
  obtain ⟨-, -, hinitial', -⟩ := startsWith_iff.1 hqp
  rw [Path.mk.injEq]
  exact ⟨hfs, habsolute, hinitial'.eq_of_length_le hinitial.length_le⟩

theorem startsWith_trans (hpq : p.startsWith q = true) (hqr : q.startsWith r = true) :
    p.startsWith r = true := by
  obtain ⟨hfs, habsolute, hinitial, hempty⟩ := startsWith_iff.1 hpq
  obtain ⟨hfs', habsolute', hinitial', hempty'⟩ := startsWith_iff.1 hqr
  exact startsWith_iff.2 ⟨hfs.trans hfs', habsolute.trans habsolute', hinitial'.trans hinitial,
    fun h => hempty (hempty' h)⟩

/-- The empty path is an initial part of itself alone, and has no other one. -/
theorem startsWith_empty (hfs : q.fs = p.fs) (hempty : q.isEmpty = true) :
    p.startsWith q = true ∨ q.startsWith p = true ↔ p = q := by
  constructor
  · rintro (h | h)
    · exact eq_of_isEmpty ((startsWith_iff.1 h).2.2.2 hempty) hempty hfs.symm
    · obtain ⟨-, habsolute, hinitial, -⟩ := startsWith_iff.1 h
      obtain ⟨hrelative, hnone⟩ := isEmpty_iff.1 hempty
      rw [hnone, List.prefix_nil] at hinitial
      have hp : p.isEmpty = true := isEmpty_iff.2 ⟨habsolute.symm.trans hrelative, hinitial⟩
      exact eq_of_isEmpty hp hempty hfs.symm
  · rintro rfl
    exact .inl (startsWith_refl p)

/-- **A path starts with another one** just when the way from that one leads to it name by name. -/
theorem startsWith_iff_exists_way (hempty : q.isEmpty = false) :
    p.startsWith q = true ↔ ∃ r, q.relativize p = .ok r ∧ q.resolve r = p := by
  rw [startsWith_iff]
  constructor
  · rintro ⟨hfs, habsolute, ⟨rest, hrest⟩, -⟩
    have hp : q.resolve (q.relative rest) = p := by
      rw [resolve_of_relative rfl, Path.mk.injEq]
      exact ⟨hfs.symm, habsolute.symm, hrest⟩
    refine ⟨q.relative rest, ?_, hp⟩
    rw [← hp]
    exact relativize_resolve rfl rfl
  · rintro ⟨r, hr, rfl⟩
    obtain ⟨hfs, habsolute, hr⟩ := relativize_eq_ok_iff.1 hr
    have hrelative : r.absolute = false := by rw [hr]; rfl
    refine ⟨hfs.symm, habsolute.symm, ?_, fun h => absurd h (by rw [hempty]; exact nofun)⟩
    rw [resolve_of_relative hrelative]
    exact List.prefix_append _ _

/-! ## Final parts -/

/-- **Final parts**, by the names. -/
theorem endsWith_iff (hrelative : q.absolute = false) (hempty : q.isEmpty = false) :
    p.endsWith q = true ↔ p.fs = q.fs ∧ q.segments <:+ p.segments := by
  have hnames : q.segments.isEmpty = false := by simpa [isEmpty, hrelative] using hempty
  unfold endsWith
  by_cases hfs : p.fs = q.fs
  · rw [if_neg (not_not.2 hfs), hrelative, if_neg Bool.false_ne_true, hnames,
      if_neg Bool.false_ne_true, List.isSuffixOf_iff_suffix]
    exact ⟨fun h => ⟨hfs, h⟩, fun h => h.2⟩
  · rw [if_pos hfs]
    exact iff_of_false Bool.false_ne_true fun h => hfs h.1

/-- **A path ends with a relative one** just when that was put behind some path. -/
theorem endsWith_iff_exists_resolve (hfs : q.fs = p.fs) (hrelative : q.absolute = false)
    (hempty : q.isEmpty = false) :
    p.endsWith q = true ↔ ∃ front : Path, front.fs = p.fs ∧ p = front.resolve q := by
  rw [endsWith_iff hrelative hempty]
  constructor
  · rintro ⟨-, front, hfront⟩
    refine ⟨{ p with segments := front }, rfl, ?_⟩
    rw [resolve_of_relative hrelative, Path.mk.injEq]
    exact ⟨rfl, rfl, hfront.symm⟩
  · rintro ⟨front, -, rfl⟩
    refine ⟨hfs.symm, ?_⟩
    rw [resolve_of_relative hrelative]
    exact List.suffix_append _ _

/-! ## The laws -/

/-- How the parts of paths belong together with the ways between them. -/
structure PartLaws (a b c : Path) : Prop where
  way_back : b.absolute = false → a.relativize (a.resolve b) = .ok b
  starts : b.isEmpty = false →
    (a.startsWith b = true ↔ ∃ r, b.relativize a = .ok r ∧ b.resolve r = a)
  ends : b.absolute = false → b.isEmpty = false →
    (a.endsWith b = true ↔ ∃ q : Path, q.fs = a.fs ∧ a = q.resolve b)
  refl : a.startsWith a = true
  antisymm : a.startsWith b = true → b.startsWith a = true → a = b
  trans : a.startsWith b = true → b.startsWith c = true → a.startsWith c = true
  /-- The empty path can be compared with itself alone. -/
  empty : b.isEmpty = true → (a.startsWith b = true ∨ b.startsWith a = true ↔ a = b)

/-- **Parts agree with ways.**  The laws hold for all paths of one filesystem, and between the paths
of two filesystems there are neither parts nor ways. -/
theorem parts_agree {a b : Path} (hb : b.fs = a.fs) (c : Path) :
    PartLaws a b c ∧
      ∀ d : Path, d.fs ≠ a.fs → a.startsWith d = false ∧ a.endsWith d = false ∧
        ∃ fault, a.relativize d = .error (.invalidArgument fault) := by
  constructor
  · exact {
      way_back := relativize_resolve hb
      starts := startsWith_iff_exists_way
      ends := endsWith_iff_exists_resolve hb
      refl := startsWith_refl a
      antisymm := startsWith_antisymm
      trans := startsWith_trans
      empty := startsWith_empty hb }
  · intro d hd
    exact ⟨if_pos hd.symm, if_pos hd.symm, .pathsOfTwoFileSystems, if_pos hd.symm⟩

/-- Two paths with dots, the first of which ends with the second. -/
theorem parts_agree_dotted :
    let a : Path := ⟨0, true, ["b", "..", "x", "."]⟩
    let b : Path := ⟨0, false, ["x", "."]⟩
    b.fs = a.fs ∧ b.absolute = false ∧ b.isEmpty = false ∧
      a.relativize (a.resolve b) = .ok b ∧ a.endsWith b = true ∧ a.startsWith b = false ∧
      ¬ ∃ r, b.relativize a = .ok r ∧ b.resolve r = a := by
  intro a b
  obtain ⟨laws, -⟩ := parts_agree (show b.fs = a.fs from rfl) a
  have hempty : b.isEmpty = false := rfl
  have hstarts : a.startsWith b = false := by decide
  have hends : a.endsWith b = true :=
    (laws.ends rfl hempty).2 ⟨⟨0, true, ["b", ".."]⟩, rfl, rfl⟩
  refine ⟨rfl, rfl, hempty, laws.way_back rfl, hends, hstarts, ?_⟩
  rw [← laws.starts hempty, hstarts]
  exact Bool.false_ne_true

end BucketFs.Path
