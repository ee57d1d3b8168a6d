import BucketFs.Proofs.Location.Normalization

/-!
# The way from one path to another

The way goes up once for each name that only the first path has, and down the names that only the
second one has.  Normalization lets every `..` of the way take a name away, while a `.` or a `..` of
the first path has put none there; then the way climbs into the names that both paths share.

* `relativize_eq_ok_iff` — the way, by the names that each path has on its own.
* `exists_climb` — names have one effect on all stacks: they take some names off and put others on.
* `exists_overshoot` — the way back along some names climbs too far just when there are dots among
  them.
* `relativize_leads_iff` — when a way leads to where it is meant to; `relativize_astray` is one that
  does not.
-/

namespace BucketFs.Path

variable {p q : Path}

/-! ## Names in common -/

theorem commonLength_comm (as bs : List String) : commonLength as bs = commonLength bs as := by
  induction as generalizing bs with
  | nil => cases bs <;> rfl
  | cons a as ih =>
    cases bs with
    | nil => rfl
    | cons b bs => simp only [commonLength, ih bs, @eq_comm _ a b]

theorem take_commonLength (as bs : List String) :
    as.take (commonLength as bs) = bs.take (commonLength as bs) := by
  induction as generalizing bs with
  | nil => rfl
  | cons a as ih =>
    cases bs with
    | nil => rfl
    | cons b bs =>
      rw [commonLength]
      split
      · rename_i heq
        rw [List.take_succ_cons, List.take_succ_cons, heq, ih bs]
      · rfl

/-- The names of `p` behind those that it has in common with `q` from the start. -/
def own (p q : Path) : List String := p.segments.drop (commonLength p.segments q.segments)

/-- Two paths are the names that they share and their own ones. -/
theorem exists_shared (p q : Path) :
    ∃ shared, p.segments = shared ++ p.own q ∧ q.segments = shared ++ q.own p := by
  refine ⟨p.segments.take (commonLength p.segments q.segments),
    (List.take_append_drop _ _).symm, ?_⟩
  rw [take_commonLength, own, commonLength_comm q.segments]
  exact (List.take_append_drop _ _).symm

/-- **The way between two paths**, by their own names. -/
theorem relativize_eq_ok_iff {r : Path} :
    p.relativize q = .ok r ↔ p.fs = q.fs ∧ p.absolute = q.absolute ∧
      r = p.relative (List.replicate (p.own q).length upName ++ q.own p) := by
  rw [relativize]
  by_cases hfs : p.fs = q.fs
  · by_cases habsolute : p.absolute = q.absolute
    · rw [if_neg (not_not.2 hfs), if_neg (not_not.2 habsolute), own, own, List.length_drop,
        commonLength_comm q.segments, Except.ok.injEq]
      exact ⟨fun h => ⟨hfs, habsolute, h.symm⟩, fun h => h.2.2.symm⟩
    · rw [if_neg (not_not.2 hfs), if_pos habsolute]
      exact iff_of_false nofun fun h => habsolute h.2.1
  · rw [if_pos hfs]
    exact iff_of_false nofun fun h => hfs h.1

/-! ## What names do to a stack -/

theorem foldl_up (count : Nat) :
    ∀ kept, (List.replicate count upName).foldl normalizeStep kept = kept.drop count := by
  induction count with
  | zero => exact fun _ => rfl
  | succ count ih =>
    intro kept
    rw [List.replicate_succ, List.foldl_cons, normalizeStep_up, ih, List.drop_tail]

/-- **Names have one effect on all stacks**: they climb past some of the names there and leave
others on top, the same ones for all stacks. -/
theorem exists_climb (ns : List String) :
    ∀ top : List String, ∃ climbed, ∀ kept,
      ns.foldl normalizeStep (top ++ kept) = ns.foldl normalizeStep top ++ kept.drop climbed := by
  induction ns with
  | nil => exact fun _ => ⟨0, fun _ => rfl⟩
  | cons name rest ih =>
    intro top
    rcases plain_or_dots name with hplain | rfl | rfl
    · obtain ⟨climbed, h⟩ := ih (name :: top)
      refine ⟨climbed, fun kept => ?_⟩
      rw [List.foldl_cons, List.foldl_cons, normalizeStep_plain hplain,
        normalizeStep_plain hplain, ← h kept, List.cons_append]
    · obtain ⟨climbed, h⟩ := ih top
      refine ⟨climbed, fun kept => ?_⟩
      rw [List.foldl_cons, List.foldl_cons, normalizeStep_self, normalizeStep_self, h kept]
    · cases top with
      | nil =>
        -- nothing of their own is left, so this `..` climbs past one more name
        obtain ⟨climbed, h⟩ := ih []
        refine ⟨climbed + 1, fun kept => ?_⟩
        rw [List.foldl_cons, List.foldl_cons, normalizeStep_up, normalizeStep_up,
          List.nil_append, List.tail_nil, ← List.drop_tail, ← h kept.tail, List.nil_append]
      | cons n top =>
        obtain ⟨climbed, h⟩ := ih top
        refine ⟨climbed, fun kept => ?_⟩
        rw [List.foldl_cons, List.foldl_cons, normalizeStep_up, normalizeStep_up,
          List.cons_append, List.tail_cons, List.tail_cons, h kept]

theorem length_foldl_le (ns : List String) :
    ∀ kept, (ns.foldl normalizeStep kept).length ≤ kept.length + ns.length := by
  induction ns with
  | nil => exact fun _ => Nat.le_refl _
  | cons name rest ih =>
    intro kept
    have hrest := ih (normalizeStep kept name)
    have hstep : (normalizeStep kept name).length ≤ kept.length + 1 := by
      rcases plain_or_dots name with hplain | rfl | rfl
      · rw [normalizeStep_plain hplain, List.length_cons]
      · rw [normalizeStep_self]
        omega
      · rw [normalizeStep_up, List.length_tail]
        omega
    rw [List.foldl_cons, List.length_cons]
    omega

/-- Names that all stay on the stack are plain. -/
theorem plain_of_length_foldl {ns : List String} :
    ∀ kept, kept.length + ns.length ≤ (ns.foldl normalizeStep kept).length →
      ∀ n ∈ ns, IsPlain n := by
  induction ns with
  | nil => exact fun _ _ _ hn => (List.not_mem_nil hn).elim
  | cons name rest ih =>
    intro kept h
    have hrest := length_foldl_le rest (normalizeStep kept name)
    rw [List.foldl_cons, List.length_cons] at h
    rcases plain_or_dots name with hplain | rfl | rfl
    · rw [normalizeStep_plain hplain] at h hrest
      refine List.forall_mem_cons.2 ⟨hplain, ih (name :: kept) ?_⟩
      rw [List.length_cons]
      omega
    · rw [normalizeStep_self] at h hrest
      omega
    · rw [normalizeStep_up] at h hrest
      rw [List.length_tail] at hrest
      omega

/-- **The way back along some names** goes up once for each of them.  It ends above the place where
they started just when there are dots among them. -/
theorem exists_overshoot (ns : List String) :
    ∃ overshoot, (∀ kept, (ns.foldl normalizeStep kept).drop ns.length = kept.drop overshoot) ∧
      (overshoot = 0 ↔ ∀ n ∈ ns, IsPlain n) := by
  obtain ⟨climbed, hclimb⟩ := exists_climb ns []
  have hlength := length_foldl_le ns []
  rw [List.length_nil, Nat.zero_add] at hlength
  have hback : ∀ kept, (ns.foldl normalizeStep kept).drop ns.length =
      kept.drop (climbed + (ns.length - (ns.foldl normalizeStep []).length)) := by
    intro kept
    rw [← List.nil_append kept, hclimb kept, List.nil_append, List.drop_append,
      List.drop_eq_nil_of_le hlength, List.nil_append, List.drop_drop]
  refine ⟨_, hback, ?_⟩
  constructor
  · intro hzero
    exact plain_of_length_foldl [] (by rw [List.length_nil]; omega)
  · intro hplain
    -- plain names are all put on top, and going up takes just them off
    have hone := congrArg List.length (hback [selfName])
    rw [foldl_normalizeStep hplain, List.drop_left' List.length_reverse, List.length_drop,
      List.length_singleton] at hone
    omega

theorem drop_drop_eq_iff {kept : List String} {overshoot climbed : Nat} :
    (kept.drop overshoot).drop climbed = kept.drop climbed ↔
      overshoot = 0 ∨ kept.drop climbed = [] := by
  constructor
  · intro heq
    have hlengths := congrArg List.length heq
    simp only [List.length_drop] at hlengths
    rw [List.drop_eq_nil_iff]
    omega
  · rintro (rfl | hnone)
    · rfl
    · rw [List.drop_drop, Nat.add_comm, ← List.drop_drop, hnone, List.drop_nil]

/-! ## Ways -/

/-- **When a way leads to its end.**  Two paths of one filesystem, both absolute or both relative,
always have a way from `a` to `c`.  It leads from `a` to `c` just when the names that only `a` has
are plain, or those that only `c` has climb out of all that the two share. -/
theorem relativize_leads_iff {a c : Path} (hfs : a.fs = c.fs) (habsolute : a.absolute = c.absolute) :
    ∃ r, a.relativize c = .ok r ∧
      ((a.resolve r).normalize = c.normalize ↔
        (∀ n ∈ a.own c, n ≠ selfName ∧ n ≠ upName) ∨
          c.normalize = normalize { c with segments := c.own a }) := by
  refine ⟨_, relativize_eq_ok_iff.2 ⟨hfs, habsolute, rfl⟩, ?_⟩
  obtain ⟨shared, ha, hc⟩ := exists_shared a c
  obtain ⟨overshoot, hover, hplain⟩ := exists_overshoot (a.own c)
  obtain ⟨climbed, hclimb⟩ := exists_climb (c.own a) []
  simp only [List.nil_append] at hclimb
  generalize hkept : shared.foldl normalizeStep [] = kept
  -- both paths end in the own names of `c`, on top of what they leave of the shared ones
  have hway : (a.segments ++ (List.replicate (a.own c).length upName ++ c.own a)).foldl
      normalizeStep [] = (c.own a).foldl normalizeStep [] ++ (kept.drop overshoot).drop climbed := by
    rw [ha, List.foldl_append, List.foldl_append, List.foldl_append, hkept, foldl_up, hover,
      hclimb]
  have hend : c.segments.foldl normalizeStep [] =
      (c.own a).foldl normalizeStep [] ++ kept.drop climbed := by
    rw [hc, List.foldl_append, hkept, hclimb]
  have hleads : (a.resolve (a.relative
      (List.replicate (a.own c).length upName ++ c.own a))).normalize = c.normalize ↔
      (kept.drop overshoot).drop climbed = kept.drop climbed := by
    rw [resolve_of_relative rfl, normalize_eq_iff (by exact hfs) (by exact habsolute)]
    show (a.segments ++ _).foldl normalizeStep [] = _ ↔ _
    rw [relative, hway, hend, List.append_cancel_left_eq]
  have hout : c.normalize = normalize { c with segments := c.own a } ↔ kept.drop climbed = [] := by
    rw [normalize_eq_iff (by rfl) (by rfl), hend, List.append_right_eq_self]
  rw [hleads, hout, ← hplain, drop_drop_eq_iff]

/-- A way out of two names and into a path with dots of its own. -/
theorem relativize_leads_dotted :
    let a : Path := ⟨0, true, ["b", "x", "y"]⟩
    let c : Path := ⟨0, true, ["b", ".", "..", "z"]⟩
    a.fs = c.fs ∧ a.absolute = c.absolute ∧
      ∃ r, a.relativize c = .ok r ∧ (a.resolve r).normalize = c.normalize := by
  intro a c
  obtain ⟨r, hr, hleads⟩ := relativize_leads_iff (show a.fs = c.fs from rfl) rfl
  exact ⟨rfl, rfl, r, hr, hleads.2 (.inl (by decide))⟩

/-- From `/b/..` to `/b/x`: the way goes up for the `..`, and leads to `/x`. -/
theorem relativize_astray :
    let a : Path := ⟨0, true, ["b", ".."]⟩
    let c : Path := ⟨0, true, ["b", "x"]⟩
    let r : Path := ⟨0, false, ["..", "x"]⟩
    a.relativize c = .ok r ∧ (a.resolve r).normalize = ⟨0, true, ["x"]⟩ ∧
      (a.resolve r).normalize ≠ c.normalize := by
  decide

end BucketFs.Path
