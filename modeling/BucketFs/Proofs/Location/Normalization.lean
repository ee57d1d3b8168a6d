import BucketFs.Proofs.Location.Path
import Mathlib.Logic.Relation
import Mathlib.Order.WellFounded

/-!
# Normal forms of paths

A path is simplified at one place at a time: a `.` goes, a name goes together with the `..` behind
it, and a `..` in front of all names goes.  Normalization is one pass over the names with a stack of
those kept so far.

* `Simplifies` — one simplification, at any place of a path.
* `Simplifies.normalize_eq` — a simplification does not change what a path normalizes to.
* `isNormal_iff` — just the paths without dots cannot be simplified.
* `simplifies_normalize` — every path can be simplified to what it normalizes to.
* `normalize_unique` — in whatever order a path is simplified, that ends in what the path
  normalizes to.
-/

namespace BucketFs.Path

open Relation

variable {p q : Path} {n : String}

/-- A name that stands neither for its directory nor for the parent directory. -/
abbrev IsPlain (n : String) : Prop := n ≠ selfName ∧ n ≠ upName

theorem plain_or_dots (n : String) : IsPlain n ∨ n = selfName ∨ n = upName := by
  by_cases hself : n = selfName
  · exact .inr (.inl hself)
  · by_cases hup : n = upName
    · exact .inr (.inr hup)
    · exact .inl ⟨hself, hup⟩

/-! ## One name -/

@[simp] theorem normalizeStep_self (kept : List String) : normalizeStep kept selfName = kept :=
  if_pos rfl

@[simp] theorem normalizeStep_up (kept : List String) : normalizeStep kept upName = kept.tail := by
  rw [normalizeStep, if_neg (by decide), if_pos rfl]

theorem normalizeStep_plain (hn : IsPlain n) (kept : List String) :
    normalizeStep kept n = n :: kept := by
  rw [normalizeStep, if_neg hn.1, if_neg hn.2]

/-! ## All names -/

/-- What holds of the names kept so far and of the plain ones to come holds of all that are kept. -/
theorem forall_foldl {P : String → Prop} {ns : List String} (hns : ∀ n ∈ ns, IsPlain n → P n) :
    ∀ {kept : List String}, (∀ n ∈ kept, P n) → ∀ n ∈ ns.foldl normalizeStep kept, P n := by
  induction ns with
  | nil => exact fun h => h
  | cons name rest ih =>
    intro kept h
    refine ih (fun n hn => hns n (List.mem_cons_of_mem _ hn)) fun n hn => ?_
    rcases plain_or_dots name with hplain | rfl | rfl
    · rw [normalizeStep_plain hplain] at hn
      rcases List.mem_cons.1 hn with rfl | hn
      · exact hns n List.mem_cons_self hplain
      · exact h n hn
    · rw [normalizeStep_self] at hn
      exact h n hn
    · rw [normalizeStep_up] at hn
      exact h n (List.mem_of_mem_tail hn)

theorem forall_normalize {P : String → Prop} (h : ∀ n ∈ p.segments, IsPlain n → P n) :
    ∀ n ∈ p.normalize.segments, P n := fun n hn =>
  forall_foldl h (fun _ hnone => (List.not_mem_nil hnone).elim) n (List.mem_reverse.1 hn)

theorem plain_normalize (p : Path) : ∀ n ∈ p.normalize.segments, IsPlain n :=
  forall_normalize fun _ _ hplain => hplain

theorem normalize_eq_iff (hfs : p.fs = q.fs) (habsolute : p.absolute = q.absolute) :
    p.normalize = q.normalize ↔
      p.segments.foldl normalizeStep [] = q.segments.foldl normalizeStep [] := by
  rw [normalize, normalize, Path.mk.injEq, List.reverse_inj]
  exact ⟨fun h => h.2.2, fun h => ⟨hfs, habsolute, h⟩⟩

/-- A second pass keeps what the first one kept. -/
theorem foldl_normalize (p : Path) :
    p.normalize.segments.foldl normalizeStep [] = p.segments.foldl normalizeStep [] := by
  rw [foldl_normalizeStep (plain_normalize p), List.append_nil]
  exact List.reverse_reverse _

/-- **What is put behind a path** may as well be put behind its normal form. -/
theorem normalize_resolve {r : Path} (hr : r.absolute = false) :
    (p.resolve r).normalize = (p.normalize.resolve r).normalize := by
  rw [resolve_of_relative hr, resolve_of_relative hr, normalize_eq_iff (by rfl) (by rfl),
    List.foldl_append, List.foldl_append, foldl_normalize]

/-! ## Simplification -/

/-- One simplification of a path: the names `before` and `after` stand around the place. -/
inductive Simplifies : Path → Path → Prop where
  | stay (fs : FsId) (absolute : Bool) (before after : List String) :
    Simplifies ⟨fs, absolute, before ++ selfName :: after⟩ ⟨fs, absolute, before ++ after⟩
  | back (fs : FsId) (absolute : Bool) (before after : List String) {n : String}
    (plain : IsPlain n) :
    Simplifies ⟨fs, absolute, before ++ n :: upName :: after⟩ ⟨fs, absolute, before ++ after⟩
  | top (fs : FsId) (absolute : Bool) (after : List String) :
    Simplifies ⟨fs, absolute, upName :: after⟩ ⟨fs, absolute, after⟩

/-- A path that cannot be simplified. -/
def IsNormal (p : Path) : Prop := ∀ q, ¬ Simplifies p q

/-- **No simplification changes the normal form.**  What the place does to the stack of names is
nothing, whatever the names before it have left there. -/
theorem Simplifies.normalize_eq (h : Simplifies p q) : q.normalize = p.normalize := by
  cases h with
  | stay fs absolute before after =>
    simp only [normalize, List.foldl_append, List.foldl_cons, normalizeStep_self]
  | back fs absolute before after plain =>
    simp only [normalize, List.foldl_append, List.foldl_cons, normalizeStep_plain plain,
      normalizeStep_up, List.tail_cons]
  | top fs absolute after =>
    simp only [normalize, List.foldl_cons, normalizeStep_up, List.tail_nil]

theorem Simplifies.depth_lt (h : Simplifies p q) : q.depth < p.depth := by
  cases h <;> simp only [depth, List.length_append, List.length_cons] <;> omega

/-- **A path with dots can be simplified** where the first of them stands. -/
theorem exists_simplifies (h : ¬ ∀ n ∈ p.segments, IsPlain n) : ∃ q, Simplifies p q := by
  obtain ⟨fs, absolute, segments⟩ := p
  obtain ⟨dot, hfind⟩ : ∃ dot, segments.find? (fun n => ¬ IsPlain n) = some dot := by
    rw [← Option.isSome_iff_exists, List.find?_isSome]
    simpa only [decide_eq_true_eq, not_forall, exists_prop] using h
  obtain ⟨hdot, before, after, rfl, hbefore⟩ := List.find?_eq_some_iff_append.1 hfind
  rw [decide_eq_true_eq, not_and_or, not_not, not_not] at hdot
  rcases hdot with rfl | rfl
  · exact ⟨_, .stay fs absolute before after⟩
  · -- a `..` goes alone or with the name before it, which is plain
    rcases List.eq_nil_or_concat before with rfl | ⟨front, n, rfl⟩
    · exact ⟨_, .top fs absolute after⟩
    · have hplain : IsPlain n := by
        simpa only [decide_not, Bool.not_not, decide_eq_true_eq] using hbefore n (by simp)
      rw [List.concat_eq_append, List.append_assoc, List.singleton_append]
      exact ⟨_, .back fs absolute front after hplain⟩

/-- **Just the paths without dots** cannot be simplified. -/
theorem isNormal_iff : p.IsNormal ↔ ∀ n ∈ p.segments, IsPlain n := by
  constructor
  · intro hnormal
    by_contra hdots
    obtain ⟨q, hq⟩ := exists_simplifies hdots
    exact hnormal q hq
  · intro hplain q hq
    cases hq with
    | stay fs absolute before after => exact (hplain selfName (by simp)).1 rfl
    | back fs absolute before after plain => exact (hplain upName (by simp)).2 rfl
    | top fs absolute after => exact (hplain upName (by simp)).2 rfl

theorem wellFounded_simplifies : WellFounded fun q p => Simplifies p q :=
  Subrelation.wf (r := InvImage (· < ·) depth) Simplifies.depth_lt (InvImage.wf depth Nat.lt_wfRel.wf)

/-- **Every path can be simplified** to what it normalizes to. -/
theorem simplifies_normalize (p : Path) : ReflTransGen Simplifies p p.normalize := by
  induction p using wellFounded_simplifies.induction with
  | _ p ih =>
    by_cases hplain : ∀ n ∈ p.segments, IsPlain n
    · rw [normalize_of_plain hplain]
    · obtain ⟨q, hq⟩ := exists_simplifies hplain
      have hrest := ih q hq
      rw [hq.normalize_eq] at hrest
      exact .head hq hrest

theorem normalize_eq_of_simplified (h : ReflTransGen Simplifies p q) :
    q.normalize = p.normalize := by
  induction h with
  | refl => rfl
  | tail _ hstep ih => exact hstep.normalize_eq.trans ih

/-- Simplifications cannot go on for ever. -/
theorem exists_not_simplifies (run : Nat → Path) : ∃ i, ¬ Simplifies (run i) (run (i + 1)) := by
  by_contra hall
  rw [not_exists_not] at hall
  exact (wellFounded_iff_isEmpty_descending_chain.1 wellFounded_simplifies).elim ⟨run, hall⟩

/-- **The normal form of a path is unique.**  It has no dots, and it is what every order of
simplifications comes to: none goes on for ever, each can be continued to the normal form, and none
stops anywhere else.  It also stands for the path wherever something is put behind it. -/
theorem normalize_unique (p : Path) :
    ((∀ n ∈ p.normalize.segments, n ≠ selfName ∧ n ≠ upName) ∧
      p.normalize.absolute = p.absolute ∧ p.normalize.fs = p.fs ∧
      p.normalize.normalize = p.normalize) ∧
    (∀ q, Simplifies p q → q.normalize = p.normalize) ∧
    (∀ run : Nat → Path, run 0 = p → ∃ i, ¬ Simplifies (run i) (run (i + 1))) ∧
    (∀ q, ReflTransGen Simplifies p q →
      ReflTransGen Simplifies q p.normalize ∧ (q.IsNormal ↔ q = p.normalize)) ∧
    (∀ r, r.fs = p.fs → r.absolute = false →
      (p.resolve r).normalize = (p.normalize.resolve r).normalize) := by
  have hnormal := normalize_of_plain (plain_normalize p)
  refine ⟨⟨plain_normalize p, rfl, rfl, hnormal⟩, fun q hq => hq.normalize_eq,
    fun run _ => exists_not_simplifies run, fun q hq => ?_, fun r _ hr => normalize_resolve hr⟩
  have hsame := normalize_eq_of_simplified hq
  constructor
  · rw [← hsame]
    exact simplifies_normalize q
  · constructor
    · intro hq'
      rw [← hsame, normalize_of_plain (isNormal_iff.1 hq')]
    · rintro rfl
      exact isNormal_iff.2 (plain_normalize p)

/-- A path that is simplified in the middle; two of its three `..` find a name to take away. -/
theorem normalize_unique_nested :
    let p : Path := ⟨0, true, ["b", ".", "a", "..", "..", "..", "c"]⟩
    let q : Path := ⟨0, true, ["b", ".", "..", "..", "c"]⟩
    let r : Path := ⟨0, false, ["..", "d"]⟩
    Simplifies p q ∧ p.normalize = ⟨0, true, ["c"]⟩ ∧ q.normalize = ⟨0, true, ["c"]⟩ ∧
      r.fs = p.fs ∧ r.absolute = false ∧ (p.resolve r).normalize = ⟨0, true, ["d"]⟩ := by
  intro p q r
  have hstep : Simplifies p q := .back 0 true ["b", "."] ["..", "..", "c"] (by decide)
  have hp : p.normalize = ⟨0, true, ["c"]⟩ := by decide
  obtain ⟨-, hsame, -, -, hresolve⟩ := normalize_unique p
  refine ⟨hstep, hp, (hsame q hstep).trans hp, rfl, rfl, ?_⟩
  rw [hresolve r rfl rfl, hp]
  decide

end BucketFs.Path
