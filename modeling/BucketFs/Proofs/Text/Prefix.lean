import BucketFs.Text.Separated

/-!
# Initial parts, occurrences and the order of texts

Listings rest on three facts about texts.

* `hasPrefix_of_between` — the texts that start with `p` are contiguous in the order of texts.
* `upThrough?_eq_some_iff` — `upThrough?` finds the shortest initial part in which a pattern
  occurs, and `upThrough?_eq_none_iff` says when there is none.
-/

namespace BucketFs.Text

/-! ## Initial parts -/

theorem hasPrefix_iff {p s : String} : hasPrefix p s = true ↔ p.toList <+: s.toList := by
  simp [hasPrefix]

theorem hasPrefix_iff_exists {p s : String} : hasPrefix p s = true ↔ ∃ r, s = p ++ r := by
  rw [hasPrefix_iff]
  constructor
  · rintro ⟨r, hr⟩
    exact ⟨String.ofList r, String.ext (by simp [hr])⟩
  · rintro ⟨r, rfl⟩
    exact ⟨r.toList, by simp⟩

@[simp] theorem hasPrefix_refl (s : String) : hasPrefix s s = true := by
  simp [hasPrefix_iff]

@[simp] theorem hasPrefix_append (p r : String) : hasPrefix p (p ++ r) = true := by
  simp [hasPrefix_iff]

theorem hasPrefix_trans {p q s : String} (hpq : hasPrefix p q = true) (hqs : hasPrefix q s = true) :
    hasPrefix p s = true := by
  rw [hasPrefix_iff] at *
  exact hpq.trans hqs

@[simp] theorem hasPrefix_empty_left (s : String) : hasPrefix "" s = true := by
  simp [hasPrefix_iff]

/-- Only the empty text is an initial part of the empty text. -/
theorem hasPrefix_empty_right_iff {p : String} : hasPrefix p "" = true ↔ p = "" := by
  rw [hasPrefix_iff, String.toList_empty, List.prefix_nil, String.toList_eq_nil_iff]

theorem hasPrefix_append_left {p q r : String} :
    hasPrefix (p ++ q) (p ++ r) = true ↔ hasPrefix q r = true := by
  simp [hasPrefix_iff]

theorem drop_append (p r : String) : (p ++ r).toList.drop p.length = r.toList := by
  rw [String.toList_append, ← String.length_toList, List.drop_left]

theorem dropPrefix?_append (p r : String) : dropPrefix? p (p ++ r) = some r := by
  simp only [dropPrefix?, hasPrefix_append, if_true, drop_append, String.ofList_toList]

/-! ## The order of texts -/

/-- An initial part comes before the whole. -/
theorem le_of_hasPrefix {p s : String} (h : hasPrefix p s = true) : p ≤ s := by
  obtain ⟨r, rfl⟩ := hasPrefix_iff_exists.1 h
  rw [← String.not_lt]
  intro hlt
  rw [String.lt_iff, String.toList_append] at hlt
  exact List.le_append_left hlt

theorem prefix_of_between {p r : List Char} :
    ∀ {b : List Char}, ¬ b < p → ¬ p ++ r < b → p <+: b := by
  induction p with
  | nil => simp
  | cons c p ih =>
    intro b hpb hbr
    cases b with
    | nil => simp at hpb
    | cons d b =>
      rw [List.cons_lt_cons_iff] at hpb
      rw [List.cons_append, List.cons_lt_cons_iff] at hbr
      simp only [not_or, not_and, Char.not_lt] at hpb hbr
      have hcd : c = d := Char.le_antisymm hpb.1 hbr.1
      subst hcd
      exact List.cons_prefix_cons.2 ⟨rfl, ih (hpb.2 rfl) (hbr.2 rfl)⟩

/-- **The texts that start with `p` are contiguous**: what lies between `p` and one of them is
another one. -/
theorem hasPrefix_of_between {p b s : String} (hs : hasPrefix p s = true) (hpb : p ≤ b)
    (hbs : b ≤ s) : hasPrefix p b = true := by
  obtain ⟨r, rfl⟩ := hasPrefix_iff_exists.1 hs
  rw [hasPrefix_iff]
  apply prefix_of_between (r := r.toList)
  · rwa [← String.not_lt, String.lt_iff] at hpb
  · rwa [← String.not_lt, String.lt_iff, String.toList_append] at hbs

/-! ## Occurrences -/

/-- Whether the pattern `d` stands somewhere in `s`. -/
def Occurs (d s : String) : Prop := d.toList <:+: s.toList

theorem occurs_empty_iff {d : String} : Occurs d "" ↔ d = "" := by
  rw [Occurs, String.toList_empty, List.infix_nil, String.toList_eq_nil_iff]

theorem Occurs.of_hasPrefix {d p s : String} (h : Occurs d p) (hp : hasPrefix p s = true) :
    Occurs d s :=
  h.trans (hasPrefix_iff.1 hp).isInfix

/-- `p` is the shortest of its initial parts in which `d` occurs. -/
def EndsFirst (d p : String) : Prop :=
  Occurs d p ∧ ∀ q, hasPrefix q p = true → Occurs d q → q = p

theorem upThrough?_spec {d s p : List Char} (h : upThrough? d s = some p) :
    p <+: s ∧ d <:+: p ∧ ∀ q, q <+: p → d <:+: q → q = p := by
  induction s generalizing p with
  | nil =>
    rw [upThrough?] at h
    split at h
    · rename_i hd
      cases h; subst hd
      exact ⟨List.prefix_rfl, List.infix_rfl, fun q hq _ => by simpa using hq⟩
    · cases h
  | cons c rest ih =>
    rw [upThrough?] at h
    split at h
    · rename_i hd
      cases h
      refine ⟨by simpa using hd, List.infix_rfl, fun q hq hdq => ?_⟩
      exact hq.eq_of_length (Nat.le_antisymm hq.length_le hdq.length_le)
    · rename_i hd
      obtain ⟨p', hp', rfl⟩ := Option.map_eq_some_iff.1 h
      obtain ⟨hpre, hocc, hmin⟩ := ih hp'
      refine ⟨List.cons_prefix_cons.2 ⟨rfl, hpre⟩, List.infix_cons hocc, fun q hq hdq => ?_⟩
      -- an occurrence at the very start was excluded by the test of the definition
      have hstart : ∀ q', q' <+: c :: p' → ¬ d <+: q' := fun q' hq' hdq' => by
        apply hd
        rw [List.isPrefixOf_iff_prefix]
        exact hdq'.trans (hq'.trans (List.cons_prefix_cons.2 ⟨rfl, hpre⟩))
      rcases List.prefix_cons_iff.1 hq with rfl | ⟨q', rfl, hq'⟩
      · exact absurd (by simpa using hdq : d = []) fun h0 => hstart [] (by simp) (by simp [h0])
      · rcases List.infix_cons_iff.1 hdq with hdq | hdq
        · exact absurd hdq (hstart _ hq)
        · rw [hmin q' hq' hdq]

theorem upThrough?_isSome {d s : List Char} (h : d <:+: s) : (upThrough? d s).isSome := by
  induction s with
  | nil => simp [upThrough?, List.infix_nil.1 h]
  | cons c rest ih =>
    rw [upThrough?]
    split
    · rfl
    · rename_i hd
      rcases List.infix_cons_iff.1 h with h | h
      · exact absurd (by simpa using h) hd
      · simpa using ih h

theorem upThrough?_eq_none_iff {d s : String} :
    upThrough? d.toList s.toList = none ↔ ¬ Occurs d s := by
  constructor
  · intro h hocc
    have := upThrough?_isSome hocc
    rw [h] at this
    cases this
  · intro h
    cases hp : upThrough? d.toList s.toList with
    | none => rfl
    | some p =>
      obtain ⟨hpre, hocc, _⟩ := upThrough?_spec hp
      exact absurd (hocc.trans hpre.isInfix) h

/-- **The part that is found is the shortest one in which the pattern occurs.** -/
theorem upThrough?_eq_some_iff {d s p : String} :
    upThrough? d.toList s.toList = some p.toList ↔ hasPrefix p s = true ∧ EndsFirst d p := by
  constructor
  · intro h
    obtain ⟨hpre, hocc, hmin⟩ := upThrough?_spec h
    refine ⟨hasPrefix_iff.2 hpre, hocc, fun q hq hdq => ?_⟩
    exact String.ext (hmin q.toList (hasPrefix_iff.1 hq) hdq)
  · rintro ⟨hpre, hocc, hmin⟩
    cases hp' : upThrough? d.toList s.toList with
    | none => exact absurd (hocc.of_hasPrefix hpre) (upThrough?_eq_none_iff.1 hp')
    | some p' =>
      obtain ⟨hpre', hocc', hmin'⟩ := upThrough?_spec hp'
      rcases List.prefix_or_prefix_of_prefix (hasPrefix_iff.1 hpre) hpre' with h | h
      · rw [hmin' _ h hocc]
      · have := hmin (String.ofList p') (by simpa [hasPrefix_iff] using h)
          (by simpa [Occurs] using hocc')
        rw [← this, String.toList_ofList]

end BucketFs.Text
