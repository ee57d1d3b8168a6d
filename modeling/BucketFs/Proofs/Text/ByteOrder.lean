import BucketFs.Bytes.Basic

/-!
# The order of texts is the order of their bytes

`utf8_lt_utf8_iff` — texts compare as their UTF-8 forms do, byte by byte.  A store that sorts keys
by their bytes therefore lists them in the order of texts.
-/

namespace BucketFs.Bytes

open String (utf8EncodeChar)

theorem utf8_eq_flatMap (s : String) : utf8 s = s.toList.flatMap utf8EncodeChar := by
  rw [utf8, String.toUTF8_eq_toByteArray, ← String.utf8Encode_toList, List.utf8Encode]
  simp

/-- The form of the smaller character has a smaller byte at the first place where two forms
differ, so what stands behind them does not count. -/
theorem utf8EncodeChar_append_lt {c d : Char} (h : c < d) (x y : Bytes) :
    utf8EncodeChar c ++ x < utf8EncodeChar d ++ y := by
  have hlt : c.val.toNat < d.val.toNat := h
  have hd : d.val.toNat < 0x110000 := by
    rcases d.valid with h | h <;> omega
  unfold utf8EncodeChar
  generalize c.val.toNat = m at *
  generalize d.val.toNat = n at *
  -- one case for each pair of lengths; the bytes are digits of `m` and `n` to the base 64
  dsimp only
  repeat' split
  all_goals
    simp only [List.cons_append, List.nil_append, List.cons_lt_cons_iff, UInt8.lt_iff_toNat_lt,
      ← UInt8.toNat_inj, UInt8.toNat_ofNat', show ∀ k, k / 4096 = k / 64 / 64 by omega,
      show ∀ k, k / 262144 = k / 64 / 64 / 64 by omega]
    simp (disch := omega) only [Nat.mod_eq_of_lt (b := 2 ^ 8)]
    omega

theorem flatMap_lt_flatMap {l m : List Char} (h : l < m) :
    l.flatMap utf8EncodeChar < m.flatMap utf8EncodeChar := by
  induction l generalizing m with
  | nil =>
    cases m with
    | nil => exact absurd h (by simp)
    | cons d m =>
      have hd : utf8EncodeChar d ≠ [] := String.utf8EncodeChar_ne_nil
      cases he : utf8EncodeChar d with
      | nil => exact absurd he hd
      | cons a t => simp [he]
  | cons c l ih =>
    cases m with
    | nil => exact absurd h (by simp)
    | cons d m =>
      rw [List.flatMap_cons, List.flatMap_cons]
      rcases List.cons_lt_cons_iff.1 h with hcd | ⟨rfl, hlm⟩
      · exact utf8EncodeChar_append_lt hcd _ _
      · exact List.append_left_lt (ih hlm)

theorem utf8_lt_utf8 {s t : String} (h : s < t) : utf8 s < utf8 t := by
  rw [utf8_eq_flatMap, utf8_eq_flatMap]
  exact flatMap_lt_flatMap h

/-- **Texts are ordered by their bytes.** -/
theorem utf8_lt_utf8_iff {s t : String} : utf8 s < utf8 t ↔ s < t := by
  constructor
  · intro h
    rw [← String.not_le]
    intro hts
    rcases Std.le_iff_lt_or_eq.1 hts with hlt | rfl
    · exact List.lt_asymm h (utf8_lt_utf8 hlt)
    · exact List.lt_irrefl _ h
  · exact utf8_lt_utf8

end BucketFs.Bytes
