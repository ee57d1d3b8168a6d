import BucketFs.Proofs.Text.Percent

/-!
# Triples in percent-encoded texts

* `decodeBytes_cons` — what decoding does at the start of a byte string.
* `decode?_eq_self_iff` — decoding leaves a text as it is exactly if it holds no triple.
* `exists_digits_of_encodeBytes` — each `%` of an encoded text starts a triple with capital digits.
-/

namespace BucketFs.Text.Percent

open BucketFs.Bytes

open String (utf8EncodeChar)

/-! ## Decoding -/

/-- What decoding does at the start of a byte string: it reads a triple, or lets a byte pass. -/
theorem decodeBytes_cons (b : UInt8) (rest : Bytes) :
    (∃ h l behind x y, b = 0x25 ∧ rest = h :: l :: behind ∧
      Hex.valueOfCode? h.toNat = some x ∧ Hex.valueOfCode? l.toNat = some y ∧
      decodeBytes (b :: rest) = UInt8.ofNat (16 * x + y) :: decodeBytes behind) ∨
    decodeBytes (b :: rest) = b :: decodeBytes rest := by
  match rest with
  | [] => exact .inr rfl
  | [_] => exact .inr rfl
  | h :: l :: behind =>
    rw [decodeBytes]
    split
    · rename_i hb
      split
      · rename_i x y hx hy
        exact .inl ⟨h, l, behind, x, y, hb, rfl, hx, hy, rfl⟩
      · exact .inr rfl
    · exact .inr rfl

theorem length_decodeBytes_le : ∀ b : Bytes, (decodeBytes b).length ≤ b.length
  | [] => Nat.le_refl 0
  | b :: rest => by
    rcases decodeBytes_cons b rest with ⟨h, l, behind, x, y, -, rfl, -, -, heq⟩ | heq
    · have hle := length_decodeBytes_le behind
      simp only [heq, List.length_cons]
      omega
    · have hle := length_decodeBytes_le rest
      simp only [heq, List.length_cons]
      omega
termination_by b => b.length

/-- The bytes of a triple, with others around it. -/
def BytesHoldTriple (b : Bytes) : Prop :=
  ∃ before h l behind, b = before ++ 0x25 :: h :: l :: behind ∧
    (Hex.valueOfCode? h.toNat).isSome ∧ (Hex.valueOfCode? l.toNat).isSome

/-- A triple makes a byte string shorter, wherever it stands. -/
theorem length_decodeBytes_lt {b : Bytes} (hb : BytesHoldTriple b) :
    (decodeBytes b).length < b.length := by
  obtain ⟨before, h, l, behind, rfl, hh, hl⟩ := hb
  induction before with
  | nil =>
    obtain ⟨x, hx⟩ := Option.isSome_iff_exists.1 hh
    obtain ⟨y, hy⟩ := Option.isSome_iff_exists.1 hl
    have hle := length_decodeBytes_le behind
    rw [List.nil_append, decodeBytes, if_pos rfl, hx, hy]
    simp only [List.length_cons]
    omega
  | cons b before ih =>
    rw [List.cons_append]
    rcases decodeBytes_cons b (before ++ 0x25 :: h :: l :: behind) with
      ⟨h', l', rest, x, y, -, hrest, -, -, heq⟩ | heq
    · -- another triple is read first, and is shortened as well
      have hle := length_decodeBytes_le rest
      rw [heq, hrest]
      simp only [List.length_cons]
      omega
    · rw [heq, List.length_cons, List.length_cons]
      omega

theorem decodeBytes_eq_self_iff {b : Bytes} : decodeBytes b = b ↔ ¬ BytesHoldTriple b := by
  constructor
  · intro h hb
    have hlt := length_decodeBytes_lt hb
    rw [h] at hlt
    omega
  · intro hb
    induction b with
    | nil => rfl
    | cons b rest ih =>
      rcases decodeBytes_cons b rest with ⟨h, l, behind, x, y, rfl, rfl, hx, hy, -⟩ | heq
      · exact absurd ⟨[], h, l, behind, rfl, by rw [hx]; rfl, by rw [hy]; rfl⟩ hb
      · rw [heq, ih]
        rintro ⟨before, h, l, behind, rfl, hh, hl⟩
        exact hb ⟨b :: before, h, l, behind, rfl, hh, hl⟩

/-! ## Texts -/

/-- Whether a text holds a triple: a `%` with two hexadecimal digits of either case behind it. -/
def HoldsTriple (s : String) : Prop :=
  ∃ before h l behind, s.toList = before ++ '%' :: h :: l :: behind ∧
    (Hex.value? h).isSome ∧ (Hex.value? l).isSome

theorem valueOfCode?_lt {n : Nat} (h : (Hex.valueOfCode? n).isSome) : n < 0x80 := by
  unfold Hex.valueOfCode? at h
  split at h
  · omega
  split at h
  · omega
  split at h
  · omega
  · cases h

/-- The triples of a text are those of its bytes, as they are written in ASCII. -/
theorem bytesHoldTriple_utf8_iff {s : String} : BytesHoldTriple (utf8 s) ↔ HoldsTriple s := by
  rw [BytesHoldTriple, utf8_eq_flatMap]
  constructor
  · rintro ⟨before, h, l, behind, heq, hh, hl⟩
    obtain ⟨ds, mark, es, hs, hmark, -, hes⟩ := exists_split_of_ascii (by decide) heq
    obtain ⟨c, fs, rfl, hc, hfs⟩ := exists_cons_of_ascii (valueOfCode?_lt hh) hes
    obtain ⟨d, gs, rfl, hd, -⟩ := exists_cons_of_ascii (valueOfCode?_lt hl) hfs
    obtain rfl : mark = '%' := Char.toNat_inj.1 hmark
    exact ⟨ds, c, d, gs, hs, by rwa [Hex.value?, hc], by rwa [Hex.value?, hd]⟩
  · rintro ⟨before, c, d, behind, hs, hc, hd⟩
    have hclt := valueOfCode?_lt hc
    have hdlt := valueOfCode?_lt hd
    refine ⟨before.flatMap utf8EncodeChar, UInt8.ofNat c.toNat, UInt8.ofNat d.toNat,
      behind.flatMap utf8EncodeChar, ?_, ?_, ?_⟩
    · rw [hs, List.flatMap_append, List.flatMap_cons, List.flatMap_cons, List.flatMap_cons,
        utf8EncodeChar_ascii hclt, utf8EncodeChar_ascii hdlt]
      rfl
    · rwa [UInt8.toNat_ofNat', Nat.mod_eq_of_lt (by omega)]
    · rwa [UInt8.toNat_ofNat', Nat.mod_eq_of_lt (by omega)]

/-- **Decoding leaves a text as it is exactly if it holds no triple.** -/
theorem decode?_eq_self_iff {s : String} : decode? s = some s ↔ ¬ HoldsTriple s := by
  rw [← bytesHoldTriple_utf8_iff, ← decodeBytes_eq_self_iff, decode?]
  constructor
  · intro h
    exact (utf8_of_ofUtf8? h).symm
  · intro h
    rw [h, ofUtf8?_utf8]

/-! ## Encoding -/

/-- Whether a character is a hexadecimal digit, a letter being a capital. -/
def isCapitalDigit (c : Char) : Bool := c.isDigit || ('A' ≤ c && c ≤ 'F')

theorem isCapitalDigit_upperDigit : ∀ n < 16, isCapitalDigit (Hex.upperDigit n) = true := by decide

theorem upperDigit_ne_mark : ∀ n < 16, Hex.upperDigit n ≠ '%' := by decide

/-- **Each mark of an encoded text starts a triple** with capital digits. -/
theorem exists_digits_of_encodeBytes {verbatim : UInt8 → Bool} (hread : Readable verbatim)
    {b : Bytes} {before behind : List Char}
    (heq : encodeBytes verbatim b = before ++ '%' :: behind) :
    ∃ h l rest, behind = h :: l :: rest ∧ isCapitalDigit h = true ∧ isCapitalDigit l = true := by
  induction b generalizing before with
  | nil => simp [encodeBytes] at heq
  | cons x b ih =>
    rw [encodeBytes, List.flatMap_cons, ← encodeBytes] at heq
    split at heq
    · rename_i hx
      obtain ⟨hascii, hne⟩ := hread x hx
      cases before with
      | nil =>
        -- a verbatim byte is no mark
        have hmark := congrArg Char.toNat (List.cons.inj heq).1
        rw [toNat_ofNat hascii] at hmark
        exact absurd (UInt8.toNat_inj.1 hmark) hne
      | cons c before => exact ih (List.cons.inj heq).2
    · obtain ⟨x, hx, y, hy, htriple⟩ := exists_triple_eq x
      rw [htriple] at heq
      -- the mark is that of the triple, none of its digits, or behind it
      rcases before with _ | ⟨_, _ | ⟨_, _ | ⟨_, before⟩⟩⟩
      · simp only [List.cons_append, List.nil_append, List.cons.injEq, true_and] at heq
        exact ⟨_, _, _, heq.symm, isCapitalDigit_upperDigit x hx, isCapitalDigit_upperDigit y hy⟩
      · simp only [List.cons_append, List.nil_append, List.cons.injEq] at heq
        exact absurd heq.2.1 (upperDigit_ne_mark x hx)
      · simp only [List.cons_append, List.nil_append, List.cons.injEq] at heq
        exact absurd heq.2.2.1 (upperDigit_ne_mark y hy)
      · simp only [List.cons_append, List.nil_append, List.cons.injEq] at heq
        exact ih heq.2.2.2

end BucketFs.Text.Percent
