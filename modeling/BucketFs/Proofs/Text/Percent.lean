import BucketFs.Proofs.Bytes.Base64
import BucketFs.Proofs.Text.ByteOrder
import BucketFs.Proofs.Text.Names
import BucketFs.Text.Percent

/-!
# What was percent-encoded is read back

* `Bytes.utf8_append`, `Bytes.utf8_ascii` — the bytes of texts in a row, and of ASCII characters.
* `Bytes.exists_split_of_ascii` — an ASCII byte of a text is a character of it.
* `Percent.mem_encodeBytes` — the characters of an encoded text.
* `Percent.Readable` — a choice of verbatim bytes under which encoded texts can be read.
* `Percent.decodeBytes_encode` — an encoded text is read back, whatever stands behind it.
* `Percent.decode?_joined` — names that were encoded one by one and joined are read back at once.
-/

namespace BucketFs

open String (utf8EncodeChar)
open BucketFs.Text (slash)

namespace Bytes

theorem utf8_append (s t : String) : utf8 (s ++ t) = utf8 s ++ utf8 t := by
  simp only [utf8_eq_flatMap, String.toList_append, List.flatMap_append]

theorem utf8_slash_append (s : String) : utf8 (slash ++ s) = 0x2f :: utf8 s := utf8_append slash s

theorem utf8EncodeChar_ascii {c : Char} (h : c.toNat < 0x80) :
    utf8EncodeChar c = [UInt8.ofNat c.toNat] := by
  have hle : c.toNat ≤ 127 := by omega
  simp [utf8EncodeChar, hle]

/-- ASCII characters are their own bytes. -/
theorem utf8_ascii {cs : List Char} (h : ∀ c ∈ cs, c.toNat < 0x80) :
    utf8 (String.ofList cs) = cs.map fun c => UInt8.ofNat c.toNat := by
  rw [utf8_eq_flatMap, String.toList_ofList]
  induction cs with
  | nil => rfl
  | cons c rest ih =>
    rw [List.flatMap_cons, utf8EncodeChar_ascii (h c (by simp)), ih fun d hd => h d (by simp [hd])]
    rfl

/-- An ASCII byte is the form of a character: longer forms have none. -/
theorem toNat_of_mem_utf8EncodeChar {c : Char} {b : UInt8} (hb : b.toNat < 0x80)
    (h : b ∈ utf8EncodeChar c) : c.toNat = b.toNat := by
  have hc : c.val.toNat < 0x110000 := by
    rcases c.valid with h | h <;> omega
  change c.val.toNat = b.toNat
  unfold utf8EncodeChar at h
  generalize c.val.toNat = n at *
  dsimp only at h
  split at h
  · rw [List.mem_singleton.1 h, UInt8.toNat_ofNat']
    omega
  · -- every byte of a longer form is at least 128
    repeat' split at h
    all_goals
      simp only [List.mem_cons, List.not_mem_nil, or_false, ← UInt8.toNat_inj,
        UInt8.toNat_ofNat'] at h
      omega

/-- **An ASCII byte of a text is a character of it**, and the text splits there as its bytes do. -/
theorem exists_split_of_ascii {cs : List Char} {before behind : Bytes} {b : UInt8}
    (hb : b.toNat < 0x80) (h : cs.flatMap utf8EncodeChar = before ++ b :: behind) :
    ∃ ds c es, cs = ds ++ c :: es ∧ c.toNat = b.toNat ∧ ds.flatMap utf8EncodeChar = before ∧
      es.flatMap utf8EncodeChar = behind := by
  induction cs generalizing before with
  | nil => simp at h
  | cons c cs ih =>
    rw [List.flatMap_cons, List.append_eq_append_iff] at h
    rcases h with ⟨rest, hbefore, hrest⟩ | ⟨rest, hchar, hrest⟩
    · obtain ⟨ds, d, es, rfl, hd, hds, hes⟩ := ih hrest
      exact ⟨c :: ds, d, es, rfl, hd, by rw [List.flatMap_cons, hds, hbefore], hes⟩
    · cases rest with
      | nil =>
        -- the byte stands right behind the first character
        have hnext : cs.flatMap utf8EncodeChar = [] ++ b :: behind := hrest.symm
        obtain ⟨ds, d, es, rfl, hd, hds, hes⟩ := ih hnext
        refine ⟨c :: ds, d, es, rfl, hd, ?_, hes⟩
        rw [List.flatMap_cons, hds, hchar, List.append_nil, List.append_nil]
      | cons a rest =>
        obtain ⟨rfl, hbehind⟩ := List.cons.inj hrest
        have hc : c.toNat = b.toNat := toNat_of_mem_utf8EncodeChar hb (by simp [hchar])
        rw [utf8EncodeChar_ascii (by omega)] at hchar
        rcases List.append_eq_singleton_iff.1 hchar.symm with ⟨rfl, hsingle⟩ | ⟨-, hnil⟩
        · obtain rfl : rest = [] := (List.cons.inj hsingle).2
          exact ⟨[], c, cs, rfl, hc, rfl, hbehind.symm⟩
        · cases hnil

/-- A text whose first byte is ASCII starts with its character. -/
theorem exists_cons_of_ascii {cs : List Char} {behind : Bytes} {b : UInt8} (hb : b.toNat < 0x80)
    (h : cs.flatMap utf8EncodeChar = b :: behind) :
    ∃ c es, cs = c :: es ∧ c.toNat = b.toNat ∧ es.flatMap utf8EncodeChar = behind := by
  rw [← List.nil_append (b :: behind)] at h
  obtain ⟨ds, c, es, rfl, hc, hds, hes⟩ := exists_split_of_ascii hb h
  cases ds with
  | nil => exact ⟨c, es, rfl, hc, hes⟩
  | cons d ds => simp [String.utf8EncodeChar_ne_nil] at hds

end Bytes

namespace Text.Percent

open Bytes

/-! ## One byte -/

theorem toNat_ofNat {n : Nat} (h : n < 0x80) : (Char.ofNat n).toNat = n := by
  have hvalid : n.isValidChar := .inl (by omega)
  rw [Char.ofNat, dif_pos hvalid]
  rfl

theorem decodeBytes_cons_of_ne {b : UInt8} (h : b ≠ 0x25) (rest : Bytes) :
    decodeBytes (b :: rest) = b :: decodeBytes rest := by
  match rest with
  | [] => rfl
  | [_] => rfl
  | _ :: _ :: _ => rw [decodeBytes, if_neg h]

theorem upperDigit_toNat_lt : ∀ n < 16, (Hex.upperDigit n).toNat < 0x80 := by decide

theorem valueOfCode?_upperDigit : ∀ n < 16,
    Hex.valueOfCode? (UInt8.ofNat (Hex.upperDigit n).toNat).toNat = some n := by decide

/-- A triple is its mark and two digits. -/
theorem exists_triple_eq (b : UInt8) :
    ∃ x < 16, ∃ y < 16, triple b = ['%', Hex.upperDigit x, Hex.upperDigit y] := by
  have hb := b.toNat_lt
  exact ⟨b.toNat / 16, by omega, b.toNat % 16, by omega, rfl⟩

/-- **A triple is read as its byte.** -/
theorem decodeBytes_triple (b : UInt8) (rest : Bytes) :
    decodeBytes (((triple b).map fun c => UInt8.ofNat c.toNat) ++ rest) =
      b :: decodeBytes rest := by
  have hb := b.toNat_lt
  simp only [triple, List.map_cons, List.map_nil, List.cons_append, List.nil_append]
  rw [decodeBytes, if_pos (by decide), valueOfCode?_upperDigit _ (by omega),
    valueOfCode?_upperDigit _ (by omega)]
  dsimp only
  rw [show 16 * (b.toNat / 16) + b.toNat % 16 = b.toNat by omega, UInt8.ofNat_toNat]

/-! ## Texts -/

/-- **The characters of an encoded text** are verbatim bytes, marks of triples and digits. -/
theorem mem_encodeBytes {verbatim : UInt8 → Bool} {b : Bytes} {c : Char}
    (hc : c ∈ encodeBytes verbatim b) :
    (∃ x, verbatim x = true ∧ c = Char.ofNat x.toNat) ∨ c = '%' ∨
      ∃ n < 16, c = Hex.upperDigit n := by
  obtain ⟨x, -, hc⟩ := List.mem_flatMap.1 hc
  split at hc
  · rename_i hx
    exact .inl ⟨x, hx, List.mem_singleton.1 hc⟩
  · obtain ⟨h, hh, l, hl, heq⟩ := exists_triple_eq x
    simp only [heq, List.mem_cons, List.not_mem_nil, or_false] at hc
    rcases hc with rfl | rfl | rfl
    · exact .inr (.inl rfl)
    · exact .inr (.inr ⟨h, hh, rfl⟩)
    · exact .inr (.inr ⟨l, hl, rfl⟩)

/-- Whether encoded texts can be read back: the bytes that are written verbatim are ASCII, and the
mark of a triple is not among them. -/
def Readable (verbatim : UInt8 → Bool) : Prop :=
  ∀ b, verbatim b = true → b.toNat < 0x80 ∧ b ≠ 0x25

section Readable

variable {verbatim : UInt8 → Bool} (h : Readable verbatim)
include h

theorem encodeBytes_ascii (b : Bytes) : ∀ c ∈ encodeBytes verbatim b, c.toNat < 0x80 := by
  intro c hc
  rcases mem_encodeBytes hc with ⟨x, hx, rfl⟩ | rfl | ⟨n, hn, rfl⟩
  · have hascii := (h x hx).1
    rwa [toNat_ofNat hascii]
  · decide
  · exact upperDigit_toNat_lt n hn

/-- The bytes of an encoded text, in front of others, are read as what was encoded. -/
theorem decodeBytes_encodeBytes (b rest : Bytes) :
    decodeBytes (((encodeBytes verbatim b).map fun c => UInt8.ofNat c.toNat) ++ rest) =
      b ++ decodeBytes rest := by
  induction b with
  | nil => rfl
  | cons x b ih =>
    rw [encodeBytes, List.flatMap_cons, ← encodeBytes, List.map_append, List.append_assoc]
    split
    · rename_i hx
      obtain ⟨hascii, hne⟩ := h x hx
      have hbyte : UInt8.ofNat (Char.ofNat x.toNat).toNat = x := by
        rw [toNat_ofNat hascii, UInt8.ofNat_toNat]
      rw [List.map_singleton, hbyte, List.singleton_append, decodeBytes_cons_of_ne hne, ih,
        List.cons_append]
    · rw [decodeBytes_triple, ih, List.cons_append]

/-- **An encoded text is read back**, whatever stands behind it. -/
theorem decodeBytes_encode (s : String) (rest : Bytes) :
    decodeBytes (utf8 (encode verbatim s) ++ rest) = utf8 s ++ decodeBytes rest := by
  rw [encode, utf8_ascii (encodeBytes_ascii h _), decodeBytes_encodeBytes h]

theorem decodeBytes_encode_alone (s : String) :
    decodeBytes (utf8 (encode verbatim s)) = utf8 s := by
  have hread := decodeBytes_encode h s []
  rw [List.append_nil] at hread
  exact hread.trans (List.append_nil _)

/-- **Names that were encoded one by one** are read back together with the separators between
them. -/
theorem decodeBytes_joined (ns : List String) :
    decodeBytes (utf8 (joined (ns.map (encode verbatim)))) = utf8 (joined ns) := by
  induction ns with
  | nil => rfl
  | cons n rest ih =>
    by_cases hnil : rest = []
    · simpa [hnil] using decodeBytes_encode_alone h n
    · have hencoded := joined_append (List.cons_ne_nil (encode verbatim n) [])
        (mt List.map_eq_nil_iff.1 hnil : rest.map (encode verbatim) ≠ [])
      have hplain := joined_append (List.cons_ne_nil n []) hnil
      rw [joined_singleton, List.singleton_append] at hencoded hplain
      rw [List.map_cons, hencoded, hplain, String.append_assoc, String.append_assoc,
        utf8_append (encode verbatim n), utf8_append n, decodeBytes_encode h, utf8_slash_append,
        utf8_slash_append, decodeBytes_cons_of_ne (by decide), ih]

/-- **A path of encoded names is read back.** -/
theorem decode?_joined (ns : List String) :
    decode? (slash ++ joined (ns.map (encode verbatim))) = some (slash ++ joined ns) := by
  rw [decode?, utf8_slash_append, decodeBytes_cons_of_ne (by decide), decodeBytes_joined h,
    ← utf8_slash_append, ofUtf8?_utf8]

end Readable

end Text.Percent

end BucketFs
