import BucketFs.Proofs.Text.Cut
import BucketFs.Proofs.Text.Triples
import BucketFs.Remote.Request

/-!
# The header that names a copied object

* `cut?_sourceText`, `readable_isSourceVerbatim` — the bucket stands in front of the first
  separator, and the key is read back from what stands behind it.
* `isSourceChar_of_mem` — the characters in which a key is written.
* `sourceText_names_object` — the header names one object.
-/

namespace BucketFs.Remote

open BucketFs.Text BucketFs.Bytes

/-- A property of all bytes, checked value by value. -/
theorem forall_byte {P : UInt8 → Prop} (h : ∀ n < 256, P (UInt8.ofNat n)) (b : UInt8) : P b := by
  have hb := h b.toNat b.toNat_lt
  rwa [UInt8.ofNat_toNat] at hb

/-- Verbatim bytes are ASCII, and the mark of a triple is not among them. -/
theorem readable_isSourceVerbatim : Percent.Readable isSourceVerbatim :=
  forall_byte (by decide +kernel)

/-- Whether a character may stand in the key of a source: letters and digits of ASCII, and six
others. -/
def isSourceChar (c : Char) : Bool := c.isAlphanum || c ∈ ['/', '-', '_', '.', '~', '%']

theorem isSourceChar_of_verbatim (b : UInt8) :
    isSourceVerbatim b = true → isSourceChar (Char.ofNat b.toNat) = true :=
  forall_byte (P := fun b => isSourceVerbatim b = true → isSourceChar (Char.ofNat b.toNat) = true)
    (by decide +kernel) b

theorem isSourceChar_upperDigit : ∀ n < 16, isSourceChar (Hex.upperDigit n) = true := by decide

theorem isSourceChar_of_mem {key : String} {c : Char}
    (hc : c ∈ (Percent.encode isSourceVerbatim key).toList) : isSourceChar c = true := by
  rw [Percent.encode, String.toList_ofList] at hc
  rcases Percent.mem_encodeBytes hc with ⟨x, hx, rfl⟩ | rfl | ⟨n, hn, rfl⟩
  · exact isSourceChar_of_verbatim x hx
  · decide
  · exact isSourceChar_upperDigit n hn

/-- What stands in front of the first separator is the bucket. -/
theorem cut?_sourceText {bucket : String} (h : separator ∉ bucket.toList) (key : String) :
    cut? separator (sourceText bucket key) =
      some (bucket, Percent.encode isSourceVerbatim key) := by
  rw [cut?_eq_some_iff]
  refine ⟨h, ?_⟩
  simp [sourceText, slash, separator]

/-- **Two objects have two headers.** -/
theorem sourceText_inj {bucket bucket' : String} (h : separator ∉ bucket.toList)
    (h' : separator ∉ bucket'.toList) {key key' : String}
    (heq : sourceText bucket' key' = sourceText bucket key) : bucket' = bucket ∧ key' = key := by
  have hcut := cut?_sourceText h' key'
  rw [heq, cut?_sourceText h key] at hcut
  obtain ⟨rfl, hkey⟩ := Prod.mk.inj (Option.some.inj hcut)
  refine ⟨rfl, ?_⟩
  have hbytes : utf8 key' = utf8 key := by
    rw [← Percent.decodeBytes_encode_alone readable_isSourceVerbatim key', ← hkey,
      Percent.decodeBytes_encode_alone readable_isSourceVerbatim key]
  have hread := ofUtf8?_utf8 key'
  rw [hbytes, ofUtf8?_utf8] at hread
  exact (Option.some.inj hread).symm

/-- **The header of a copy names exactly one object.**  Cut at its first separator, it is the bucket
and a text that is read back as the key.  That text has safe characters alone, each mark of it
starts a triple with capital digits, and no other object has the same header. -/
theorem sourceText_names_object {bucket : String} (hbucket : separator ∉ bucket.toList)
    (key : String) :
    ∃ rest, cut? separator (sourceText bucket key) = some (bucket, rest) ∧
      Percent.decodeBytes (utf8 rest) = utf8 key ∧
      (∀ c ∈ rest.toList, c.isAlphanum = true ∨ c ∈ ['/', '-', '_', '.', '~', '%']) ∧
      (∀ before behind, rest.toList = before ++ '%' :: behind →
        ∃ h l others, behind = h :: l :: others ∧
          Percent.isCapitalDigit h = true ∧ Percent.isCapitalDigit l = true) ∧
      ∀ bucket' key', separator ∉ bucket'.toList →
        sourceText bucket' key' = sourceText bucket key → bucket' = bucket ∧ key' = key := by
  refine ⟨Percent.encode isSourceVerbatim key, cut?_sourceText hbucket key,
    Percent.decodeBytes_encode_alone readable_isSourceVerbatim key, fun c hc => ?_,
    fun before behind heq => ?_, fun bucket' key' hbucket' heq =>
      sourceText_inj hbucket hbucket' heq⟩
  · have hchar := isSourceChar_of_mem hc
    rwa [isSourceChar, Bool.or_eq_true, decide_eq_true_eq] at hchar
  · rw [Percent.encode, String.toList_ofList] at heq
    exact Percent.exists_digits_of_encodeBytes readable_isSourceVerbatim heq

/-- A key with a separator, a space, signs that other readers give a meaning, the mark of a triple
with digits behind it, and a character of two bytes. -/
theorem sourceText_names_object_marked :
    let key := "d/a b+c?%2Fé"
    let rest := "d/a%20b%2Bc%3F%252F%C3%A9"
    separator ∉ "b".toList ∧ sourceText "b" key = "b/" ++ rest ∧
      cut? separator (sourceText "b" key) = some ("b", rest) ∧
      Percent.decodeBytes (utf8 rest) = utf8 key ∧
      ∀ bucket' key', separator ∉ bucket'.toList →
        sourceText bucket' key' = "b/" ++ rest → bucket' = "b" ∧ key' = key := by
  intro key rest
  have hbucket : separator ∉ "b".toList := by decide
  have htext : sourceText "b" key = "b/" ++ rest := by decide +kernel
  obtain ⟨rest', hcut, hbytes, -, -, hinj⟩ := sourceText_names_object hbucket key
  obtain rfl : rest' = rest := by
    rw [htext, show cut? separator ("b/" ++ rest) = some ("b", rest) by decide +kernel] at hcut
    exact (Prod.mk.inj (Option.some.inj hcut)).2.symm
  exact ⟨hbucket, htext, hcut, hbytes,
    fun bucket' key' h heq => hinj bucket' key' h (heq.trans htext.symm)⟩

end BucketFs.Remote
