import BucketFs.Listing.Token

/-!
# Base64 and the tokens of listings

* `Base64.decode?_encode` — what was encoded is read back.
* `Base64.decode?_eq_some_iff` — nothing else is read: a byte string has one text, and no other
  spelling (unpadded, overlong, with bits left over) is accepted for it.
* `Token.decode_encode`, `Token.tokens_bijective` — the same of the entries that continuation
  tokens carry, and how every other text is refused.
-/

namespace BucketFs.Bytes

theorem ofUtf8?_utf8 (s : String) : ofUtf8? (utf8 s) = some s := by
  have h : (⟨s.toUTF8.data.toList.toArray⟩ : ByteArray) = s.toUTF8 := by simp
  rw [ofUtf8?, utf8, h, String.fromUTF8?, String.toUTF8_eq_toByteArray, dif_pos s.isValidUTF8]
  rfl

/-- A text is the only one with its bytes. -/
theorem utf8_of_ofUtf8? {b : Bytes} {s : String} (h : ofUtf8? b = some s) : utf8 s = b := by
  unfold ofUtf8? String.fromUTF8? at h
  split at h
  · cases h
    rw [utf8, String.fromUTF8]
    rfl
  · cases h

namespace Base64

theorem value?_digit : ∀ n < 64, value? (digit n) = some n := by decide

theorem digit_ne_pad {n : Nat} (h : n < 64) : digit n ≠ '=' := by
  intro he
  have hv := value?_digit n h
  rw [he, show value? '=' = none by decide] at hv
  cases hv

/-- A character has a value only if it is the digit of that value. -/
theorem digit_of_value? {c : Char} {n : Nat} (h : value? c = some n) : n < 64 ∧ digit n = c := by
  unfold value? at h
  dsimp only at h
  split at h
  · cases h
    refine ⟨by omega, ?_⟩
    rw [digit, if_pos (by omega), show 65 + (c.toNat - 65) = c.toNat by omega, Char.ofNat_toNat]
  split at h
  · cases h
    refine ⟨by omega, ?_⟩
    rw [digit, if_neg (by omega), if_pos (by omega),
      show 71 + (c.toNat - 71) = c.toNat by omega, Char.ofNat_toNat]
  split at h
  · cases h
    refine ⟨by omega, ?_⟩
    rw [digit, if_neg (by omega), if_neg (by omega), if_pos (by omega),
      show c.toNat + 4 - 4 = c.toNat by omega, Char.ofNat_toNat]
  split at h
  · rename_i hc
    cases h
    exact ⟨by decide, hc.symm⟩
  split at h
  · rename_i hc
    cases h
    exact ⟨by decide, hc.symm⟩
  · cases h

theorem decodeChars?_encodeChars (b : Bytes) : decodeChars? (encodeChars b) = some b := by
  fun_induction encodeChars b with
  | case1 => rfl
  | case2 a n =>
    have ha := a.toNat_lt
    have hn : n = a.toNat * 16 := rfl
    simp only [decodeChars?, value?_digit (n / 64) (by omega), value?_digit (n % 64) (by omega)]
    rw [if_pos (by omega), show n / 64 * 4 + n % 64 / 16 = a.toNat by omega, UInt8.ofNat_toNat]
  | case3 a b n =>
    have ha := a.toNat_lt
    have hb := b.toNat_lt
    have hn : n = (a.toNat * 256 + b.toNat) * 4 := rfl
    -- the last digit is no padding, so the text is not read as a single byte
    have hpad : digit (n % 64) ≠ '=' := digit_ne_pad (by omega)
    rw [decodeChars?]
    · simp only [value?_digit (n / 4096) (by omega), value?_digit (n / 64 % 64) (by omega),
        value?_digit (n % 64) (by omega)]
      rw [if_pos (by omega), show n / 4096 * 4 + n / 64 % 64 / 16 = a.toNat by omega,
        show n / 64 % 64 % 16 * 16 + n % 64 / 4 = b.toNat by omega, UInt8.ofNat_toNat,
        UInt8.ofNat_toNat]
    · exact hpad
  | case4 a b c rest n ih =>
    have ha := a.toNat_lt
    have hb := b.toNat_lt
    have hc := c.toNat_lt
    have hn : n = (a.toNat * 256 + b.toNat) * 256 + c.toNat := rfl
    have hpad : digit (n % 64) ≠ '=' := digit_ne_pad (by omega)
    rw [decodeChars?]
    · simp only [value?_digit (n / 262144) (by omega), value?_digit (n / 4096 % 64) (by omega),
        value?_digit (n / 64 % 64) (by omega), value?_digit (n % 64) (by omega), ih,
        Option.map_some]
      rw [show n / 262144 * 4 + n / 4096 % 64 / 16 = a.toNat by omega,
        show n / 4096 % 64 % 16 * 16 + n / 64 % 64 / 4 = b.toNat by omega,
        show n / 64 % 64 % 4 * 64 + n % 64 = c.toNat by omega, UInt8.ofNat_toNat,
        UInt8.ofNat_toNat, UInt8.ofNat_toNat]
    · intro _ h
      exact absurd h hpad
    · intro h
      exact absurd h hpad

theorem decode?_encode (b : Bytes) : decode? (encode b) = some b := by
  rw [decode?, encode, String.toList_ofList, decodeChars?_encodeChars]

theorem toNat_ofNat_byte {n : Nat} (h : n < 256) : (UInt8.ofNat n).toNat = n := by
  rw [UInt8.toNat_ofNat']
  omega

/-- **What is read is the encoding of what it is read as.**  A group is the digits of one number to
the base 64, and its bytes are the digits of that number to the base 256; where padding leaves bits
over, the check that they are zero makes the number a multiple. -/
theorem encodeChars_of_decodeChars? {cs : List Char} {b : Bytes} (h : decodeChars? cs = some b) :
    encodeChars b = cs := by
  fun_induction decodeChars? cs generalizing b with
  | case1 =>
    cases h
    rfl
  | case2 p q x y hy hx hzero =>
    cases h
    obtain ⟨hxlt, rfl⟩ := digit_of_value? hx
    obtain ⟨hylt, rfl⟩ := digit_of_value? hy
    simp only [encodeChars]
    rw [toNat_ofNat_byte (by omega), show (x * 4 + y / 16) * 16 / 64 = x by omega,
      show (x * 4 + y / 16) * 16 % 64 = y by omega]
  | case5 p q r _ x y z hz hy hx hzero =>
    cases h
    obtain ⟨hxlt, rfl⟩ := digit_of_value? hx
    obtain ⟨hylt, rfl⟩ := digit_of_value? hy
    obtain ⟨hzlt, rfl⟩ := digit_of_value? hz
    simp only [encodeChars]
    rw [toNat_ofNat_byte (by omega), toNat_ofNat_byte (by omega)]
    generalize hn : ((x * 4 + y / 16) * 256 + (y % 16 * 16 + z / 4)) * 4 = n
    rw [show n / 4096 = x by omega, show n / 64 % 64 = y by omega, show n % 64 = z by omega]
  | case8 p q r s rest _ _ x y z w hw hz hy hx ih =>
    obtain ⟨t, ht, rfl⟩ := Option.map_eq_some_iff.1 h
    obtain ⟨hxlt, rfl⟩ := digit_of_value? hx
    obtain ⟨hylt, rfl⟩ := digit_of_value? hy
    obtain ⟨hzlt, rfl⟩ := digit_of_value? hz
    obtain ⟨hwlt, rfl⟩ := digit_of_value? hw
    simp only [encodeChars, ih ht]
    rw [toNat_ofNat_byte (by omega), toNat_ofNat_byte (by omega), toNat_ofNat_byte (by omega)]
    generalize hn :
      ((x * 4 + y / 16) * 256 + (y % 16 * 16 + z / 4)) * 256 + (z % 4 * 64 + w) = n
    rw [show n / 262144 = x by omega, show n / 4096 % 64 = y by omega,
      show n / 64 % 64 = z by omega, show n % 64 = w by omega]
  -- the other cases refuse the text
  | case3 | case4 | case6 | case7 | case9 | case10 => cases h

/-- **A byte string has one text.** -/
theorem decode?_eq_some_iff {s : String} {b : Bytes} : decode? s = some b ↔ s = encode b := by
  constructor
  · intro h
    rw [encode, encodeChars_of_decodeChars? h, String.ofList_toList]
  · rintro rfl
    exact decode?_encode b

theorem decode?_eq_none_iff {s : String} : decode? s = none ↔ ∀ b, s ≠ encode b := by
  simp only [Option.eq_none_iff_forall_ne_some, ne_eq, decode?_eq_some_iff]

example : decode? "QQ==" = some [65] ∧ decode? "QR==" = none ∧ decode? "QQ" = none := by
  decide +kernel

end Base64

end BucketFs.Bytes

namespace BucketFs.Token

open BucketFs.Bytes

/-- **A token carries its entry**, whatever text that is. -/
theorem decode_encode (marker : String) : decode (encode marker) = .ok marker := by
  simp only [decode, encode, Base64.decode?_encode, ofUtf8?_utf8]

/-- **An entry has one token.** -/
theorem decode_eq_ok_iff {token marker : String} :
    decode token = .ok marker ↔ token = encode marker := by
  constructor
  · intro h
    unfold decode at h
    split at h
    · cases h
    · rename_i b hb
      split at h
      · cases h
      · rename_i m hm
        cases h
        rw [encode, utf8_of_ofUtf8? hm]
        exact Base64.decode?_eq_some_iff.1 hb
  · rintro rfl
    exact decode_encode marker

/-- A text is malformed if it is no Base64 text at all. -/
theorem decode_malformed {token : String} (h : ∀ b, token ≠ Base64.encode b) :
    decode token = .error (.invalidArgument .malformedToken) := by
  rw [decode, Base64.decode?_eq_none_iff.2 h]

/-- A Base64 text is undecodable if its bytes write no text. -/
theorem decode_undecodable {b : Bytes} (h : ofUtf8? b = none) :
    decode (Base64.encode b) = .error (.invalidArgument .undecodableToken) := by
  simp only [decode, Base64.decode?_encode, h]

/-- **Tokens are a bijective encoding of entries.**  Every entry is read from its own token and from
no other text, and a text that is no token is refused: as malformed where it is no Base64 text, and
as undecodable where its bytes are not UTF-8. -/
theorem tokens_bijective :
    (∀ marker, decode (encode marker) = .ok marker) ∧
    (∀ token marker, decode token = .ok marker ↔ token = encode marker) ∧
    ∀ token, (∃ marker, token = encode marker) ∨
      (decode token = .error (.invalidArgument .malformedToken) ∧ ∀ b, token ≠ Base64.encode b) ∨
      (decode token = .error (.invalidArgument .undecodableToken) ∧
        ∃ b, token = Base64.encode b ∧ ofUtf8? b = none) := by
  refine ⟨decode_encode, fun token marker => decode_eq_ok_iff, fun token => ?_⟩
  by_cases hbase : ∃ b, token = Base64.encode b
  · obtain ⟨b, rfl⟩ := hbase
    cases hb : ofUtf8? b with
    | some marker =>
      exact .inl ⟨marker, by rw [encode, utf8_of_ofUtf8? hb]⟩
    | none =>
      exact .inr (.inr ⟨decode_undecodable hb, b, rfl, hb⟩)
  · have hnone : ∀ b, token ≠ Base64.encode b := fun b hb => hbase ⟨b, hb⟩
    exact .inr (.inl ⟨decode_malformed hnone, hnone⟩)

end BucketFs.Token
