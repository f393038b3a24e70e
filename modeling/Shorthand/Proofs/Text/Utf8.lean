import Shorthand.Text

/-! # Bytes of texts

A byte below 128 stands for a character by itself and is in the bytes of no other character
(`eq_of_mem_encode`). So a text can be cut at such a character before or after it is turned into bytes. -/

namespace Shorthand.Text

@[simp] theorem bytes_nil : bytes [] = [] := rfl

@[simp] theorem bytes_cons (c : Char) (text : Text) :
    bytes (c :: text) = String.utf8EncodeChar c ++ bytes text := List.flatMap_cons

theorem bytes_append (s t : Text) : bytes (s ++ t) = bytes s ++ bytes t := List.flatMap_append

/-- Bytes are read as a text exactly when they are its bytes. -/
theorem ofBytes?_eq_some_iff {bytes : List UInt8} {text : Text} :
    ofBytes? bytes = some text ↔ Text.bytes text = bytes := by
  constructor
  · intro h
    obtain ⟨chars, hchars, rfl⟩ := Option.map_eq_some_iff.1 h
    have hsome : bytes.toByteArray.utf8Decode?.isSome = true := Option.isSome_of_eq_some hchars
    have hencode := ByteArray.utf8Encode_get_utf8Decode? (h := hsome)
    rw [Option.get_of_eq_some hsome hchars] at hencode
    exact List.toByteArray_inj.1 hencode
  · rintro rfl
    exact ofBytes?_bytes text

theorem bytes_injective {s t : Text} (h : bytes s = bytes t) : s = t := by
  have hs := ofBytes?_bytes s
  rw [h, ofBytes?_bytes] at hs
  exact (Option.some.inj hs).symm

theorem encode_ascii {c : Char} (h : c.toNat < 128) :
    String.utf8EncodeChar c = [UInt8.ofNat c.toNat] := by
  have hval : c.val.toNat ≤ 127 := Nat.le_of_lt_succ h
  rw [String.utf8EncodeChar, if_pos hval]
  rfl

/-- Every byte of a character that takes more than one is at least 128. -/
theorem le_of_mem_encode {c : Char} (hc : 128 ≤ c.toNat) {b : UInt8} (hb : b ∈ String.utf8EncodeChar c) :
    128 ≤ b.toNat := by
  have hval : ¬c.val.toNat ≤ 127 := Nat.not_le.2 hc
  simp only [String.utf8EncodeChar, if_neg hval] at hb
  split at hb
  · simp only [List.mem_cons, List.not_mem_nil, or_false] at hb
    rcases hb with rfl | rfl <;> rw [UInt8.toNat_ofNat'] <;> omega
  · split at hb
    · simp only [List.mem_cons, List.not_mem_nil, or_false] at hb
      rcases hb with rfl | rfl | rfl <;> rw [UInt8.toNat_ofNat'] <;> omega
    · simp only [List.mem_cons, List.not_mem_nil, or_false] at hb
      rcases hb with rfl | rfl | rfl | rfl <;> rw [UInt8.toNat_ofNat'] <;> omega

/-- The byte of an ASCII character is in the bytes of no other character. -/
theorem eq_of_mem_encode {c d : Char} (hd : d.toNat < 128)
    (h : UInt8.ofNat d.toNat ∈ String.utf8EncodeChar c) : c = d := by
  have hbyte : (UInt8.ofNat d.toNat).toNat = d.toNat := by
    rw [UInt8.toNat_ofNat']
    omega
  by_cases hc : c.toNat < 128
  · rw [encode_ascii hc, List.mem_singleton] at h
    have hnat := congrArg UInt8.toNat h
    rw [hbyte, UInt8.toNat_ofNat', Nat.mod_eq_of_lt (by omega)] at hnat
    exact Char.toNat_inj.1 hnat.symm
  · have := le_of_mem_encode (Nat.not_lt.1 hc) h
    omega

theorem length_bytes (text : Text) : text.bytes.length = text.byteLength := by
  induction text with
  | nil => rfl
  | cons c text ih => rw [bytes_cons, List.length_append, String.length_utf8EncodeChar, ih, byteLength_cons]

theorem utf8Size_ascii {c : Char} (hc : c.toNat < 128) : c.utf8Size = 1 := by
  rw [← String.length_utf8EncodeChar, encode_ascii hc, List.length_singleton]

/-- The byte of an ASCII character stands where this character does. -/
theorem exists_of_getElem?_bytes {c : Char} (hc : c.toNat < 128) : ∀ {text : Text} {offset : Nat},
    text.bytes[offset]? = some (UInt8.ofNat c.toNat) →
      ∃ before after, text = before ++ c :: after ∧ offset = before.byteLength
  | [], _, h => nomatch h
  | d :: text, offset, h => by
    rw [bytes_cons] at h
    rcases Nat.lt_or_ge offset (String.utf8EncodeChar d).length with hlt | hge
    · rw [List.getElem?_append_left hlt] at h
      obtain rfl := eq_of_mem_encode hc (List.mem_of_getElem? h)
      rw [encode_ascii hc, List.length_singleton] at hlt
      exact ⟨[], text, rfl, Nat.lt_one_iff.1 hlt⟩
    · rw [List.getElem?_append_right hge] at h
      obtain ⟨before, after, rfl, hoffset⟩ := exists_of_getElem?_bytes hc h
      rw [String.length_utf8EncodeChar] at hge hoffset
      refine ⟨d :: before, after, rfl, ?_⟩
      rw [byteLength_cons]
      omega

end Shorthand.Text
