import CircuitBlocks.Text.Utf8

/-!
# UTF-8 — what is written reads back

* **`Utf8.decode?_encode`** — the text of a text's bytes is that text.
-/

namespace CircuitBlocks.Text.Utf8

theorem length_encode (s : String) : (encode s).length = s.utf8ByteSize := rfl

/-- The text of a text's bytes is that text. -/
@[simp] theorem decode?_encode (s : String) : decode? (encode s) = some s := by
  have hbytes : (⟨(encode s).toArray⟩ : ByteArray) = s.toByteArray := by
    rw [encode]
  rw [decode?, hbytes, String.fromUTF8?, dif_pos s.isValidUTF8]
  rfl

/-- The bytes that a text is read from are its bytes. -/
theorem encode_of_decode? {bytes : List UInt8} {s : String} (h : decode? bytes = some s) : encode s = bytes := by
  rw [decode?, String.fromUTF8?] at h
  split at h
  · cases h
    rfl
  · cases h

/-- Texts are told apart by their bytes. -/
theorem encode_injective {s t : String} (h : encode s = encode t) : s = t := by
  have hdecode := congrArg decode? h
  rw [decode?_encode, decode?_encode] at hdecode
  exact Option.some.inj hdecode

/-- The bytes of a text are those of its characters, one after another. -/
theorem encode_eq_flatMap (s : String) : encode s = s.toList.flatMap String.utf8EncodeChar := by
  have hs : encode s = encode (String.ofList s.toList) := by rw [String.ofList_toList]
  rw [hs, encode, String.toByteArray_ofList, List.utf8Encode, List.data_toByteArray]

/-- A character of ASCII is its byte. -/
theorem utf8EncodeChar_of_lt {c : Char} (h : c.toNat < 128) : String.utf8EncodeChar c = [UInt8.ofNat c.toNat] := by
  have hv : c.val.toNat ≤ 127 := Nat.le_of_lt_succ h
  simp only [String.utf8EncodeChar, if_pos hv]
  rfl

/-- Any other character begins with a byte that is no character of ASCII. -/
theorem exists_mem_utf8EncodeChar {c : Char} (h : 128 ≤ c.toNat) : ∃ b ∈ String.utf8EncodeChar c, 128 ≤ b.toNat := by
  have hv : ¬ c.val.toNat ≤ 127 := Nat.not_le.2 h
  simp only [String.utf8EncodeChar, if_neg hv]
  split
  · refine ⟨_, List.mem_cons_self, ?_⟩
    rw [UInt8.toNat_ofNat']
    omega
  · split <;>
    · refine ⟨_, List.mem_cons_self, ?_⟩
      rw [UInt8.toNat_ofNat']
      omega

end CircuitBlocks.Text.Utf8
