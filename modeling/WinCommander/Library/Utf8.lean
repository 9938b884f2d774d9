import WinCommander.Library.Bytes

/-!
# The UTF-8 bytes of a text

A character below 128 is one byte, of its own value, and every byte of any other character is from
128 on.
-/

namespace Utf8

theorem ofString_eq (s : String) :
    Bytes.ofString s = s.toList.flatMap String.utf8EncodeChar := by
  have h : s.toByteArray = s.toList.utf8Encode := String.utf8Encode_toList.symm
  rw [Bytes.ofString, h, List.utf8Encode]
  simp

theorem encodeChar_of_ascii {c : Char} (h : c.toNat < 128) :
    String.utf8EncodeChar c = [UInt8.ofNat c.toNat] := by
  have hle : c.val.toNat ≤ 127 := Nat.le_of_lt_succ h
  simp only [String.utf8EncodeChar]
  rw [if_pos hle]
  rfl

theorem le_of_mem_encodeChar {c : Char} (h : ¬ c.toNat < 128) {b : UInt8}
    (hb : b ∈ String.utf8EncodeChar c) : 128 ≤ b.toNat := by
  have hge : ¬ c.val.toNat ≤ 127 := fun hle => h (Nat.lt_succ_of_le hle)
  simp only [String.utf8EncodeChar] at hb
  rw [if_neg hge] at hb
  split at hb
  · simp only [List.mem_cons, List.not_mem_nil, or_false] at hb
    rcases hb with rfl | rfl <;> rw [UInt8.toNat_ofNat'] <;> omega
  · split at hb
    · simp only [List.mem_cons, List.not_mem_nil, or_false] at hb
      rcases hb with rfl | rfl | rfl <;> rw [UInt8.toNat_ofNat'] <;> omega
    · simp only [List.mem_cons, List.not_mem_nil, or_false] at hb
      rcases hb with rfl | rfl | rfl | rfl <;> rw [UInt8.toNat_ofNat'] <;> omega

theorem encodeChar_ne_nil (c : Char) : String.utf8EncodeChar c ≠ [] := by
  simp only [String.utf8EncodeChar]
  split <;> [skip; split <;> [skip; split]] <;> simp

theorem length_le_ofString (s : String) : s.length ≤ (Bytes.ofString s).length := by
  rw [ofString_eq, ← String.length_toList]
  induction s.toList with
  | nil => simp
  | cons c cs ih =>
    have hc := List.length_pos_iff.mpr (encodeChar_ne_nil c)
    rw [List.flatMap_cons, List.length_append, List.length_cons]
    omega

/-- The bytes of an ASCII text are its characters. -/
theorem ofString_of_ascii {s : String} (h : ∀ c ∈ s.toList, c.toNat < 128) :
    Bytes.ofString s = s.toList.map fun c => UInt8.ofNat c.toNat := by
  rw [ofString_eq, List.flatMap_def, List.map_congr_left fun c hc => encodeChar_of_ascii (h c hc)]
  induction s.toList with
  | nil => rfl
  | cons c cs ih => simp [ih]

theorem ofString_injective : Function.Injective Bytes.ofString := by
  intro s t h
  have hread := Bytes.toString_ofString s
  rw [h, Bytes.toString_ofString] at hread
  exact (Option.some.inj hread).symm

end Utf8
