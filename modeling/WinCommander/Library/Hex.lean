import Mathlib.Data.List.Basic
import Mathlib.Data.List.FinRange

/-!
# Hexadecimal text

Two lower-case digits for each byte; both cases are read.
-/

namespace Hex

def digit (n : ℕ) : Char := "0123456789abcdef".toList.getD n '0'

def value (c : Char) : Option ℕ :=
  if '0' ≤ c ∧ c ≤ '9' then some (c.toNat - 48)
  else if 'a' ≤ c ∧ c ≤ 'f' then some (c.toNat - 87)
  else if 'A' ≤ c ∧ c ≤ 'F' then some (c.toNat - 55)
  else none

def encode (bytes : List UInt8) : List Char :=
  bytes.flatMap fun b => [digit (b.toNat / 16), digit (b.toNat % 16)]

def decode : List Char → Option (List UInt8)
  | [] => some []
  | [_] => none
  | high :: low :: rest => do
    let h ← value high
    let l ← value low
    let bytes ← decode rest
    some (UInt8.ofNat (16 * h + l) :: bytes)

private theorem digit_checked : ∀ n : Fin 16,
    value (digit n) = some n.val ∧ (digit n).toLower = digit n := by decide

theorem value_digit {n : ℕ} (h : n < 16) : value (digit n) = some n := (digit_checked ⟨n, h⟩).1

theorem toLower_digit {n : ℕ} (h : n < 16) : (digit n).toLower = digit n := (digit_checked ⟨n, h⟩).2

theorem encode_cons (b : UInt8) (bytes : List UInt8) :
    encode (b :: bytes) = digit (b.toNat / 16) :: digit (b.toNat % 16) :: encode bytes := rfl

theorem digits_lt (b : UInt8) : b.toNat / 16 < 16 ∧ b.toNat % 16 < 16 := by
  have hb : b.toNat < 256 := b.toNat_lt
  omega

theorem decode_encode (bytes : List UInt8) : decode (encode bytes) = some bytes := by
  induction bytes with
  | nil => rfl
  | cons b bytes ih =>
    obtain ⟨hhigh, hlow⟩ := digits_lt b
    have hbyte : UInt8.ofNat (16 * (b.toNat / 16) + b.toNat % 16) = b := by
      rw [Nat.div_add_mod, UInt8.ofNat_toNat]
    rw [encode_cons, decode, value_digit hhigh, value_digit hlow, ih]
    simp only [Option.bind_eq_bind, Option.bind_some, hbyte]

theorem encode_injective {bytes bytes' : List UInt8} (h : encode bytes = encode bytes') :
    bytes = bytes' := by
  have hdecode := congrArg decode h
  rw [decode_encode, decode_encode] at hdecode
  exact Option.some.inj hdecode

/-- What is written has no letters in upper case. -/
theorem toLower_of_mem_encode {bytes : List UInt8} {c : Char} (h : c ∈ encode bytes) :
    c.toLower = c := by
  induction bytes with
  | nil => simp [encode] at h
  | cons b bytes ih =>
    obtain ⟨hhigh, hlow⟩ := digits_lt b
    rw [encode_cons, List.mem_cons, List.mem_cons] at h
    rcases h with rfl | rfl | h
    · exact toLower_digit hhigh
    · exact toLower_digit hlow
    · exact ih h

theorem map_toLower_encode (bytes : List UInt8) :
    (encode bytes).map Char.toLower = encode bytes := by
  conv_rhs => rw [← List.map_id (encode bytes)]
  exact List.map_congr_left fun c hc => toLower_of_mem_encode hc

end Hex
