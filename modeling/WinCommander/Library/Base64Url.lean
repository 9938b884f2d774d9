import Mathlib.Data.List.Basic
import Mathlib.Tactic.DeriveFintype

/-!
# Base64url without padding

Three bytes are four digits; one or two bytes that are left over are two or three digits, whose
unused bits are zero.
-/

namespace Base64Url

/-- The digits, in order of their value. -/
def alphabet : List Char := "ABCDEFGHIJKLMNOPQRSTUVWXYZabcdefghijklmnopqrstuvwxyz0123456789-_".toList

def digit (n : ℕ) : Char := alphabet.getD n 'A'

def value (c : Char) : Option ℕ := alphabet.idxOf? c

private theorem digit_checked :
    ∀ n : Fin 64, value (digit n.val) = some n.val ∧ digit n.val ≠ '.' := by decide +kernel

theorem value_digit {n : ℕ} (h : n < 64) : value (digit n) = some n := (digit_checked ⟨n, h⟩).1

theorem digit_ne_dot {n : ℕ} (h : n < 64) : digit n ≠ '.' := (digit_checked ⟨n, h⟩).2

@[grind =] def encode : List UInt8 → List Char
  | a :: b :: c :: bytes =>
    let n := a.toNat * 65536 + b.toNat * 256 + c.toNat
    digit (n / 262144) :: digit (n / 4096 % 64) :: digit (n / 64 % 64) :: digit (n % 64) ::
      encode bytes
  | [a, b] =>
    let n := (a.toNat * 256 + b.toNat) * 4
    [digit (n / 4096), digit (n / 64 % 64), digit (n % 64)]
  | [a] =>
    let n := a.toNat * 16
    [digit (n / 64), digit (n % 64)]
  | [] => []

@[grind =] def decode : List Char → Option (List UInt8)
  | w :: x :: y :: z :: text => do
    let n := (← value w) * 262144 + (← value x) * 4096 + (← value y) * 64 + (← value z)
    let bytes ← decode text
    some (UInt8.ofNat (n / 65536) :: UInt8.ofNat (n / 256) :: UInt8.ofNat n :: bytes)
  | [w, x, y] => do
    let n := (← value w) * 4096 + (← value x) * 64 + (← value y)
    if n % 4 = 0 then some [UInt8.ofNat (n / 1024), UInt8.ofNat (n / 4)] else none
  | [w, x] => do
    let n := (← value w) * 64 + (← value x)
    if n % 16 = 0 then some [UInt8.ofNat (n / 16)] else none
  | [_] => none
  | [] => some []

private theorem byte_eq {a : UInt8} {n : ℕ} (h : n % 256 = a.toNat) : UInt8.ofNat n = a := by
  apply UInt8.toNat_inj.mp
  rw [UInt8.toNat_ofNat', h]

/-- What was encoded is decoded. -/
theorem decode_encode (bytes : List UInt8) : decode (encode bytes) = some bytes := by
  fun_induction encode bytes with
  | case1 a b c bytes n ih =>
    have ha := a.toNat_lt
    have hb := b.toNat_lt
    have hc := c.toNat_lt
    rw [decode, value_digit (by omega), value_digit (by omega), value_digit (by omega),
      value_digit (by omega), ih]
    simp only [Option.bind_eq_bind, Option.bind_some, Option.some.injEq, List.cons.injEq, and_true]
    exact ⟨byte_eq (by omega), byte_eq (by omega), byte_eq (by omega)⟩
  | case2 a b n =>
    have ha := a.toNat_lt
    have hb := b.toNat_lt
    rw [decode, value_digit (by omega), value_digit (by omega), value_digit (by omega)]
    simp only [Option.bind_eq_bind, Option.bind_some]
    rw [if_pos (by omega)]
    simp only [Option.some.injEq, List.cons.injEq, and_true]
    exact ⟨byte_eq (by omega), byte_eq (by omega)⟩
  | case3 a n =>
    have ha := a.toNat_lt
    rw [decode, value_digit (by omega), value_digit (by omega)]
    simp only [Option.bind_eq_bind, Option.bind_some]
    rw [if_pos (by omega)]
    simp only [Option.some.injEq, List.cons.injEq, and_true]
    exact byte_eq (by omega)
  | case4 => rfl

/-- What is encoded is made of digits. -/
theorem mem_encode {bytes : List UInt8} {c : Char} (h : c ∈ encode bytes) :
    ∃ n, n < 64 ∧ c = digit n := by
  fun_induction encode bytes with
  | case1 a b d bytes n ih =>
    have ha := a.toNat_lt
    have hb := b.toNat_lt
    have hd := d.toNat_lt
    simp only [List.mem_cons] at h
    rcases h with rfl | rfl | rfl | rfl | h
    · exact ⟨_, by omega, rfl⟩
    · exact ⟨_, by omega, rfl⟩
    · exact ⟨_, by omega, rfl⟩
    · exact ⟨_, by omega, rfl⟩
    · exact ih h
  | case2 a b n =>
    have ha := a.toNat_lt
    have hb := b.toNat_lt
    simp only [List.mem_cons, List.not_mem_nil, or_false] at h
    rcases h with rfl | rfl | rfl
    · exact ⟨_, by omega, rfl⟩
    · exact ⟨_, by omega, rfl⟩
    · exact ⟨_, by omega, rfl⟩
  | case3 a n =>
    have ha := a.toNat_lt
    simp only [List.mem_cons, List.not_mem_nil, or_false] at h
    rcases h with rfl | rfl
    · exact ⟨_, by omega, rfl⟩
    · exact ⟨_, by omega, rfl⟩
  | case4 => exact absurd h List.not_mem_nil

theorem dot_notMem_encode (bytes : List UInt8) : '.' ∉ encode bytes := by
  intro h
  obtain ⟨n, hn, heq⟩ := mem_encode h
  exact digit_ne_dot hn heq.symm

private theorem digit_utf8Size_checked : ∀ n : Fin 64, (digit n.val).utf8Size = 1 := by
  decide +kernel

theorem digit_utf8Size {n : ℕ} (h : n < 64) : (digit n).utf8Size = 1 :=
  digit_utf8Size_checked ⟨n, h⟩

/-- Digits are one byte each. -/
theorem utf8Size_of_mem_encode (bytes : List UInt8) : ∀ c ∈ encode bytes, c.utf8Size = 1 := by
  intro c h
  obtain ⟨n, hn, rfl⟩ := mem_encode h
  exact digit_utf8Size hn

/-- Four digits for each three bytes, rounded up. -/
theorem length_encode (bytes : List UInt8) : 3 * (encode bytes).length ≤ 4 * bytes.length + 2 := by
  fun_induction encode bytes with
  | case1 a b c bytes n ih =>
    simp only [List.length_cons]
    omega
  | case2 a b n => simp
  | case3 a n => simp
  | case4 => simp

theorem encode_ne_nil {bytes : List UInt8} (h : bytes ≠ []) : encode bytes ≠ [] := by
  intro hnil
  have hback := decode_encode bytes
  rw [hnil] at hback
  exact h (Option.some.inj hback).symm

end Base64Url
