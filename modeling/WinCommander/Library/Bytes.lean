import Mathlib.Data.String.Basic
import Mathlib.Data.Nat.ModEq
import Mathlib.Tactic.NormNum
import Mathlib.Tactic.Ring

/-!
# Byte strings

Big-endian numbers of a fixed width, the UTF-8 bytes of a text, and what is found between two
offsets of an appended list.
-/

namespace Bytes

/-- The low `width` bytes of a number, the most significant one first. -/
def toBe : ℕ → ℕ → List UInt8
  | 0, _ => []
  | width + 1, n => UInt8.ofNat (n / 256 ^ width) :: toBe width n

/-- The number that a byte string writes, the most significant byte first. -/
def ofBe : List UInt8 → ℕ
  | [] => 0
  | b :: bytes => b.toNat * 256 ^ bytes.length + ofBe bytes

@[simp] theorem length_toBe (width n : ℕ) : (toBe width n).length = width := by
  induction width with
  | zero => rfl
  | succ width ih => rw [toBe, List.length_cons, ih]

theorem ofBe_lt (bytes : List UInt8) : ofBe bytes < 256 ^ bytes.length := by
  induction bytes with
  | nil => simp [ofBe]
  | cons b bytes ih =>
    have hb : b.toNat + 1 ≤ 256 := b.toNat_lt
    have hmul := Nat.mul_le_mul_right (256 ^ bytes.length) hb
    rw [ofBe, List.length_cons, pow_succ]
    rw [Nat.add_mul] at hmul
    omega

theorem ofBe_toBe (width n : ℕ) : ofBe (toBe width n) = n % 256 ^ width := by
  induction width with
  | zero => simp [toBe, ofBe, Nat.mod_one]
  | succ width ih =>
    rw [toBe, ofBe, ih, length_toBe, UInt8.toNat_ofNat', Nat.add_comm, Nat.mul_comm]
    exact Nat.mod_pow_succ.symm

theorem ofBe_toBe_of_lt {width n : ℕ} (h : n < 256 ^ width) : ofBe (toBe width n) = n := by
  rw [ofBe_toBe, Nat.mod_eq_of_lt h]

private theorem toBe_add_mul (width n k : ℕ) : toBe width (k * 256 ^ width + n) = toBe width n := by
  induction width generalizing k with
  | zero => rfl
  | succ width ih =>
    have hsplit : k * 256 ^ (width + 1) + n = k * 256 * 256 ^ width + n := by ring
    have hdigit : (k * 256 * 256 ^ width + n) / 256 ^ width = n / 256 ^ width + 256 * k := by
      rw [Nat.add_comm, Nat.add_mul_div_right _ _ (by positivity)]
      ring
    have hbyte : UInt8.ofNat (n / 256 ^ width + 256 * k) = UInt8.ofNat (n / 256 ^ width) := by
      apply UInt8.toNat_inj.mp
      rw [UInt8.toNat_ofNat', UInt8.toNat_ofNat', Nat.add_mul_mod_self_left]
    rw [hsplit, toBe, toBe, hdigit, ih, hbyte]

/-- A byte string is the big-endian form of its number. -/
theorem toBe_ofBe (bytes : List UInt8) : toBe bytes.length (ofBe bytes) = bytes := by
  induction bytes with
  | nil => rfl
  | cons b bytes ih =>
    have hlt := ofBe_lt bytes
    have hdigit : (b.toNat * 256 ^ bytes.length + ofBe bytes) / 256 ^ bytes.length = b.toNat := by
      rw [Nat.add_comm, Nat.add_mul_div_right _ _ (by positivity), Nat.div_eq_of_lt hlt, Nat.zero_add]
    rw [List.length_cons, toBe, ofBe, hdigit, toBe_add_mul, ih, UInt8.ofNat_toNat]

/-- The UTF-8 bytes of a text. -/
def ofString (s : String) : List UInt8 := s.toByteArray.data.toList

/-- The text that the bytes write, if they are well formed. -/
def toString (bytes : List UInt8) : Option String := String.fromUTF8? ⟨bytes.toArray⟩

theorem toString_ofString (s : String) : toString (ofString s) = some s := by
  have hbytes : (⟨(ofString s).toArray⟩ : ByteArray) = s.toByteArray := rfl
  unfold toString String.fromUTF8?
  rw [hbytes, dif_pos s.isValidUTF8]
  rfl

theorem ofString_of_toString {bytes : List UInt8} {s : String} (h : toString bytes = some s) :
    ofString s = bytes := by
  unfold toString String.fromUTF8? at h
  split at h
  · rw [← Option.some.inj h]
    rfl
  · exact absurd h (by simp)

section Between

variable {α : Type*}

/-- The part between two offsets. -/
def between (xs : List α) (start stop : ℕ) : List α := (xs.drop start).take (stop - start)

theorem length_between {xs : List α} {start stop : ℕ} (hstart : start ≤ stop)
    (hstop : stop ≤ xs.length) : (between xs start stop).length = stop - start := by
  rw [between, List.length_take, List.length_drop]
  omega

theorem drop_eq_between_append {xs : List α} {start stop : ℕ} (hstart : start ≤ stop) :
    xs.drop start = between xs start stop ++ xs.drop stop := by
  have hdrop : xs.drop stop = (xs.drop start).drop (stop - start) := by
    rw [List.drop_drop, Nat.add_sub_cancel' hstart]
  rw [hdrop, between, List.take_append_drop]

theorem between_append (pre part rest : List α) :
    between (pre ++ (part ++ rest)) pre.length (pre.length + part.length) = part := by
  rw [between, List.drop_left, Nat.add_sub_cancel_left, List.take_left]

end Between

end Bytes
