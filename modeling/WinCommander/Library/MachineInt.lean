import Mathlib.Algebra.Order.Group.Unbundled.Abs
import Mathlib.Algebra.Order.Ring.Int

/-!
# Fixed-width integers

The order of a fixed-width integer is the order of its value, and a difference or an absolute
value that fits is that of the integers.
-/

namespace MachineInt

variable {a b : Int64}

instance instPreorderInt64 : Preorder Int64 where
  le_refl := Int64.le_refl
  le_trans _ _ _ := Int64.le_trans
  lt_iff_le_not_ge a b := by
    rw [Int64.not_le, Int64.le_iff_toInt_le, Int64.lt_iff_toInt_lt]
    omega

instance instPreorderUInt64 : Preorder UInt64 where
  le_refl := UInt64.le_refl
  le_trans _ _ _ := UInt64.le_trans
  lt_iff_le_not_ge _ _ := by
    rw [UInt64.lt_iff_toNat_lt, UInt64.le_iff_toNat_le, UInt64.le_iff_toNat_le]
    omega

/-- A difference that fits is the integer difference. -/
theorem toInt_sub_of_le (h : b.toInt ≤ a.toInt) (hfits : a.toInt - b.toInt < 2 ^ 63) :
    (a - b).toInt = a.toInt - b.toInt := by
  rw [Int64.toInt_sub, Int.bmod_eq_of_le (by omega) (by omega)]

theorem toInt_abs_of_nonneg (h : 0 ≤ a.toInt) : a.abs.toInt = a.toInt := by
  have hbits : a.toBitVec.msb = false := by
    rw [BitVec.msb_eq_toInt]
    simpa using h
  have habs : a.abs = a := by
    apply Int64.toBitVec_inj.mp
    show a.toBitVec.abs = a.toBitVec
    rw [BitVec.abs_eq, hbits]
    rfl
  rw [habs]

/-- An absolute value fits unless it is that of the least integer. -/
theorem toInt_abs (h : a.toInt ≠ -2 ^ 63) : a.abs.toInt = |a.toInt| := by
  have hleast := a.le_toInt
  by_cases hnonneg : 0 ≤ a.toInt
  · rw [toInt_abs_of_nonneg hnonneg, abs_of_nonneg hnonneg]
  · have hbits : a.toBitVec.msb = true := by
      rw [BitVec.msb_eq_toInt]
      simpa using hnonneg
    have habs : a.abs = -a := by
      apply Int64.toBitVec_inj.mp
      show a.toBitVec.abs = -a.toBitVec
      rw [BitVec.abs_eq, if_pos hbits]
    rw [habs, Int64.toInt_neg, Int.bmod_eq_of_le (by omega) (by omega), abs_of_neg (by omega)]

/-- A difference where it is that of the integers. -/
def checkedSub (a b : Int64) : Option Int64 :=
  if -2 ^ 63 ≤ a.toInt - b.toInt ∧ a.toInt - b.toInt < 2 ^ 63 then some (a - b) else none

/-- An absolute value where it is that of the integer. -/
def checkedAbs (a : Int64) : Option Int64 := if a.toInt = -2 ^ 63 then none else some a.abs

theorem checkedSub_isSome_iff : (checkedSub a b).isSome = true ↔
    -2 ^ 63 ≤ a.toInt - b.toInt ∧ a.toInt - b.toInt < 2 ^ 63 := by
  rw [checkedSub]
  split <;> simp_all

theorem toInt_sub_of_fits (h : -2 ^ 63 ≤ a.toInt - b.toInt ∧ a.toInt - b.toInt < 2 ^ 63) :
    (a - b).toInt = a.toInt - b.toInt := by
  rw [Int64.toInt_sub, Int.bmod_eq_of_le (by omega) (by omega)]

/-- A distance is computed without overflow where it is less than that of the least integer. -/
theorem checkedDistance_isSome_iff : ((checkedSub a b).bind checkedAbs).isSome = true ↔
    |a.toInt - b.toInt| < 2 ^ 63 := by
  rw [abs_lt]
  by_cases hfits : -2 ^ 63 ≤ a.toInt - b.toInt ∧ a.toInt - b.toInt < 2 ^ 63
  · rw [checkedSub, if_pos hfits, Option.bind_some, checkedAbs, toInt_sub_of_fits hfits]
    split
    · simp only [Option.isSome_none, Bool.false_eq_true, false_iff]
      omega
    · simp only [Option.isSome_some, true_iff]
      omega
  · rw [checkedSub, if_neg hfits]
    simp only [Option.bind_none, Option.isSome_none, Bool.false_eq_true, false_iff]
    omega

theorem toInt_distance (h : |a.toInt - b.toInt| < 2 ^ 63) :
    (a - b).abs.toInt = |a.toInt - b.toInt| := by
  have hbounds := abs_lt.mp h
  have hsub : (a - b).toInt = a.toInt - b.toInt := toInt_sub_of_fits (by omega)
  rw [toInt_abs (by omega), hsub]

end MachineInt
