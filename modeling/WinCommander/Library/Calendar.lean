import Mathlib.Algebra.BigOperators.Group.Finset.Basic
import Mathlib.Algebra.BigOperators.Intervals
import Mathlib.Algebra.Order.BigOperators.Group.Finset
import Mathlib.Tactic.IntervalCases

/-!
# The proleptic Gregorian calendar

Days are counted from the first of January of the year zero, by adding up the lengths of the years and
months that have passed.
-/

namespace Calendar

open Finset

def IsLeap (y : ℕ) : Prop := y % 4 = 0 ∧ (y % 100 ≠ 0 ∨ y % 400 = 0)

instance (y : ℕ) : Decidable (IsLeap y) := inferInstanceAs (Decidable (_ ∧ _))

def yearLength (y : ℕ) : ℕ := if IsLeap y then 366 else 365

/-- Months are numbered from one. -/
def monthLength (y m : ℕ) : ℕ :=
  if m = 2 then if IsLeap y then 29 else 28
  else if m = 4 ∨ m = 6 ∨ m = 9 ∨ m = 11 then 30
  else 31

def daysBeforeYear (y : ℕ) : ℕ := ∑ k ∈ range y, yearLength k

def daysBeforeMonth (y m : ℕ) : ℕ := ∑ k ∈ range (m - 1), monthLength y (k + 1)

def dayNumber (y m d : ℕ) : ℕ := daysBeforeYear y + daysBeforeMonth y m + (d - 1)

/-- A year, a month and a day of the calendar. -/
def Possible (y m d : ℕ) : Prop := 1 ≤ m ∧ m ≤ 12 ∧ 1 ≤ d ∧ d ≤ monthLength y m

instance (y m d : ℕ) : Decidable (Possible y m d) := inferInstanceAs (Decidable (_ ∧ _))

/-- The number of the first of January 1970. -/
def unixEpoch : ℕ := 719528

/-- A quotient that is rounded up grows where the number before is a multiple. -/
theorem ceil_succ (y c : ℕ) :
    (y + 1 + c) / (c + 1) = (y + c) / (c + 1) + if y % (c + 1) = 0 then 1 else 0 := by
  have hmultiple : c + 1 ∣ y + c + 1 ↔ y % (c + 1) = 0 := by
    rw [← Nat.dvd_iff_mod_eq_zero, Nat.add_assoc]
    exact (Nat.dvd_add_iff_left (Nat.dvd_refl _)).symm
  rw [show y + 1 + c = y + c + 1 by omega, Nat.succ_div]
  simp only [hmultiple]

theorem yearLength_add (y : ℕ) : yearLength y + (if y % 100 = 0 then 1 else 0) =
    365 + (if y % 4 = 0 then 1 else 0) + if y % 400 = 0 then 1 else 0 := by
  have hcentury : y % 100 = 0 → y % 4 = 0 := by omega
  have hera : y % 400 = 0 → y % 100 = 0 := by omega
  by_cases h4 : y % 4 = 0 <;> by_cases h100 : y % 100 = 0 <;> by_cases h400 : y % 400 = 0 <;>
    simp_all [yearLength, IsLeap]

theorem daysBeforeYear_add (y : ℕ) :
    daysBeforeYear y + (y + 99) / 100 = 365 * y + (y + 3) / 4 + (y + 399) / 400 := by
  induction y with
  | zero => rfl
  | succ y ih =>
    have hsucc : daysBeforeYear (y + 1) = daysBeforeYear y + yearLength y := sum_range_succ ..
    have hlength := yearLength_add y
    have hcentury : (y + 1 + 99) / 100 = (y + 99) / 100 + if y % 100 = 0 then 1 else 0 := ceil_succ y 99
    have hfour : (y + 1 + 3) / 4 = (y + 3) / 4 + if y % 4 = 0 then 1 else 0 := ceil_succ y 3
    have hera : (y + 1 + 399) / 400 = (y + 399) / 400 + if y % 400 = 0 then 1 else 0 := ceil_succ y 399
    rw [hsucc, hcentury, hfour, hera]
    generalize (y + 99) / 100 = centuries at *
    generalize (y + 3) / 4 = fours at *
    generalize (y + 399) / 400 = eras at *
    omega

/-- The days before a month, counted in a year that begins in March. -/
theorem daysBeforeMonth_add {y m : ℕ} (hlow : 1 ≤ m) (hhigh : m ≤ 12) :
    daysBeforeMonth y m + (if m ≤ 2 then 306 else 0) =
      (153 * ((m + 9) % 12) + 2) / 5 + if m ≤ 2 then 0 else 59 + if IsLeap y then 1 else 0 := by
  by_cases hleap : IsLeap y
  · interval_cases m <;> simp [daysBeforeMonth, sum_range_succ, monthLength, hleap]
  · interval_cases m <;> simp [daysBeforeMonth, sum_range_succ, monthLength, hleap]

theorem le_dayNumber (y m d : ℕ) : y ≤ dayNumber y m d := by
  have hyear : y ≤ daysBeforeYear y := by
    have hsum : ∑ _k ∈ range y, 1 ≤ daysBeforeYear y := by
      apply Finset.sum_le_sum
      intro k _
      rw [yearLength]
      split <;> omega
    simpa using hsum
  rw [dayNumber]
  omega

end Calendar
