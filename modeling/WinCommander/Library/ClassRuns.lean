import Mathlib.Order.Basic
import Mathlib.Data.Nat.Init

/-!
# Runs of one class

Places on a line have classes, or none.  A run is a stretch of places of one class that cannot be made
longer.
-/

namespace ClassRuns

variable {κ : Type*} {classOf : ℕ → Option κ}

/-- The places from `i` on and before `j` are a run. -/
def IsRun (classOf : ℕ → Option κ) (i j : ℕ) : Prop :=
  i < j ∧ ∃ k, (∀ m, i ≤ m → m < j → classOf m = some k) ∧
    (∀ m, m + 1 = i → classOf m ≠ some k) ∧ classOf j ≠ some k

/-- No run goes on over the start of a place. -/
def Boundary (classOf : ℕ → Option κ) (a : ℕ) : Prop :=
  ∀ m, m + 1 = a → classOf m = none ∨ classOf m ≠ classOf a

theorem boundary_zero : Boundary classOf 0 := fun m hm => absurd hm (Nat.succ_ne_zero m)

theorem boundary_succ {a : ℕ} (h : classOf a = none) : Boundary classOf (a + 1) := by
  intro m hm
  have heq : m = a := by omega
  exact .inl (heq ▸ h)

theorem IsRun.boundary {a b : ℕ} (h : IsRun classOf a b) : Boundary classOf b := by
  obtain ⟨hlt, k, hall, -, hend⟩ := h
  intro m hm
  have hlast : classOf m = some k := hall m (by omega) (by omega)
  exact .inr fun heq => hend (heq ▸ hlast)

theorem isRun_of_boundary {a b : ℕ} {k : κ} (hlt : a < b) (hstart : Boundary classOf a)
    (hall : ∀ m, a ≤ m → m < b → classOf m = some k) (hend : classOf b ≠ some k) :
    IsRun classOf a b := by
  refine ⟨hlt, k, hall, ?_, hend⟩
  intro m hm hsame
  have hfirst : classOf a = some k := hall a (Nat.le_refl a) hlt
  rcases hstart m hm with hnone | hne
  · exact absurd (hsame.symm.trans hnone) (by simp)
  · exact hne (hsame.trans hfirst.symm)

/-- A run does not start at a place without a class. -/
theorem IsRun.start_ne {i j a : ℕ} (h : IsRun classOf i j) (hnone : classOf a = none) : i ≠ a := by
  obtain ⟨hlt, k, hall, -, -⟩ := h
  rintro rfl
  exact absurd ((hall i (Nat.le_refl i) hlt).symm.trans hnone) (by simp)

/-- Of two runs one is the other or comes after it. -/
theorem IsRun.eq_or_after {a b i j : ℕ} (h : IsRun classOf a b) (h' : IsRun classOf i j)
    (hle : a ≤ i) : (i = a ∧ j = b) ∨ b ≤ i := by
  obtain ⟨hlt, k, hall, hstart, hend⟩ := h
  obtain ⟨hlt', k', hall', hstart', hend'⟩ := h'
  by_cases hafter : b ≤ i
  · exact .inr hafter
  · have hinside : classOf i = some k := hall i hle (by omega)
    obtain rfl : k = k' := Option.some.inj (hinside.symm.trans (hall' i (Nat.le_refl i) hlt'))
    have hfirst : i = a := by
      by_contra hne
      obtain ⟨m, rfl⟩ : ∃ m, i = m + 1 := ⟨i - 1, by omega⟩
      exact hstart' m rfl (hall m (by omega) (by omega))
    refine .inl ⟨hfirst, ?_⟩
    rcases Nat.lt_trichotomy j b with hshort | hsame | hlong
    · exact absurd (hall j (by omega) hshort) hend'
    · exact hsame
    · exact absurd (hall' b (by omega) hlong) hend

end ClassRuns
