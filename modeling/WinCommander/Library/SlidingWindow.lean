import Mathlib.Data.List.Basic

/-!
# Sliding windows

A queue of entries with the times they were made.  What has left the window is dropped from the
front, which in the order of time is all that has left it.
-/

namespace SlidingWindow

variable {α : Type*}

/-- A condition that holds of a beginning of a list only. -/
theorem dropWhile_eq_filter {p : α → Bool} {xs : List α}
    (h : xs.Pairwise fun x y => p y = true → p x = true) :
    xs.dropWhile p = xs.filter fun x => !p x := by
  induction xs with
  | nil => rfl
  | cons x xs ih =>
    rw [List.pairwise_cons] at h
    cases hx : p x with
    | true =>
      rw [List.dropWhile_cons_of_pos hx, List.filter_cons_of_neg (by simp [hx])]
      exact ih h.2
    | false =>
      have hall : ∀ y ∈ xs, (!p y) = true := by
        intro y hy
        cases hpy : p y with
        | true => simp [h.1 y hy hpy] at hx
        | false => rfl
      rw [List.dropWhile_cons_of_neg (by simp [hx]), List.filter_cons_of_pos (by simp [hx]),
        List.filter_eq_self.mpr hall]

/-- The entries that are at most `window` old. -/
def within (window now : ℕ) (entries : List (α × ℕ)) : List (α × ℕ) :=
  entries.filter fun e => now - e.2 ≤ window

/-- Drop what has left the window from the front. -/
def prune (window now : ℕ) (entries : List (α × ℕ)) : List (α × ℕ) :=
  entries.dropWhile fun e => window < now - e.2

theorem prune_eq_within {entries : List (α × ℕ)} (window now : ℕ)
    (h : entries.Pairwise fun x y => x.2 ≤ y.2) :
    prune window now entries = within window now entries := by
  have hmono : entries.Pairwise fun x y =>
      decide (window < now - y.2) = true → decide (window < now - x.2) = true := by
    apply h.imp
    intro x y hxy hold
    rw [decide_eq_true_eq] at hold ⊢
    omega
  rw [prune, dropWhile_eq_filter hmono, within]
  simp only [← decide_not, Nat.not_lt]

/-- What leaves a window does not come back. -/
theorem within_within {window now later : ℕ} (h : now ≤ later) (entries : List (α × ℕ)) :
    within window later (within window now entries) = within window later entries := by
  rw [within, within, List.filter_filter]
  apply List.filter_congr
  intro e _
  rw [← Bool.decide_and]
  apply decide_eq_decide.mpr
  omega

theorem within_append (window now : ℕ) (xs ys : List (α × ℕ)) :
    within window now (xs ++ ys) = within window now xs ++ within window now ys :=
  List.filter_append _ _

theorem within_of_now {window now : ℕ} {entries : List (α × ℕ)} (h : ∀ e ∈ entries, e.2 = now) :
    within window now entries = entries := by
  rw [within, List.filter_eq_self]
  intro e he
  rw [h e he]
  simp

end SlidingWindow
