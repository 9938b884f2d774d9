import Mathlib
import WinCommander.Library.Positional

/-!
# Significant digits

The digits of a number between its first and its last one that are not zero, and the place of the
decimal point before them, are settled by the number.
-/

namespace Positional

section Zeros

variable {α : Type*} [Zero α]

/-- Digits that start and end with one that is not zero. -/
structure Trimmed (ds : List α) : Prop where
  nonempty : ds ≠ []
  head : ∀ d ∈ ds.head?, d ≠ 0
  last : ∀ d ∈ ds.getLast?, d ≠ 0

theorem exists_leading (ds : List α) :
    ∃ a rest, ds = List.replicate a 0 ++ rest ∧ ∀ d ∈ rest.head?, d ≠ 0 := by
  induction ds with
  | nil => exact ⟨0, [], rfl, by simp⟩
  | cons d ds ih =>
    by_cases hd : d = 0
    · obtain ⟨a, rest, heq, hrest⟩ := ih
      refine ⟨a + 1, rest, ?_, hrest⟩
      rw [List.replicate_succ, List.cons_append, ← heq, hd]
    · exact ⟨0, d :: ds, rfl, by simpa using hd⟩

/-- Digits that are not all zero are trimmed ones between zeros. -/
theorem exists_trimmed {ds : List α} (h : ∃ d ∈ ds, d ≠ 0) :
    ∃ a core z, ds = List.replicate a 0 ++ core ++ List.replicate z 0 ∧ Trimmed core := by
  obtain ⟨a, rest, hds, hhead⟩ := exists_leading ds
  obtain ⟨z, tail, hrest, hlast⟩ := exists_leading rest.reverse
  have hcore : rest = tail.reverse ++ List.replicate z 0 := by
    rw [← List.reverse_reverse rest, hrest, List.reverse_append, List.reverse_replicate]
  have hne : tail.reverse ≠ [] := by
    intro hnil
    rw [hnil, List.nil_append] at hcore
    obtain ⟨d, hd, hnonzero⟩ := h
    rw [hds, hcore, List.mem_append, List.mem_replicate, List.mem_replicate] at hd
    rcases hd with hd | hd
    · exact hnonzero hd.2
    · exact hnonzero hd.2
  refine ⟨a, tail.reverse, z, by rw [hds, hcore, List.append_assoc], hne, ?_, ?_⟩
  · rw [hcore, List.head?_append_of_ne_nil _ hne] at hhead
    exact hhead
  · rw [List.getLast?_reverse]
    exact hlast

end Zeros

/-- Digits behind a point that is `p` places to their right. -/
def scaled (b : ℕ) (ds : List ℕ) (p : ℤ) : ℚ := value b ds * (b : ℚ) ^ (p - ds.length)

theorem value_pos {b : ℕ} {ds : List ℕ} (hb : 0 < b) (h : ∃ d ∈ ds, d ≠ 0) : 0 < value b ds := by
  induction ds with
  | nil => simp at h
  | cons d ds ih =>
    rw [value_cons]
    by_cases hd : d = 0
    · have hrest : ∃ d ∈ ds, d ≠ 0 := by
        obtain ⟨e, he, hne⟩ := h
        rcases List.mem_cons.mp he with rfl | he
        · exact absurd hd hne
        · exact ⟨e, he, hne⟩
      exact Nat.add_pos_right _ (ih hrest)
    · exact Nat.add_pos_left (Nat.mul_pos (Nat.pos_of_ne_zero hd) (Nat.pow_pos hb)) _

variable {b : ℕ} {ds es : List ℕ} {p q : ℤ}

theorem Trimmed.le_value (h : Trimmed ds) :
    b ^ (ds.length - 1) ≤ value b ds := by
  cases ds with
  | nil => exact absurd rfl h.nonempty
  | cons d ds =>
    have hd : 1 ≤ d := Nat.pos_of_ne_zero (h.head d rfl)
    rw [value_cons, List.length_cons, Nat.add_sub_cancel]
    calc b ^ ds.length = 1 * b ^ ds.length := (Nat.one_mul _).symm
      _ ≤ d * b ^ ds.length := Nat.mul_le_mul_right _ hd
      _ ≤ d * b ^ ds.length + value b ds := Nat.le_add_right _ _

/-- The number lies between two neighbouring powers of the base, which give the place of the
point. -/
theorem Trimmed.scaled_bounds (hb : 0 < b) (h : Trimmed ds) (hds : ∀ d ∈ ds, d < b) (p : ℤ) :
    (b : ℚ) ^ (p - 1) ≤ scaled b ds p ∧ scaled b ds p < (b : ℚ) ^ p := by
  have hpos : (0 : ℚ) < b := by exact_mod_cast hb
  have hscale : (0 : ℚ) < (b : ℚ) ^ (p - ds.length) := zpow_pos hpos _
  have hlength : 0 < ds.length := List.length_pos_iff.mpr h.nonempty
  constructor
  · have hle : ((b ^ (ds.length - 1) : ℕ) : ℚ) ≤ value b ds := by exact_mod_cast h.le_value
    have hpower : (b : ℚ) ^ (p - 1) = ((b ^ (ds.length - 1) : ℕ) : ℚ) * b ^ (p - ds.length) := by
      rw [Nat.cast_pow, ← zpow_natCast, ← zpow_add₀ hpos.ne', Nat.cast_sub hlength]
      congr 1
      push_cast
      ring
    rw [hpower, scaled]
    exact mul_le_mul_of_nonneg_right hle hscale.le
  · have hlt : (value b ds : ℚ) < ((b ^ ds.length : ℕ) : ℚ) := by exact_mod_cast value_lt ds hds
    have hpower : (b : ℚ) ^ p = ((b ^ ds.length : ℕ) : ℚ) * b ^ (p - ds.length) := by
      rw [Nat.cast_pow, ← zpow_natCast, ← zpow_add₀ hpos.ne']
      congr 1
      ring
    rw [hpower, scaled]
    exact mul_lt_mul_of_pos_right hlt hscale

theorem Trimmed.scaled_pos (hb : 0 < b) (h : Trimmed ds) (hds : ∀ d ∈ ds, d < b) (p : ℤ) :
    0 < scaled b ds p := by
  have hpos : (0 : ℚ) < b := by exact_mod_cast hb
  exact lt_of_lt_of_le (zpow_pos hpos _) (h.scaled_bounds hb hds p).1

theorem Trimmed.point_unique (hb : 1 < b) (hds : Trimmed ds) (hes : Trimmed es)
    (hd : ∀ d ∈ ds, d < b) (he : ∀ d ∈ es, d < b) (h : scaled b ds p = scaled b es q) : p = q := by
  have hone : (1 : ℚ) < b := by exact_mod_cast hb
  obtain ⟨hlow, hhigh⟩ := hds.scaled_bounds (by omega) hd p
  obtain ⟨hlow', hhigh'⟩ := hes.scaled_bounds (by omega) he q
  rw [h] at hlow hhigh
  have hpq : p - 1 < q := (zpow_lt_zpow_iff_right₀ hone).mp (lt_of_le_of_lt hlow hhigh')
  have hqp : q - 1 < p := (zpow_lt_zpow_iff_right₀ hone).mp (lt_of_le_of_lt hlow' hhigh)
  omega

/-- Of two numbers that end with digits that are not zero neither is the other one with zeros
behind it. -/
theorem Trimmed.length_le (hb : 1 < b) (hes : Trimmed es) (he : ∀ d ∈ es, d < b)
    (h : value b ds * b ^ es.length = value b es * b ^ ds.length) : es.length ≤ ds.length := by
  by_contra hlong
  have hpos : 0 < b ^ ds.length := Nat.pow_pos (by omega)
  have hsplit : b ^ es.length = b ^ (es.length - ds.length - 1) * b * b ^ ds.length := by
    rw [← pow_succ, ← pow_add]
    congr 1
    omega
  rw [hsplit, ← Nat.mul_assoc, ← Nat.mul_assoc] at h
  have hvalue := Nat.eq_of_mul_eq_mul_right hpos h
  obtain ⟨front, last, heq⟩ : ∃ front last, es = front ++ [last] :=
    ⟨es.dropLast, es.getLast hes.nonempty, (List.dropLast_append_getLast hes.nonempty).symm⟩
  have hnonzero : last ≠ 0 := hes.last last (by simp [heq])
  have hsmall : last < b := he last (by simp [heq])
  have hmod : (value b front * b + last) % b = 0 := by
    rw [← value_concat, ← heq, ← hvalue]
    exact Nat.mul_mod_left _ _
  rw [Nat.mul_add_mod', Nat.mod_eq_of_lt hsmall] at hmod
  exact hnonzero hmod

theorem value_inj (hb : 1 < b) (hlength : ds.length = es.length) (hd : ∀ d ∈ ds, d < b)
    (he : ∀ d ∈ es, d < b) (h : value b ds = value b es) : ds = es := by
  rw [value_eq, value_eq] at h
  have hreverse : ds.reverse = es.reverse := by
    apply Nat.ofDigits_inj_of_len_eq hb _ _ _ h
    · rw [List.length_reverse, List.length_reverse, hlength]
    · intro d hmem
      exact hd d (List.mem_reverse.mp hmem)
    · intro d hmem
      exact he d (List.mem_reverse.mp hmem)
  exact List.reverse_injective hreverse

/-- Two numbers with one place of the point, without the point. -/
theorem value_mul_of_scaled_eq (hb : 0 < b) (h : scaled b ds p = scaled b es p) :
    value b ds * b ^ es.length = value b es * b ^ ds.length := by
  have hpos : (b : ℚ) ≠ 0 := by exact_mod_cast hb.ne'
  have hclear : ∀ (xs : List ℕ) (n : ℕ), scaled b xs p * (b : ℚ) ^ ((xs.length + n : ℕ) - p) =
      ((value b xs * b ^ n : ℕ) : ℚ) := by
    intro xs n
    rw [scaled, mul_assoc, ← zpow_add₀ hpos, Nat.cast_mul, Nat.cast_pow, ← zpow_natCast]
    congr 2
    push_cast
    ring
  have hds := hclear ds es.length
  have hes := hclear es ds.length
  rw [h, Nat.add_comm, hes] at hds
  exact_mod_cast hds.symm

/-- A number has one place of the point and one list of significant digits. -/
theorem Trimmed.scaled_inj (hb : 1 < b) (hds : Trimmed ds) (hes : Trimmed es)
    (hd : ∀ d ∈ ds, d < b) (he : ∀ d ∈ es, d < b) (h : scaled b ds p = scaled b es q) :
    ds = es ∧ p = q := by
  have hpoint := hds.point_unique hb hes hd he h
  rw [← hpoint] at h
  have hvalues := value_mul_of_scaled_eq (Nat.zero_lt_of_lt hb) h
  have hlength : ds.length = es.length :=
    Nat.le_antisymm (hds.length_le hb hd hvalues.symm) (hes.length_le hb he hvalues)
  have hpower : 0 < b ^ es.length := Nat.pow_pos (Nat.zero_lt_of_lt hb)
  rw [hlength] at hvalues
  exact ⟨value_inj hb hlength hd he (Nat.eq_of_mul_eq_mul_right hpower hvalues), hpoint⟩

end Positional
