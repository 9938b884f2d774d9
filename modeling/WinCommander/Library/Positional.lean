import Mathlib.Data.Nat.Digits.Lemmas

/-!
# Positional numerals

A number is multiplied and added to digit by digit, from the least significant one on, and a
remainder is taken while a numeral is read.
-/

namespace Positional

/-- The digits of `c + n * k` from those of `n`, the least significant one first. -/
def scale (b k : ℕ) : List ℕ → ℕ → List ℕ
  | [], c => Nat.digits b c
  | d :: ds, c => (c + d * k) % b :: scale b k ds ((c + d * k) / b)

/-- The carries give all digits of the product and no leading zero. -/
theorem scale_digits {b k : ℕ} (hb : 1 < b) (hk : 0 < k) (n c : ℕ) :
    scale b k (Nat.digits b n) c = Nat.digits b (c + n * k) := by
  induction n using Nat.strong_induction_on generalizing c with
  | h n ih =>
    by_cases hn : n = 0
    · rw [hn, Nat.digits_zero, scale, Nat.zero_mul, Nat.add_zero]
    · have hpos : 0 < n := Nat.pos_of_ne_zero hn
      have hprod : 0 < n * k := Nat.mul_pos hpos hk
      have hsplit : c + n * k = (c + n % b * k) + b * (n / b * k) := by
        conv_lhs => rw [← Nat.mod_add_div n b]
        ring
      have hdigits : Nat.digits b (c + n * k) =
          (c + n % b * k) % b :: Nat.digits b ((c + n % b * k) / b + n / b * k) := by
        rw [Nat.digits_def' hb (by omega), hsplit, Nat.add_mul_mod_self_left,
          Nat.add_mul_div_left _ _ (by omega)]
      rw [Nat.digits_def' hb hpos, scale, ih (n / b) (Nat.div_lt_self hpos hb), hdigits]

/-- The number that a numeral writes, the most significant digit first. -/
def value (b : ℕ) (ds : List ℕ) : ℕ := ds.foldl (fun n d => n * b + d) 0

theorem foldl_eq (b : ℕ) (ds : List ℕ) (n : ℕ) :
    ds.foldl (fun n d => n * b + d) n = n * b ^ ds.length + Nat.ofDigits b ds.reverse := by
  induction ds generalizing n with
  | nil => simp
  | cons d ds ih =>
    rw [List.foldl_cons, ih, List.reverse_cons, Nat.ofDigits_append, Nat.ofDigits_singleton,
      List.length_cons, List.length_reverse]
    ring

theorem value_eq (b : ℕ) (ds : List ℕ) : value b ds = Nat.ofDigits b ds.reverse := by
  rw [value, foldl_eq, Nat.zero_mul, Nat.zero_add]

@[simp] theorem value_nil (b : ℕ) : value b [] = 0 := rfl

theorem value_concat (b d : ℕ) (ds : List ℕ) : value b (ds ++ [d]) = value b ds * b + d := by
  rw [value, List.foldl_append]
  rfl

theorem value_append (b : ℕ) (xs ys : List ℕ) :
    value b (xs ++ ys) = value b xs * b ^ ys.length + value b ys := by
  rw [value, List.foldl_append, foldl_eq, ← value_eq]
  rfl

theorem value_cons (b d : ℕ) (ds : List ℕ) : value b (d :: ds) = d * b ^ ds.length + value b ds := by
  rw [← List.singleton_append, value_append]
  simp [value]

theorem value_replicate_zero (b n : ℕ) : value b (List.replicate n 0) = 0 := by
  induction n with
  | zero => rfl
  | succ n ih => rw [List.replicate_succ, value_cons, ih, Nat.zero_mul]

theorem value_lt {b : ℕ} (ds : List ℕ) (h : ∀ d ∈ ds, d < b) : value b ds < b ^ ds.length := by
  induction ds with
  | nil => simp
  | cons d ds ih =>
    rw [List.forall_mem_cons] at h
    have hrest := ih h.2
    have hmul := Nat.mul_le_mul_right (b ^ ds.length) h.1
    rw [value_cons, List.length_cons, pow_succ, Nat.mul_comm _ b]
    rw [Nat.succ_mul] at hmul
    omega

/-- A numeral without leading zeros is that of its number. -/
theorem digits_value {b : ℕ} (hb : 1 < b) {ds : List ℕ} (hds : ∀ d ∈ ds, d < b)
    (hlead : ∀ d ∈ ds.head?, d ≠ 0) : Nat.digits b (value b ds) = ds.reverse := by
  rw [value_eq]
  apply Nat.digits_ofDigits b hb
  · intro d hd
    exact hds d (List.mem_reverse.mp hd)
  · intro hne
    rw [List.getLast_reverse]
    exact hlead _ (List.head_mem_head? _)

/-- A remainder that is taken at every digit is that of the number. -/
theorem foldl_mod (m : ℕ) (ds : List (ℕ × ℕ)) (n : ℕ) :
    ds.foldl (fun r d => (r * d.1 + d.2) % m) (n % m) =
      ds.foldl (fun n d => n * d.1 + d.2) n % m := by
  induction ds generalizing n with
  | nil => rfl
  | cons d ds ih =>
    have hstep : (n % m * d.1 + d.2) % m = (n * d.1 + d.2) % m := by
      rw [Nat.add_mod, Nat.mod_mul_mod, ← Nat.add_mod]
    rw [List.foldl_cons, List.foldl_cons, hstep, ih]

end Positional
