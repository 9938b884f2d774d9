import WinCommander.Library.JsonSize

/-!
# Byte positions of a text

A text can be cut at the positions between two of its characters, and every position has one of those
at most three bytes below it.
-/

namespace TextBytes

open Json (size)

/-- The two halves of a text around its byte `n`, which has to stand between two characters. -/
def splitBytes : ℕ → List Char → Option (List Char × List Char)
  | 0, text => some ([], text)
  | _ + 1, [] => none
  | n + 1, c :: text =>
    if c.utf8Size ≤ n + 1 then
      (splitBytes (n + 1 - c.utf8Size) text).map fun halves => (c :: halves.1, halves.2)
    else none

def isCharBoundary (text : List Char) (i : ℕ) : Bool := (splitBytes i text).isSome

/-- The last position between two characters that is not after `i`. -/
@[grind =] def floorBoundary (text : List Char) : ℕ → ℕ
  | 0 => 0
  | i + 1 => if isCharBoundary text (i + 1) then i + 1 else floorBoundary text i

/-- What stands from one position to another, where both are between characters. -/
def slice (text : List Char) (start stop : ℕ) : Option (List Char) :=
  if start ≤ stop then
    (splitBytes start text).bind fun halves => (splitBytes (stop - start) halves.2).map Prod.fst
  else none

@[simp] theorem splitBytes_zero (text : List Char) : splitBytes 0 text = some ([], text) := by
  cases text <;> rfl

theorem splitBytes_cons (n : ℕ) (c : Char) (text : List Char) :
    splitBytes (c.utf8Size + n) (c :: text) =
      (splitBytes n text).map fun halves => (c :: halves.1, halves.2) := by
  have hpos : 0 < c.utf8Size := c.utf8Size_pos
  have hsucc : c.utf8Size + n = (c.utf8Size + n - 1) + 1 := by omega
  have hrest : c.utf8Size + n - 1 + 1 - c.utf8Size = n := by omega
  rw [hsucc]
  simp only [splitBytes, hrest]
  rw [if_pos (by omega)]

/-- Cutting behind a beginning cuts what follows it. -/
theorem splitBytes_append (a r : List Char) (k : ℕ) :
    splitBytes (size a + k) (a ++ r) =
      (splitBytes k r).map fun halves => (a ++ halves.1, halves.2) := by
  induction a with
  | nil => simp
  | cons c a ih =>
    rw [Json.size_cons, Nat.add_assoc, List.cons_append, splitBytes_cons, ih, Option.map_map]
    rfl

theorem splitBytes_sound {n : ℕ} {text a b : List Char} (h : splitBytes n text = some (a, b)) :
    text = a ++ b ∧ size a = n := by
  induction text generalizing n a b with
  | nil =>
    cases n with
    | zero => simp_all
    | succ n => simp [splitBytes] at h
  | cons c text ih =>
    cases n with
    | zero =>
      rw [splitBytes_zero] at h
      cases h
      exact ⟨rfl, rfl⟩
    | succ n =>
      by_cases hfit : c.utf8Size ≤ n + 1
      · simp only [splitBytes, hfit, if_true] at h
        obtain ⟨⟨a', b'⟩, hrest, hhalves⟩ := Option.map_eq_some_iff.mp h
        cases hhalves
        have ⟨htext, hsize⟩ := ih hrest
        refine ⟨by rw [htext]; rfl, ?_⟩
        rw [Json.size_cons, hsize]
        omega
      · simp [splitBytes, hfit] at h

theorem splitBytes_eq_some {n : ℕ} {text a b : List Char} :
    splitBytes n text = some (a, b) ↔ text = a ++ b ∧ size a = n := by
  constructor
  · exact splitBytes_sound
  · rintro ⟨rfl, rfl⟩
    simpa using splitBytes_append a b 0

theorem size_pos {text : List Char} (h : text ≠ []) : 0 < size text := by
  obtain ⟨c, r, hcr⟩ := List.exists_cons_of_ne_nil h
  have hpos := c.utf8Size_pos
  rw [hcr, Json.size_cons]
  omega

/-- Of two beginnings of a text the longer one starts with the shorter one. -/
theorem exists_append_of_size_le {a r x y : List Char} (h : a ++ r = x ++ y)
    (hsize : size a ≤ size x) : ∃ p, x = a ++ p ∧ r = p ++ y := by
  cases List.append_eq_append_iff.mp h with
  | inl hx => exact hx
  | inr ha =>
    obtain ⟨p, ha, hy⟩ := ha
    have hempty : p = [] := by
      by_contra hne
      have hpos := size_pos hne
      rw [ha, Json.size_append] at hsize
      omega
    rw [hempty, List.append_nil] at ha
    rw [hempty, List.nil_append] at hy
    exact ⟨[], by rw [ha, List.append_nil], hy.symm⟩

/-- A text has one beginning of each size. -/
theorem append_inj_of_size {a r x y : List Char} (h : a ++ r = x ++ y) (hsize : size a = size x) :
    a = x ∧ r = y := by
  obtain ⟨p, hx, hr⟩ := exists_append_of_size_le h (Nat.le_of_eq hsize)
  have hempty : p = [] := by
    by_contra hne
    have hpos := size_pos hne
    rw [hx, Json.size_append] at hsize
    omega
  rw [hempty, List.append_nil] at hx
  rw [hempty, List.nil_append] at hr
  exact ⟨hx.symm, hr⟩

theorem isCharBoundary_iff {text : List Char} {i : ℕ} :
    isCharBoundary text i = true ↔ ∃ a b, text = a ++ b ∧ size a = i := by
  rw [isCharBoundary, Option.isSome_iff_exists]
  constructor
  · rintro ⟨⟨a, b⟩, h⟩
    exact ⟨a, b, splitBytes_sound h⟩
  · rintro ⟨a, b, h⟩
    exact ⟨(a, b), splitBytes_eq_some.mpr h⟩

theorem isCharBoundary_zero (text : List Char) : isCharBoundary text 0 = true :=
  isCharBoundary_iff.mpr ⟨[], text, rfl, rfl⟩

theorem isCharBoundary_size (text : List Char) : isCharBoundary text (size text) = true :=
  isCharBoundary_iff.mpr ⟨text, [], (List.append_nil text).symm, rfl⟩

theorem isCharBoundary_append (a b : List Char) : isCharBoundary (a ++ b) (size a) = true :=
  isCharBoundary_iff.mpr ⟨a, b, rfl, rfl⟩

/-- A position between characters behind a beginning cuts what follows it. -/
theorem exists_of_isCharBoundary {a r : List Char} {i : ℕ} (h : isCharBoundary (a ++ r) i = true)
    (hi : size a ≤ i) : ∃ m b, r = m ++ b ∧ size a + size m = i := by
  have hk : i = size a + (i - size a) := by omega
  rw [hk, isCharBoundary, splitBytes_append, Option.isSome_map, Option.isSome_iff_exists] at h
  obtain ⟨⟨m, b⟩, hsplit⟩ := h
  have ⟨hr, hm⟩ := splitBytes_sound hsplit
  exact ⟨m, b, hr, by omega⟩

section Floor

theorem floorBoundary_le (text : List Char) (i : ℕ) : floorBoundary text i ≤ i := by
  induction i with
  | zero => exact Nat.le_refl 0
  | succ i ih =>
    rw [floorBoundary]
    split
    · exact Nat.le_refl _
    · exact Nat.le_succ_of_le ih

theorem isCharBoundary_floorBoundary (text : List Char) (i : ℕ) :
    isCharBoundary text (floorBoundary text i) = true := by
  induction i with
  | zero => exact isCharBoundary_zero text
  | succ i ih =>
    rw [floorBoundary]
    split
    case isTrue h => exact h
    case isFalse h => exact ih

/-- No position between characters is passed over. -/
theorem le_floorBoundary {text : List Char} {i j : ℕ} (hj : isCharBoundary text j = true)
    (hji : j ≤ i) : j ≤ floorBoundary text i := by
  induction i with
  | zero => exact hji
  | succ i ih =>
    rw [floorBoundary]
    by_cases h : isCharBoundary text (i + 1) = true
    · rw [if_pos h]
      exact hji
    · rw [if_neg h]
      have hne : j ≠ i + 1 := by
        intro heq
        exact h (heq ▸ hj)
      exact ih (by omega)

/-- A character takes four bytes at most, so that one of four positions is between characters. -/
theorem exists_isCharBoundary_near (text : List Char) {i : ℕ} (hi : i ≤ size text) :
    ∃ j ≤ i, i < j + 4 ∧ isCharBoundary text j = true := by
  induction text generalizing i with
  | nil => exact ⟨i, Nat.le_refl i, by omega, by rw [Nat.le_zero.mp hi]; rfl⟩
  | cons c text ih =>
    have hsize : c.utf8Size ≤ 4 := c.utf8Size_le_four
    by_cases hlt : i < c.utf8Size
    · exact ⟨0, Nat.zero_le i, by omega, isCharBoundary_zero _⟩
    · rw [Json.size_cons] at hi
      obtain ⟨j, hj, hnear, hbound⟩ := ih (i := i - c.utf8Size) (by omega)
      refine ⟨c.utf8Size + j, by omega, by omega, ?_⟩
      rw [isCharBoundary, splitBytes_cons, Option.isSome_map]
      exact hbound

theorem lt_floorBoundary_add (text : List Char) {i : ℕ} (hi : i ≤ size text) :
    i < floorBoundary text i + 4 := by
  obtain ⟨j, hj, hnear, hbound⟩ := exists_isCharBoundary_near text hi
  have hle : j ≤ floorBoundary text i := le_floorBoundary hbound hj
  omega

theorem floorBoundary_size (text : List Char) : floorBoundary text (size text) = size text :=
  Nat.le_antisymm (floorBoundary_le text _) (le_floorBoundary (isCharBoundary_size text) (Nat.le_refl _))

end Floor

/-- The slice between two positions that are between characters. -/
theorem slice_append (a m b : List Char) :
    slice (a ++ (m ++ b)) (size a) (size a + size m) = some m := by
  rw [slice, if_pos (Nat.le_add_right _ _), splitBytes_eq_some.mpr ⟨rfl, rfl⟩]
  simp [splitBytes_eq_some.mpr ⟨rfl, rfl⟩]

/-- What a slice asks of its two ends. -/
theorem ends_of_slice {text : List Char} {start stop : ℕ}
    (h : (slice text start stop).isSome = true) :
    start ≤ stop ∧ isCharBoundary text start = true ∧ isCharBoundary text stop = true := by
  rw [slice] at h
  by_cases hle : start ≤ stop
  · rw [if_pos hle, Option.isSome_iff_exists] at h
    obtain ⟨m, hm⟩ := h
    obtain ⟨⟨a, rest⟩, hfirst, hsecond⟩ := Option.bind_eq_some_iff.mp hm
    obtain ⟨⟨m', b⟩, hsplit, -⟩ := Option.map_eq_some_iff.mp hsecond
    have ⟨htext, ha⟩ := splitBytes_sound hfirst
    have ⟨hrest, hm'⟩ := splitBytes_sound hsplit
    refine ⟨hle, isCharBoundary_iff.mpr ⟨a, rest, htext, ha⟩,
      isCharBoundary_iff.mpr ⟨a ++ m', b, ?_, ?_⟩⟩
    · simp only at hrest
      rw [htext, hrest, List.append_assoc]
    · rw [Json.size_append]
      omega
  · rw [if_neg hle] at h
    cases h

end TextBytes
