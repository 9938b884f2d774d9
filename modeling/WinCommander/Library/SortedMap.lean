import Mathlib

/-!
# Maps in the order of their keys

A finite map is the list of its entries, whose keys increase.
-/

variable {κ ν : Type*} [LinearOrder κ]

structure SortedMap (κ ν : Type*) [LinearOrder κ] where
  entries : List (κ × ν)
  sorted : entries.Pairwise fun x y => x.1 < y.1

namespace SortedMap

def empty : SortedMap κ ν := ⟨[], List.Pairwise.nil⟩

def lookupEntry (k : κ) : List (κ × ν) → Option ν
  | [] => none
  | x :: xs => if k = x.1 then some x.2 else lookupEntry k xs

def lookup (m : SortedMap κ ν) (k : κ) : Option ν := lookupEntry k m.entries

/-- Keep the entries whose keys meet a condition. -/
def retain (m : SortedMap κ ν) (keep : κ → Bool) : SortedMap κ ν :=
  ⟨m.entries.filter fun x => keep x.1, m.sorted.filter _⟩

@[grind =] def insertEntry (k : κ) (v : ν) : List (κ × ν) → List (κ × ν)
  | [] => [(k, v)]
  | x :: xs =>
    if k < x.1 then (k, v) :: x :: xs
    else if k = x.1 then (k, v) :: xs
    else x :: insertEntry k v xs

theorem fst_of_mem_insertEntry {k : κ} {v : ν} {xs : List (κ × ν)} {y : κ × ν}
    (h : y ∈ insertEntry k v xs) : y = (k, v) ∨ y ∈ xs := by
  induction xs with
  | nil => exact .inl (List.mem_singleton.mp h)
  | cons x xs ih =>
    rw [insertEntry] at h
    split_ifs at h with hlt heq
    · exact List.mem_cons.mp h
    · exact (List.mem_cons.mp h).imp_right (List.mem_cons_of_mem x)
    · rcases List.mem_cons.mp h with rfl | htail
      · exact .inr List.mem_cons_self
      · exact (ih htail).imp_right (List.mem_cons_of_mem x)

theorem sorted_insertEntry (k : κ) (v : ν) {xs : List (κ × ν)}
    (h : xs.Pairwise fun x y => x.1 < y.1) :
    (insertEntry k v xs).Pairwise fun x y => x.1 < y.1 := by
  induction xs with
  | nil => exact List.pairwise_singleton _ _
  | cons x xs ih =>
    have ⟨hhead, htail⟩ := List.pairwise_cons.mp h
    rw [insertEntry]
    split_ifs with hlt heq
    · refine List.pairwise_cons.mpr ⟨?_, h⟩
      intro y hy
      rcases List.mem_cons.mp hy with rfl | hy
      · exact hlt
      · exact lt_trans hlt (hhead y hy)
    · refine List.pairwise_cons.mpr ⟨?_, htail⟩
      intro y hy
      rw [heq]
      exact hhead y hy
    · refine List.pairwise_cons.mpr ⟨?_, ih htail⟩
      intro y hy
      rcases fst_of_mem_insertEntry hy with rfl | hy
      · exact lt_of_le_of_ne (not_lt.mp hlt) (Ne.symm heq)
      · exact hhead y hy

def insert (m : SortedMap κ ν) (k : κ) (v : ν) : SortedMap κ ν :=
  ⟨insertEntry k v m.entries, sorted_insertEntry k v m.sorted⟩

@[simp] theorem lookup_empty (k : κ) : (empty : SortedMap κ ν).lookup k = none := rfl

theorem lookup_insertEntry (k : κ) (v : ν) (xs : List (κ × ν)) (k' : κ) :
    lookupEntry k' (insertEntry k v xs) = if k' = k then some v else lookupEntry k' xs := by
  induction xs with
  | nil => rfl
  | cons x xs ih =>
    rw [insertEntry]
    split_ifs with hlt heq hk hk hk
    all_goals grind [lookupEntry]

@[simp] theorem lookup_insert (m : SortedMap κ ν) (k : κ) (v : ν) (k' : κ) :
    (m.insert k v).lookup k' = if k' = k then some v else m.lookup k' :=
  lookup_insertEntry k v m.entries k'

@[simp] theorem lookup_retain (m : SortedMap κ ν) (keep : κ → Bool) (k : κ) :
    (m.retain keep).lookup k = if keep k then m.lookup k else none := by
  simp only [lookup, retain]
  induction m.entries with
  | nil => simp [lookupEntry]
  | cons x xs ih =>
    rw [List.filter_cons, lookupEntry]
    by_cases hkeep : keep x.1
    · rw [if_pos hkeep, lookupEntry, ih]
      by_cases hk : k = x.1
      · simp [hk, hkeep]
      · simp [hk]
    · rw [if_neg hkeep, ih]
      by_cases hk : k = x.1
      · simp [hk, hkeep]
      · simp [hk]

/-- Of the entries that meet a condition on values the one of a given key. -/
theorem filterMap_entries {β : Type*} (m : SortedMap κ ν) (k : κ) (f : κ × ν → Option β)
    (hf : ∀ x, x.1 ≠ k → f x = none) :
    m.entries.filterMap f = ((m.lookup k).bind fun v => f (k, v)).toList := by
  obtain ⟨xs, hsorted⟩ := m
  simp only [lookup]
  induction xs with
  | nil => rfl
  | cons x xs ih =>
    have ⟨hhead, htail⟩ := List.pairwise_cons.mp hsorted
    by_cases hk : k = x.1
    · -- no later entry has this key
      have hrest : xs.filterMap f = [] := by
        apply List.filterMap_eq_nil_iff.mpr
        intro y hy
        have hlt : x.1 < y.1 := hhead y hy
        exact hf y (hk ▸ ne_of_gt hlt)
      subst hk
      rw [lookupEntry, if_pos rfl, List.filterMap_cons, hrest]
      cases hx : f x <;> simp [hx]
    · rw [lookupEntry, if_neg hk, List.filterMap_cons, hf x (Ne.symm hk), ih htail]

end SortedMap
