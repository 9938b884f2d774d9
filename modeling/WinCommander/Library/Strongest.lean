import Mathlib.Order.Bounds.Basic
import Mathlib.Data.List.Nodup

/-!
# The greatest value under each key

Values are given to keys one by one, and each key keeps the greatest value it was given.  What is
kept depends on what was given only, not on the order in which it was given.
-/

namespace Strongest

variable {κ β : Type*} [DecidableEq κ] [LinearOrder β]

/-- Raise the value under a key to at least a given one. -/
@[grind =] def raise (key : κ) (value : β) : List (κ × β) → List (κ × β)
  | [] => [(key, value)]
  | m :: ms => if m.1 = key then (m.1, max m.2 value) :: ms else m :: raise key value ms

theorem mem_keys_raise {key k : κ} {value : β} {ms : List (κ × β)} :
    k ∈ (raise key value ms).map Prod.fst ↔ k = key ∨ k ∈ ms.map Prod.fst := by
  induction ms with
  | nil => simp [raise]
  | cons m ms ih =>
    unfold raise
    by_cases h : m.1 = key
    · rw [if_pos h]
      simp only [List.map_cons, List.mem_cons]
      rw [h]
      tauto
    · rw [if_neg h]
      simp only [List.map_cons, List.mem_cons, ih]
      tauto

theorem nodup_raise {key : κ} {value : β} {ms : List (κ × β)} (h : (ms.map Prod.fst).Nodup) :
    ((raise key value ms).map Prod.fst).Nodup := by
  induction ms with
  | nil => simp [raise]
  | cons m ms ih =>
    rw [List.map_cons, List.nodup_cons] at h
    unfold raise
    by_cases hm : m.1 = key
    · rw [if_pos hm]
      simpa using h
    · rw [if_neg hm, List.map_cons, List.nodup_cons]
      refine ⟨?_, ih h.2⟩
      rw [mem_keys_raise]
      rintro (heq | hmem)
      · exact hm heq
      · exact h.1 hmem

/-- What a raise leaves under other keys, and under its own. -/
theorem mem_raise {key k : κ} {value v : β} {ms : List (κ × β)} (h : (ms.map Prod.fst).Nodup) :
    (k, v) ∈ raise key value ms ↔
      if k = key then (key ∉ ms.map Prod.fst ∧ v = value) ∨ ∃ w, (key, w) ∈ ms ∧ v = max w value
      else (k, v) ∈ ms := by
  induction ms with
  | nil =>
    by_cases hk : k = key <;> simp [raise, hk]
  | cons m ms ih =>
    rw [List.map_cons, List.nodup_cons] at h
    obtain ⟨l, w⟩ := m
    unfold raise
    by_cases hm : l = key
    · subst hm
      have hout : ∀ x, (l, x) ∉ ms := fun x hx => h.1 (List.mem_map.mpr ⟨(l, x), hx, rfl⟩)
      by_cases hk : k = l
      · subst hk
        simp [hout]
      · simp [hk]
    · have hm' : ¬ key = l := fun heq => hm heq.symm
      rw [if_neg hm, List.mem_cons, ih h.2]
      by_cases hk : k = key
      · subst hk
        simp [hm']
      · simp [hk]

/-- Every key that was given a value is there once, with the greatest of them. -/
structure Greatest (given : κ → β → Prop) (ms : List (κ × β)) : Prop where
  nodup : (ms.map Prod.fst).Nodup
  keys : ∀ key, key ∈ ms.map Prod.fst ↔ ∃ value, given key value
  values : ∀ key value, (key, value) ∈ ms ↔ IsGreatest {v | given key v} value

variable {given given' : κ → β → Prop} {ms ms' : List (κ × β)}

omit [DecidableEq κ] in
theorem greatest_nil : Greatest (fun (_ : κ) (_ : β) => False) [] := by
  refine ⟨List.nodup_nil, by simp, ?_⟩
  intro key value
  constructor
  · intro hmem
    exact absurd hmem List.not_mem_nil
  · intro hgreatest
    exact hgreatest.1.elim

omit [DecidableEq κ] in
theorem Greatest.congr (h : Greatest given ms) (hgiven : ∀ key value, given key value ↔ given' key value) :
    Greatest given' ms := by
  have heq : given = given' := by
    funext key value
    exact propext (hgiven key value)
  exact heq ▸ h

omit [DecidableEq κ] in
theorem Greatest.mem_iff (h : Greatest given ms) (h' : Greatest given ms') (m : κ × β) :
    m ∈ ms ↔ m ∈ ms' := by
  rw [h.values m.1 m.2, h'.values m.1 m.2]

theorem Greatest.raise (h : Greatest given ms) (key : κ) (value : β) :
    Greatest (fun k v => given k v ∨ (k = key ∧ v = value)) (raise key value ms) := by
  refine ⟨nodup_raise h.nodup, ?_, ?_⟩
  · intro k
    rw [mem_keys_raise, h.keys]
    constructor
    · rintro (hk | ⟨v, hv⟩)
      · exact ⟨value, Or.inr ⟨hk, rfl⟩⟩
      · exact ⟨v, Or.inl hv⟩
    · rintro ⟨v, hv | hv⟩
      · exact Or.inr ⟨v, hv⟩
      · exact Or.inl hv.1
  · intro k v
    rw [mem_raise h.nodup]
    by_cases hk : k = key
    · subst hk
      rw [if_pos rfl]
      constructor
      · rintro (⟨hnone, rfl⟩ | ⟨w, hw, rfl⟩)
        · rw [h.keys] at hnone
          refine ⟨Or.inr ⟨rfl, rfl⟩, ?_⟩
          rintro x (hx | hx)
          · exact absurd ⟨x, hx⟩ hnone
          · exact hx.2.le
        · have hgreatest := (h.values k w).mp hw
          refine ⟨?_, ?_⟩
          · rcases le_total w value with hle | hle
            · exact Or.inr ⟨rfl, max_eq_right hle⟩
            · rw [max_eq_left hle]
              exact Or.inl hgreatest.1
          · rintro x (hx | hx)
            · exact (hgreatest.2 hx).trans (le_max_left w value)
            · exact hx.2 ▸ le_max_right w value
      · intro hgreatest
        by_cases hkey : k ∈ ms.map Prod.fst
        · obtain ⟨⟨k', w⟩, hmem, rfl⟩ := List.mem_map.mp hkey
          have hw := (h.values _ w).mp hmem
          right
          refine ⟨w, hmem, le_antisymm ?_ ?_⟩
          · rcases hgreatest.1 with hv | hv
            · exact (hw.2 hv).trans (le_max_left w value)
            · exact hv.2 ▸ le_max_right w value
          · apply max_le
            · exact hgreatest.2 (Or.inl hw.1)
            · exact hgreatest.2 (Or.inr ⟨rfl, rfl⟩)
        · left
          refine ⟨hkey, ?_⟩
          rcases hgreatest.1 with hv | hv
          · rw [h.keys] at hkey
            exact absurd ⟨v, hv⟩ hkey
          · exact hv.2
    · simp only [hk, if_false, false_and, or_false]
      exact h.values k v

/-- One value is given to several keys in turn. -/
theorem Greatest.raiseAll (h : Greatest given ms) (keys : List κ) (value : β) :
    Greatest (fun k v => given k v ∨ (k ∈ keys ∧ v = value))
      (keys.foldl (fun ms key => Strongest.raise key value ms) ms) := by
  induction keys generalizing given ms with
  | nil => exact h.congr (by simp)
  | cons key keys ih =>
    refine (ih (h.raise key value)).congr ?_
    intro k v
    rw [List.mem_cons]
    tauto

omit [DecidableEq κ] in
/-- Some keys are dropped. -/
theorem Greatest.filter (h : Greatest given ms) (keep : κ → Prop) [DecidablePred keep] :
    Greatest (fun k v => given k v ∧ keep k) (ms.filter fun m => keep m.1) := by
  have hset : ∀ key, keep key → {v | given key v ∧ keep key} = {v | given key v} := by
    intro key hkeep
    simp [hkeep]
  refine ⟨h.nodup.sublist (List.filter_sublist.map Prod.fst), ?_, ?_⟩
  · intro key
    constructor
    · intro hmem
      obtain ⟨m, hm, rfl⟩ := List.mem_map.mp hmem
      rw [List.mem_filter, decide_eq_true_eq] at hm
      obtain ⟨v, hv⟩ := (h.keys m.1).mp (List.mem_map_of_mem hm.1)
      exact ⟨v, hv, hm.2⟩
    · rintro ⟨v, hv, hkeep⟩
      obtain ⟨m, hm, rfl⟩ := List.mem_map.mp ((h.keys key).mpr ⟨v, hv⟩)
      exact List.mem_map_of_mem (List.mem_filter.mpr ⟨hm, decide_eq_true hkeep⟩)
  · intro key value
    rw [List.mem_filter, decide_eq_true_eq, h.values]
    constructor
    · rintro ⟨hgreatest, hkeep⟩
      rw [hset key hkeep]
      exact hgreatest
    · intro hgreatest
      have hkeep : keep key := hgreatest.1.2
      rw [hset key hkeep] at hgreatest
      exact ⟨hgreatest, hkeep⟩

end Strongest
