import Mathlib.Data.List.Sort
import Mathlib.Data.List.Nodup
import Mathlib.Data.List.Destutter

/-!
# Lists of keyed entries

Entries that carry a key, in no particular order.  Sorting them by key gives one list for every
order they may come in, as long as no key occurs twice.
-/

namespace Keyed

variable {α β κ : Type*} [LinearOrder κ]

/-- Entries in increasing order of their keys; equal keys keep their order. -/
def sortOn (key : α → κ) (xs : List α) : List α :=
  xs.insertionSort (fun a b => key a ≤ key b)

@[simp] theorem sortOn_nil (key : α → κ) : sortOn key [] = [] := rfl

theorem sortOn_perm (key : α → κ) (xs : List α) : (sortOn key xs).Perm xs :=
  List.perm_insertionSort _ xs

@[simp] theorem mem_sortOn {key : α → κ} {xs : List α} {a : α} : a ∈ sortOn key xs ↔ a ∈ xs :=
  (sortOn_perm key xs).mem_iff

@[simp] theorem length_sortOn (key : α → κ) (xs : List α) : (sortOn key xs).length = xs.length :=
  (sortOn_perm key xs).length_eq

theorem sortOn_pairwise (key : α → κ) (xs : List α) :
    (sortOn key xs).Pairwise (fun a b => key a ≤ key b) := by
  have : Std.Total (fun a b : α => key a ≤ key b) := ⟨fun a b => le_total (key a) (key b)⟩
  have : IsTrans α (fun a b => key a ≤ key b) := ⟨fun _ _ _ => le_trans⟩
  exact List.pairwise_insertionSort _ xs

/-- Two entries of a list without repeated keys that have one key are one entry. -/
theorem eq_of_key_eq {κ : Type*} {key : α → κ} {xs : List α} (hnd : (xs.map key).Nodup) {a b : α}
    (ha : a ∈ xs) (hb : b ∈ xs) (h : key a = key b) : a = b :=
  List.inj_on_of_nodup_map hnd ha hb h

/-- The order in which the entries come does not show after sorting. -/
theorem sortOn_eq_of_perm {key : α → κ} {xs ys : List α} (h : xs.Perm ys)
    (hnd : (xs.map key).Nodup) : sortOn key xs = sortOn key ys := by
  refine List.Perm.eq_of_pairwise ?_ (sortOn_pairwise key xs) (sortOn_pairwise key ys) ?_
  · intro a b ha hb hab hba
    have hb' : b ∈ xs := h.mem_iff.mpr (mem_sortOn.mp hb)
    exact eq_of_key_eq hnd (mem_sortOn.mp ha) hb' (le_antisymm hab hba)
  · exact (sortOn_perm key xs).trans (h.trans (sortOn_perm key ys).symm)

theorem sortOn_map {key : α → κ} {key' : β → κ} {f : α → β} (hf : ∀ a, key' (f a) = key a)
    (xs : List α) : sortOn key' (xs.map f) = (sortOn key xs).map f := by
  unfold sortOn
  refine (List.map_insertionSort (fun a b => key a ≤ key b) (fun a b => key' a ≤ key' b) f xs ?_).symm
  intro a _ b _
  simp only [hf]

private theorem orderedInsert_forall₂ {key : α → κ} {key' : β → κ} {R : α → β → Prop}
    (hkey : ∀ a b, R a b → key a = key' b) {a : α} {b : β} (hab : R a b) {xs : List α}
    {ys : List β} (h : List.Forall₂ R xs ys) :
    List.Forall₂ R (xs.orderedInsert (fun x y => key x ≤ key y) a)
      (ys.orderedInsert (fun x y => key' x ≤ key' y) b) := by
  induction h with
  | nil => exact .cons hab .nil
  | @cons x y xs ys hxy h ih =>
    simp only [List.orderedInsert, hkey a b hab, hkey x y hxy]
    split
    · exact .cons hab (.cons hxy h)
    · exact .cons hxy ih

/-- Sorting keeps two lists related entry by entry, where related entries have one key. -/
theorem sortOn_forall₂ {key : α → κ} {key' : β → κ} {R : α → β → Prop}
    (hkey : ∀ a b, R a b → key a = key' b) {xs : List α} {ys : List β}
    (h : List.Forall₂ R xs ys) : List.Forall₂ R (sortOn key xs) (sortOn key' ys) := by
  induction h with
  | nil => exact .nil
  | cons hab _ ih => exact orderedInsert_forall₂ hkey hab ih

/-- The head of a sorted list has the least key. -/
theorem sortOn_head {key : α → κ} {xs : List α} {a : α} (ha : a ∈ xs)
    (hle : ∀ b ∈ xs, key a ≤ key b) :
    ∃ b rest, sortOn key xs = b :: rest ∧ b ∈ xs ∧ key b = key a := by
  have ha' : a ∈ sortOn key xs := mem_sortOn.mpr ha
  cases hs : sortOn key xs with
  | nil => simp [hs] at ha'
  | cons b rest =>
    have hb : b ∈ xs := mem_sortOn.mp (by rw [hs]; exact List.mem_cons_self)
    have hsorted := sortOn_pairwise key xs
    rw [hs, List.pairwise_cons] at hsorted
    rw [hs, List.mem_cons] at ha'
    refine ⟨b, rest, rfl, hb, le_antisymm ?_ (hle b hb)⟩
    rcases ha' with rfl | ha'
    · exact le_refl _
    · exact hsorted.1 a ha'

/-- Sorted entries without repetitions are the set of the entries. -/
theorem sortOn_destutter_eq_iff {xs ys : List κ} :
    (sortOn id xs).destutter (· ≠ ·) = (sortOn id ys).destutter (· ≠ ·) ↔
      ∀ a, a ∈ xs ↔ a ∈ ys := by
  have hsorted : ∀ zs : List κ, (sortOn id zs).Pairwise (· ≤ ·) := sortOn_pairwise id
  have hdedup : ∀ zs : List κ, (sortOn id zs).destutter (· ≠ ·) = (sortOn id zs).dedup :=
    fun zs => (hsorted zs).destutter_eq_dedup
  rw [hdedup, hdedup]
  constructor
  · intro h a
    have hmem : ∀ zs : List κ, a ∈ (sortOn id zs).dedup ↔ a ∈ zs :=
      fun zs => List.mem_dedup.trans mem_sortOn
    rw [← hmem, h, hmem]
  · intro h
    refine List.Perm.eq_of_pairwise (fun a b _ _ => le_antisymm)
      ((hsorted xs).sublist (List.dedup_sublist _))
      ((hsorted ys).sublist (List.dedup_sublist _)) ?_
    rw [List.perm_ext_iff_of_nodup (List.nodup_dedup _) (List.nodup_dedup _)]
    intro a
    rw [List.mem_dedup, List.mem_dedup, mem_sortOn, mem_sortOn, h]

section Lookup

variable {ms ns : List (κ × β)} {k : κ} {v : β}

theorem lookup_cons (k l : κ) (v : β) (ms : List (κ × β)) :
    ((l, v) :: ms).lookup k = if k = l then some v else ms.lookup k := by
  by_cases h : k = l
  · simp [h]
  · have hne : (k == l) = false := by simpa using h
    simp [List.lookup_cons, hne, h]

/-- In a list without repeated keys a lookup finds exactly the entries. -/
theorem lookup_eq_some_iff_mem (hnd : (ms.map Prod.fst).Nodup) :
    ms.lookup k = some v ↔ (k, v) ∈ ms := by
  induction ms with
  | nil => simp
  | cons m ms ih =>
    obtain ⟨l, w⟩ := m
    simp only [List.map_cons, List.nodup_cons] at hnd
    rw [lookup_cons]
    by_cases h : k = l
    · subst h
      have hout : (k, v) ∉ ms := fun hm => hnd.1 (List.mem_map_of_mem hm)
      simp [hout, eq_comm]
    · simp [ih hnd.2, h]

theorem lookup_perm (h : ms.Perm ns) (hnd : (ms.map Prod.fst).Nodup) :
    ms.lookup k = ns.lookup k := by
  have hnd' : (ns.map Prod.fst).Nodup := (h.map Prod.fst).nodup hnd
  refine Option.ext fun v => ?_
  rw [lookup_eq_some_iff_mem hnd, lookup_eq_some_iff_mem hnd', h.mem_iff]

theorem lookup_map {γ : Type*} (f : β → γ) (ms : List (κ × β)) (k : κ) :
    (ms.map fun m => (m.1, f m.2)).lookup k = (ms.lookup k).map f := by
  induction ms with
  | nil => rfl
  | cons m ms ih =>
    obtain ⟨l, w⟩ := m
    rw [List.map_cons, lookup_cons, lookup_cons, ih]
    split <;> rfl

end Lookup

end Keyed
