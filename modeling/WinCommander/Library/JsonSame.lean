import Mathlib
import WinCommander.Library.JsonNumber

/-!
# Values up to the spelling of their numbers

Two values are the same data when reordering the members of their objects and writing their numbers
in other ways turns one into the other.  Writing every number in its normal form leaves a
difference in key order.
-/

namespace Json

def Number.ofToken (t : Token) : Number := ⟨t.render, t.render_ne_nil, t.render_numeric⟩

def Number.IsToken (n : Number) : Prop := ∃ t : Token, t.render = n.literal

theorem Number.ofToken_eq {t : Token} {n : Number} (h : t.render = n.literal) :
    Number.ofToken t = n := by
  cases n
  simp_all [Number.ofToken]

/-- The normal token of the number that a literal writes. -/
noncomputable def Number.normal (n : Number) : Number :=
  open Classical in
  if h : ∃ u : Token, u.IsNormal ∧ Denotes n.literal u.value then Number.ofToken h.choose else n

theorem Number.normal_eq {n : Number} {u : Token} (hu : u.IsNormal)
    (h : Denotes n.literal u.value) : n.normal = Number.ofToken u := by
  have hex : ∃ u : Token, u.IsNormal ∧ Denotes n.literal u.value := ⟨u, hu, h⟩
  have hsame : hex.choose = u :=
    hex.choose_spec.1.eq_of_value hu (hex.choose_spec.2.unique h)
  rw [Number.normal, dif_pos hex, hsame]

/-- A literal that writes a number, and its normal form. -/
theorem Number.exists_normal {n : Number} {q : ℚ} (h : Denotes n.literal q) :
    ∃ u : Token, u.IsNormal ∧ u.value = q ∧ n.normal = Number.ofToken u := by
  obtain ⟨t, ht, hq⟩ := h
  obtain ⟨u, hu, hvalue⟩ := t.exists_normal
  exact ⟨u, hu, hvalue.trans hq, Number.normal_eq hu ⟨t, ht, hvalue.symm⟩⟩

theorem Number.normal_eq_normal {n m : Number} {q : ℚ} (hn : Denotes n.literal q)
    (hm : Denotes m.literal q) : n.normal = m.normal := by
  obtain ⟨u, hu, hvalue, hnormal⟩ := Number.exists_normal hn
  rw [← hvalue] at hm
  rw [hnormal, Number.normal_eq hu hm]

theorem Number.denotes_normal {n : Number} {q : ℚ} (h : Denotes n.literal q) :
    Denotes n.normal.literal q := by
  obtain ⟨u, _, hvalue, hnormal⟩ := Number.exists_normal h
  rw [hnormal]
  exact ⟨u, rfl, hvalue⟩

namespace Value

/-- Every number in a value meets a condition. -/
inductive AllNumbers (P : Number → Prop) : Value → Prop
  | null : AllNumbers P .null
  | bool (b : Bool) : AllNumbers P (.bool b)
  | number {n : Number} : P n → AllNumbers P (.number n)
  | string (s : String) : AllNumbers P (.string s)
  | array {es : List Value} : (∀ e ∈ es, AllNumbers P e) → AllNumbers P (.array es)
  | object {ms : List (String × Value)} : (∀ m ∈ ms, AllNumbers P m.2) → AllNumbers P (.object ms)

/-- One value becomes the other by reordering members and by writing numbers in other ways. -/
inductive Same : Value → Value → Prop
  | refl (v : Value) : Same v v
  | trans {u v w : Value} : Same u v → Same v w → Same u w
  | number {n m : Number} {q : ℚ} : Denotes n.literal q → Denotes m.literal q →
      Same (.number n) (.number m)
  | reorder {ms ns : List (String × Value)} : ms.Perm ns → Same (.object ms) (.object ns)
  | elem {v w : Value} (pre post : List Value) : Same v w →
      Same (.array (pre ++ v :: post)) (.array (pre ++ w :: post))
  | member {v w : Value} (k : String) (pre post : List (String × Value)) : Same v w →
      Same (.object (pre ++ (k, v) :: post)) (.object (pre ++ (k, w) :: post))

theorem Same.symm {v w : Value} (h : Same v w) : Same w v := by
  induction h with
  | refl v => exact .refl v
  | trans _ _ ih ih' => exact ih'.trans ih
  | number hn hm => exact .number hm hn
  | reorder h => exact .reorder h.symm
  | elem pre post _ ih => exact .elem pre post ih
  | member k pre post _ ih => exact .member k pre post ih

theorem KeyOrderEq.same {v w : Value} (h : KeyOrderEq v w) : Same v w := by
  induction h with
  | refl v => exact .refl v
  | trans _ _ ih ih' => exact ih.trans ih'
  | reorder h => exact .reorder h
  | elem pre post _ ih => exact .elem pre post ih
  | member k pre post _ ih => exact .member k pre post ih

mutual

@[grind =] noncomputable def normalNumbers : Value → Value
  | .null => .null
  | .bool b => .bool b
  | .number n => .number n.normal
  | .string s => .string s
  | .array es => .array (normalNumbersElems es)
  | .object ms => .object (normalNumbersMembers ms)

@[grind =] noncomputable def normalNumbersElems : List Value → List Value
  | [] => []
  | e :: es => normalNumbers e :: normalNumbersElems es

@[grind =] noncomputable def normalNumbersMembers : List (String × Value) → List (String × Value)
  | [] => []
  | (k, v) :: ms => (k, normalNumbers v) :: normalNumbersMembers ms

end

theorem normalNumbersElems_eq (es : List Value) :
    normalNumbersElems es = es.map normalNumbers := by
  induction es with
  | nil => rfl
  | cons e es ih => rw [normalNumbersElems, ih, List.map_cons]

theorem normalNumbersMembers_eq (ms : List (String × Value)) :
    normalNumbersMembers ms = ms.map fun m => (m.1, normalNumbers m.2) := by
  induction ms with
  | nil => rfl
  | cons m ms ih => rw [normalNumbersMembers, ih, List.map_cons]

@[simp] theorem normalNumbers_array (es : List Value) :
    normalNumbers (.array es) = .array (es.map normalNumbers) := by
  rw [normalNumbers, normalNumbersElems_eq]

@[simp] theorem normalNumbers_object (ms : List (String × Value)) :
    normalNumbers (.object ms) = .object (ms.map fun m => (m.1, normalNumbers m.2)) := by
  rw [normalNumbers, normalNumbersMembers_eq]

/-- What is the same data differs in key order only once the numbers are normal. -/
theorem Same.keyOrderEq {v w : Value} (h : Same v w) :
    KeyOrderEq v.normalNumbers w.normalNumbers := by
  induction h with
  | refl v => exact .refl _
  | trans _ _ ih ih' => exact ih.trans ih'
  | number hn hm =>
    rw [normalNumbers, normalNumbers, Number.normal_eq_normal hn hm]
    exact .refl _
  | reorder h =>
    rw [normalNumbers_object, normalNumbers_object]
    exact .reorder (h.map _)
  | elem pre post _ ih =>
    simp only [normalNumbers_array, List.map_append, List.map_cons]
    exact .elem _ _ ih
  | member k pre post _ ih =>
    simp only [normalNumbers_object, List.map_append, List.map_cons]
    exact .member k _ _ ih

private theorem Same.map_elems {f : Value → Value} {es : List Value}
    (h : ∀ e ∈ es, Same e (f e)) (pre : List Value) :
    Same (.array (pre ++ es)) (.array (pre ++ es.map f)) := by
  induction es generalizing pre with
  | nil => exact .refl _
  | cons e es ih =>
    rw [List.forall_mem_cons] at h
    have hrest := ih h.2 (pre ++ [f e])
    simp only [List.append_assoc, List.singleton_append] at hrest
    exact (Same.elem pre es h.1).trans hrest

private theorem Same.map_members {f : Value → Value} {ms : List (String × Value)}
    (h : ∀ m ∈ ms, Same m.2 (f m.2)) (pre : List (String × Value)) :
    Same (.object (pre ++ ms)) (.object (pre ++ ms.map fun m => (m.1, f m.2))) := by
  induction ms generalizing pre with
  | nil => exact .refl _
  | cons m ms ih =>
    rw [List.forall_mem_cons] at h
    have hrest := ih h.2 (pre ++ [(m.1, f m.2)])
    simp only [List.append_assoc, List.singleton_append] at hrest
    exact (Same.member m.1 pre ms h.1).trans hrest

theorem same_normalNumbers (v : Value) : Same v v.normalNumbers := by
  induction v with
  | null => exact .refl _
  | bool b => exact .refl _
  | number n =>
    rw [normalNumbers]
    by_cases h : ∃ q, Denotes n.literal q
    · obtain ⟨q, hq⟩ := h
      exact .number hq (Number.denotes_normal hq)
    · have hnone : ¬ ∃ u : Token, u.IsNormal ∧ Denotes n.literal u.value := by
        intro hex
        obtain ⟨u, _, hu⟩ := hex
        exact h ⟨u.value, hu⟩
      rw [Number.normal, dif_neg hnone]
      exact .refl _
  | string s => exact .refl _
  | array es ih =>
    rw [normalNumbers_array]
    exact Same.map_elems ih []
  | object ms ih =>
    rw [normalNumbers_object]
    exact Same.map_members ih []

theorem same_iff {v w : Value} : Same v w ↔ KeyOrderEq v.normalNumbers w.normalNumbers := by
  constructor
  · exact Same.keyOrderEq
  · intro h
    exact (same_normalNumbers v).trans (h.same.trans (same_normalNumbers w).symm)

theorem UniqueKeys.normalNumbers {v : Value} (h : v.UniqueKeys) : v.normalNumbers.UniqueKeys := by
  induction h with
  | null => exact .null
  | bool b => exact .bool b
  | number n => exact .number _
  | string s => exact .string s
  | array _ ih =>
    rw [normalNumbers_array]
    apply UniqueKeys.array
    intro e he
    obtain ⟨e', he', rfl⟩ := List.mem_map.mp he
    exact ih e' he'
  | object hkeys _ ih =>
    rw [normalNumbers_object]
    apply UniqueKeys.object
    · simpa [Function.comp_def] using hkeys
    · intro m hm
      obtain ⟨m', hm', rfl⟩ := List.mem_map.mp hm
      exact ih m' hm'

end Value

end Json
