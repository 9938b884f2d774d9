import WinCommander.Library.Json

/-!
# Paths into JSON values

An object is read as a map: inserting replaces, and erasing removes every member of a key.  A path
is a list of keys, and what is not an object has nothing below it.
-/

namespace Json

/-- The members of an object with one more, or with another value for a key that is there.  Keys in
increasing order stay so. -/
def insert (k : String) (v : Value) : List (String × Value) → List (String × Value)
  | [] => [(k, v)]
  | (l, w) :: ms =>
    if k = l then (k, v) :: ms
    else if k < l then (k, v) :: (l, w) :: ms
    else (l, w) :: insert k v ms

/-- The members under other keys. -/
def erase (k : String) (ms : List (String × Value)) : List (String × Value) :=
  ms.filter fun m => m.1 ≠ k

section Members

variable (k l : String) (v : Value) (ms : List (String × Value))

theorem lookup_insert : (insert k v ms).lookup l = if l = k then some v else ms.lookup l := by
  induction ms with
  | nil => rw [insert, Keyed.lookup_cons]
  | cons m ms ih =>
    obtain ⟨j, w⟩ := m
    rw [insert]
    by_cases hj : k = j
    · rw [if_pos hj, Keyed.lookup_cons, Keyed.lookup_cons]
      by_cases hl : l = k
      · rw [if_pos hl, if_pos hl]
      · rw [if_neg hl, if_neg hl, if_neg (hj ▸ hl)]
    · rw [if_neg hj]
      by_cases hlt : k < j
      · rw [if_pos hlt, Keyed.lookup_cons]
      · rw [if_neg hlt, Keyed.lookup_cons, Keyed.lookup_cons, ih]
        by_cases hl : l = k
        · have hlj : l ≠ j := fun h => hj (hl.symm.trans h)
          rw [if_neg hlj, if_pos hl, if_pos hl]
        · rw [if_neg hl, if_neg hl]

@[simp] theorem lookup_insert_self : (insert k v ms).lookup k = some v := by
  rw [lookup_insert, if_pos rfl]

variable {k l}

theorem lookup_insert_of_ne (h : l ≠ k) : (insert k v ms).lookup l = ms.lookup l := by
  rw [lookup_insert, if_neg h]

variable (k l)

theorem lookup_erase : (erase k ms).lookup l = if l = k then none else ms.lookup l := by
  induction ms with
  | nil => simp [erase]
  | cons m ms ih =>
    obtain ⟨j, w⟩ := m
    rw [erase] at ih ⊢
    by_cases hj : j = k
    · have hout : (List.filter (fun m => decide (m.1 ≠ k)) ((j, w) :: ms)) =
          List.filter (fun m => decide (m.1 ≠ k)) ms := by simp [hj]
      rw [hout, ih, Keyed.lookup_cons]
      by_cases hl : l = k
      · rw [if_pos hl, if_pos hl]
      · rw [if_neg hl, if_neg hl, if_neg (hj ▸ hl)]
    · have hin : (List.filter (fun m => decide (m.1 ≠ k)) ((j, w) :: ms)) =
          (j, w) :: List.filter (fun m => decide (m.1 ≠ k)) ms := by simp [hj]
      rw [hin, Keyed.lookup_cons, Keyed.lookup_cons, ih]
      by_cases hl : l = k
      · have hlj : l ≠ j := fun h => hj (h.symm.trans hl)
        rw [if_neg hlj, if_pos hl, if_pos hl]
      · rw [if_neg hl, if_neg hl]

/-- Nothing is left of a member that was inserted and erased. -/
theorem erase_insert : erase k (insert k v ms) = erase k ms := by
  induction ms with
  | nil => simp [insert, erase]
  | cons m ms ih =>
    obtain ⟨j, w⟩ := m
    rw [insert]
    by_cases hj : k = j
    · simp [erase, hj]
    · rw [if_neg hj]
      by_cases hlt : k < j
      · simp [erase, hlt]
      · rw [if_neg hlt]
        simp only [erase] at ih
        simp only [erase, List.filter_cons, ih]

variable {k l v ms}

theorem mem_insert {m : String × Value} (h : m ∈ insert k v ms) : m = (k, v) ∨ m ∈ ms := by
  induction ms with
  | nil => exact .inl (List.mem_singleton.mp h)
  | cons n ms ih =>
    obtain ⟨j, w⟩ := n
    rw [insert] at h
    split at h
    · rcases List.mem_cons.mp h with h | h
      · exact .inl h
      · exact .inr (List.mem_cons_of_mem _ h)
    · split at h
      · rcases List.mem_cons.mp h with h | h
        · exact .inl h
        · exact .inr h
      · rcases List.mem_cons.mp h with h | h
        · exact .inr (h ▸ List.mem_cons_self)
        · exact (ih h).imp_right (List.mem_cons_of_mem _)

theorem mem_of_lookup (h : ms.lookup k = some v) : (k, v) ∈ ms := by
  induction ms with
  | nil => simp at h
  | cons m ms ih =>
    obtain ⟨j, w⟩ := m
    rw [Keyed.lookup_cons] at h
    by_cases hj : k = j
    · rw [if_pos hj] at h
      have hw : w = v := Option.some.inj h
      rw [hj, hw]
      exact List.mem_cons_self
    · rw [if_neg hj] at h
      exact List.mem_cons_of_mem _ (ih h)

end Members

namespace Value

def isObject : Value → Bool
  | .object _ => true
  | _ => false

def isNull : Value → Bool
  | .null => true
  | _ => false

/-- The members of an object, and none of anything else. -/
def members : Value → List (String × Value)
  | .object ms => ms
  | _ => []

theorem get_eq_lookup (v : Value) (k : String) : v.get k = v.members.lookup k := by
  cases v <;> rfl

/-- The value at the end of a path. -/
@[grind =] def atPath : Value → List String → Option Value
  | v, [] => some v
  | v, k :: path => (v.get k).bind (atPath · path)

@[simp] theorem atPath_nil (v : Value) : v.atPath [] = some v := by
  rw [atPath]

@[simp] theorem atPath_cons (v : Value) (k : String) (path : List String) :
    v.atPath (k :: path) = (v.get k).bind (atPath · path) := by
  rw [atPath]

theorem atPath_append (v : Value) (p q : List String) :
    v.atPath (p ++ q) = (v.atPath p).bind (atPath · q) := by
  induction p generalizing v with
  | nil => simp
  | cons k p ih =>
    rw [List.cons_append, atPath_cons, atPath_cons]
    cases v.get k with
    | none => rfl
    | some w => exact ih w

/-- Two values that agree at a path agree at every path below it. -/
theorem atPath_append_congr {v w : Value} {p : List String} (h : v.atPath p = w.atPath p)
    (q : List String) : v.atPath (p ++ q) = w.atPath (p ++ q) := by
  rw [atPath_append, atPath_append, h]

/-- Put a value at the end of a path.  What is not an object on the way becomes one. -/
def setPath : List String → Value → Value → Value
  | [], child, _ => child
  | k :: path, child, v =>
    .object (insert k (setPath path child ((v.get k).getD .null)) v.members)

/-- Take the value at the end of a path out of the objects that hold it. -/
@[grind =] def takePath : List String → Value → Option Value × Value
  | [], v => (none, v)
  | [k], .object ms => (ms.lookup k, .object (erase k ms))
  | k :: path, .object ms =>
    match ms.lookup k with
    | none => (none, .object ms)
    | some w => ((takePath path w).1, .object (insert k (takePath path w).2 ms))
  | _ :: _, v => (none, v)

/-- What is neither above nor below the end of a path stays. -/
theorem atPath_setPath_of_not_prefix {path p : List String} (child : Value) (v : Value)
    (hbelow : ¬ path <+: p) (habove : ¬ p <+: path) :
    (setPath path child v).atPath p = v.atPath p := by
  induction path generalizing p v with
  | nil => exact absurd List.nil_prefix hbelow
  | cons k path ih =>
    cases p with
    | nil => exact absurd List.nil_prefix habove
    | cons l p =>
      rw [setPath, atPath_cons, atPath_cons, get_eq_lookup, members, lookup_insert]
      by_cases hl : l = k
      · rw [if_pos hl, hl, Option.bind_some]
        rw [hl, List.cons_prefix_cons] at hbelow habove
        have hp : p ≠ [] := fun h => habove ⟨rfl, h ▸ List.nil_prefix⟩
        rw [ih _ (fun h => hbelow ⟨rfl, h⟩) (fun h => habove ⟨rfl, h⟩)]
        cases v.get k with
        | some w => rfl
        | none =>
          cases p with
          | nil => exact absurd rfl hp
          | cons j p => rfl
      · rw [if_neg hl, get_eq_lookup]

mutual

/-- Objects are merged member by member.  Anything else is replaced. -/
@[grind =] def merge : Value → Value → Value
  | .object base, .object patch => .object (mergeMembers base patch)
  | _, patch => patch

def mergeMembers (base : List (String × Value)) : List (String × Value) → List (String × Value)
  | [] => base
  | (k, v) :: patch => mergeMembers (insert k (merge ((base.lookup k).getD .null) v) base) patch

end

@[simp] theorem merge_null (v : Value) : merge .null v = v := by
  rw [merge]
  simp

theorem merge_object (base patch : List (String × Value)) :
    merge (.object base) (.object patch) = .object (mergeMembers base patch) := by
  rw [merge]

/-- Merging puts every member of the patch on top of the member with its key. -/
theorem lookup_mergeMembers (base : List (String × Value)) {patch : List (String × Value)}
    (hnd : (patch.map Prod.fst).Nodup) (k : String) :
    (mergeMembers base patch).lookup k =
      match patch.lookup k with
      | none => base.lookup k
      | some v => some (merge ((base.lookup k).getD .null) v) := by
  induction patch generalizing base with
  | nil => rw [mergeMembers, List.lookup_nil]
  | cons m patch ih =>
    obtain ⟨j, w⟩ := m
    rw [List.map_cons, List.nodup_cons] at hnd
    rw [mergeMembers, ih _ hnd.2, Keyed.lookup_cons]
    by_cases hk : k = j
    · have habsent : patch.lookup k = none := by
        cases hlookup : patch.lookup k with
        | none => rfl
        | some v =>
          have hmem : j ∈ patch.map Prod.fst :=
            List.mem_map.mpr ⟨(k, v), mem_of_lookup hlookup, hk⟩
          exact absurd hmem hnd.1
      rw [habsent, if_pos hk, hk]
      dsimp only
      rw [lookup_insert_self]
    · rw [if_neg hk, lookup_insert_of_ne _ _ hk]

end Value

end Json
