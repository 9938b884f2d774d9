import Mathlib.Data.List.Lex
import WinCommander.Library.JsonPath

/-!
# Two values side by side

Two values are walked together as deep as both are objects.  A missing member reads as null, so that
every list of keys leads somewhere in every value.
-/

namespace Json

variable {π ρ : Type*}

/-- The keys of two objects, in increasing order and each of them once. -/
def bothKeys (ms ns : List (String × Value)) : List String :=
  (Keyed.sortOn id (ms.map Prod.fst ++ ns.map Prod.fst)).destutter (· ≠ ·)

theorem bothKeys_eq_dedup (ms ns : List (String × Value)) :
    bothKeys ms ns = (Keyed.sortOn id (ms.map Prod.fst ++ ns.map Prod.fst)).dedup := by
  have hsorted : (Keyed.sortOn id (ms.map Prod.fst ++ ns.map Prod.fst)).Pairwise (· ≤ ·) :=
    Keyed.sortOn_pairwise id _
  exact hsorted.destutter_eq_dedup

theorem mem_bothKeys {ms ns : List (String × Value)} {key : String} :
    key ∈ bothKeys ms ns ↔ key ∈ ms.map Prod.fst ∨ key ∈ ns.map Prod.fst := by
  rw [bothKeys_eq_dedup, List.mem_dedup, Keyed.mem_sortOn, List.mem_append]

theorem bothKeys_pairwise (ms ns : List (String × Value)) : (bothKeys ms ns).Pairwise (· < ·) := by
  rw [bothKeys_eq_dedup]
  have hsorted := (Keyed.sortOn_pairwise id (ms.map Prod.fst ++ ns.map Prod.fst)).sublist
    (List.dedup_sublist _)
  have hne := List.nodup_dedup (Keyed.sortOn id (ms.map Prod.fst ++ ns.map Prod.fst))
  exact (hsorted.and hne).imp fun h => lt_of_le_of_ne h.1 h.2

theorem lookup_of_not_mem {ms : List (String × Value)} {key : String}
    (h : key ∉ ms.map Prod.fst) : ms.lookup key = none := by
  cases hlookup : ms.lookup key with
  | none => rfl
  | some v => exact absurd (List.mem_map_of_mem (mem_of_lookup hlookup)) h

namespace Value

/-- What a value has under a key; a missing member reads as null. -/
def child (v : Value) (key : String) : Value := (v.get key).getD .null

/-- What a value has at the end of a list of keys. -/
def read (v : Value) : List String → Value
  | [] => v
  | key :: keys => (v.child key).read keys

@[simp] theorem child_object (ms : List (String × Value)) (key : String) :
    (object ms).child key = (ms.lookup key).getD .null := rfl

theorem child_of_not_object {v : Value} (h : v.isObject = false) (key : String) :
    v.child key = .null := by
  cases v with
  | object ms => cases h
  | null | bool | number | string | array => rfl

theorem read_null (keys : List String) : read .null keys = .null := by
  induction keys with
  | nil => rfl
  | cons key keys ih => exact ih

section Walk

variable (extend : π → String → π) (leaf : π → Value → Value → List ρ)

mutual

/-- Walk two values together and give out what there is to say where not both are objects. -/
@[grind =] def walk : Value → Value → π → List ρ
  | .object ms, .object ns, place =>
      (bothKeys ms ns).flatMap fun key =>
        walkMember ms key ((ns.lookup key).getD .null) (extend place key)
  | old, new, place => leaf place old new

def walkMember : List (String × Value) → String → Value → π → List ρ
  | [], _, new, place => leaf place .null new
  | (k, old) :: ms, key, new, place =>
      if key = k then walk old new place else walkMember ms key new place

end

variable {extend leaf}

theorem walkMember_eq (ms : List (String × Value)) (key : String) (new : Value) (place : π) :
    walkMember extend leaf ms key new place =
      walk extend leaf ((object ms).child key) new place := by
  induction ms with
  | nil => cases new <;> simp [walkMember, walk, child, get]
  | cons m ms ih =>
    obtain ⟨k, old⟩ := m
    rw [walkMember, child_object, Keyed.lookup_cons]
    by_cases h : key = k
    · rw [if_pos h, if_pos h]
      rfl
    · rw [if_neg h, if_neg h, ih, child_object]

theorem walk_object (ms ns : List (String × Value)) (place : π) :
    walk extend leaf (object ms) (object ns) place = (bothKeys ms ns).flatMap fun key =>
      walk extend leaf ((object ms).child key) ((object ns).child key) (extend place key) := by
  rw [walk]
  simp only [walkMember_eq]
  rfl

theorem walk_leaf {old new : Value} (h : ¬ (old.isObject = true ∧ new.isObject = true)) (place : π) :
    walk extend leaf old new place = leaf place old new := by
  cases old with
  | object ms =>
    cases new with
    | object ns => exact absurd ⟨rfl, rfl⟩ h
    | null | bool | number | string | array => rw [walk]; simp
  | null | bool | number | string | array => rw [walk]; simp

end Walk

/-- Induction along a walk. -/
theorem walk_induct {P : Value → Value → Prop}
    (leaf : ∀ old new, ¬ (old.isObject = true ∧ new.isObject = true) → P old new)
    (object : ∀ ms ns, (∀ key, P ((Value.object ms).child key) ((Value.object ns).child key)) →
      P (.object ms) (.object ns)) (old new : Value) : P old new := by
  have hnull : ∀ new, P .null new := fun new => leaf _ _ fun h => Bool.noConfusion h.1
  induction old generalizing new with
  | object ms ih =>
    cases new with
    | object ns =>
      apply object
      intro key
      rw [child_object]
      cases hlookup : ms.lookup key with
      | none => exact hnull _
      | some old => exact ih (key, old) (mem_of_lookup hlookup) _
    | null | bool | number | string | array => exact leaf _ _ fun h => Bool.noConfusion h.2
  | null | bool | number | string | array => exact leaf _ _ fun h => Bool.noConfusion h.1

section Places

/-- Where a walk ends, as lists of keys. -/
def meets (old new : Value) : List (List String) :=
  walk (fun keys key => keys ++ [key]) (fun keys _ _ => [keys]) old new []

private theorem walk_keys (old new : Value) (keys : List String) :
    walk (fun keys key => keys ++ [key]) (fun keys _ _ => [keys]) old new keys =
      (meets old new).map (keys ++ ·) := by
  unfold meets
  induction old, new using walk_induct generalizing keys with
  | leaf old new h => simp [walk_leaf h]
  | object ms ns ih =>
    rw [walk_object, walk_object, List.map_flatMap]
    congr 1
    funext key
    rw [ih key (keys ++ [key]), ih key ([] ++ [key]), List.map_map]
    congr 1
    funext rest
    simp

theorem meets_leaf {old new : Value} (h : ¬ (old.isObject = true ∧ new.isObject = true)) :
    meets old new = [[]] := walk_leaf h []

theorem meets_object (ms ns : List (String × Value)) :
    meets (object ms) (object ns) = (bothKeys ms ns).flatMap fun key =>
      (meets ((object ms).child key) ((object ns).child key)).map (key :: ·) := by
  rw [meets, walk_object]
  congr 1
  funext key
  exact walk_keys _ _ _

/-- A walk says at each of its ends what there is to say. -/
theorem walk_eq (extend : π → String → π) (leaf : π → Value → Value → List ρ) (old new : Value)
    (place : π) : walk extend leaf old new place = (meets old new).flatMap fun keys =>
      leaf (keys.foldl extend place) (old.read keys) (new.read keys) := by
  induction old, new using walk_induct generalizing place with
  | leaf old new h => simp [walk_leaf h, meets_leaf h, read]
  | object ms ns ih =>
    rw [walk_object, meets_object, List.flatMap_assoc]
    congr 1
    funext key
    rw [ih key, List.flatMap_map]
    rfl

theorem meets_pairwise (old new : Value) : (meets old new).Pairwise (· < ·) := by
  induction old, new using walk_induct with
  | leaf old new h =>
    rw [meets_leaf h]
    exact List.pairwise_singleton _ _
  | object ms ns ih =>
    rw [meets_object, List.pairwise_flatMap]
    constructor
    · intro key _
      rw [List.pairwise_map]
      exact (ih key).imp fun h => List.cons_lt_cons_iff.mpr (Or.inr ⟨rfl, h⟩)
    · apply (bothKeys_pairwise ms ns).imp
      intro key key' hlt keys hkeys keys' hkeys'
      obtain ⟨_, _, rfl⟩ := List.mem_map.mp hkeys
      obtain ⟨_, _, rfl⟩ := List.mem_map.mp hkeys'
      exact List.cons_lt_cons_iff.mpr (Or.inl hlt)

end Places

section Partings

/-- Two values part at the end of a list of keys: both are objects above it, not both are there, and
what they have there differs. -/
def Parts : Value → Value → List String → Prop
  | old, new, [] => ¬ (old.isObject = true ∧ new.isObject = true) ∧ old.normalize ≠ new.normalize
  | old, new, key :: keys =>
      old.isObject = true ∧ new.isObject = true ∧ Parts (old.child key) (new.child key) keys

theorem parts_null (keys : List String) : ¬ Parts .null .null keys := by
  cases keys with
  | nil => exact fun h => h.2 rfl
  | cons key keys => exact fun h => Bool.noConfusion h.1

theorem Parts.symm {old new : Value} {keys : List String} (h : Parts old new keys) :
    Parts new old keys := by
  induction keys generalizing old new with
  | nil => exact ⟨fun hboth => h.1 hboth.symm, h.2.symm⟩
  | cons key keys ih => exact ⟨h.2.1, h.1, ih h.2.2⟩

/-- Equal values do not part. -/
theorem not_parts_of_normalize_eq {old new : Value} (hold : old.UniqueKeys) (hnew : new.UniqueKeys)
    (h : old.normalize = new.normalize) (keys : List String) : ¬ Parts old new keys := by
  induction keys generalizing old new with
  | nil => exact fun hparts => hparts.2 h
  | cons key keys ih =>
    rintro ⟨hobject, hobject', hparts⟩
    cases hold with
    | object hnd hms =>
      cases hnew with
      | object hnd' hns =>
        have hlookup := lookup_of_normalize_eq hnd hnd' h key
        rw [child_object, child_object] at hparts
        rename_i ms ns
        cases hms' : ms.lookup key with
        | none =>
          rw [hms', Option.map_none, eq_comm, Option.map_eq_none_iff] at hlookup
          rw [hms', hlookup] at hparts
          exact parts_null keys hparts
        | some v =>
          rw [hms', Option.map_some, eq_comm, Option.map_eq_some_iff] at hlookup
          obtain ⟨w, hns', hvw⟩ := hlookup
          rw [hms', hns'] at hparts
          exact ih (hms _ (mem_of_lookup hms')) (hns _ (mem_of_lookup hns')) hvw.symm hparts
      | null | bool | number | string | array => cases hobject'
    | null | bool | number | string | array => cases hobject

/-- The places at which two values part, in order. -/
def partings (old new : Value) : List (List String) :=
  (meets old new).filter fun keys => (old.read keys).normalize ≠ (new.read keys).normalize

theorem partings_pairwise (old new : Value) : (partings old new).Pairwise (· < ·) :=
  (meets_pairwise old new).filter _

theorem mem_partings {old new : Value} {keys : List String} :
    keys ∈ partings old new ↔ Parts old new keys := by
  induction old, new using walk_induct generalizing keys with
  | leaf old new h =>
    rw [partings, meets_leaf h]
    cases keys with
    | nil =>
      rw [List.mem_filter, decide_eq_true_iff]
      simp only [Parts, h, read, List.mem_singleton, not_false_eq_true, true_and]
    | cons key keys =>
      have hno : ¬ (old.isObject = true ∧ new.isObject = true ∧
          Parts (old.child key) (new.child key) keys) := fun hp => h ⟨hp.1, hp.2.1⟩
      simp [Parts, hno]
  | object ms ns ih =>
    rw [partings, meets_object, List.filter_flatMap, List.mem_flatMap]
    simp only [List.filter_map]
    cases keys with
    | nil => simp [Parts, isObject]
    | cons key keys =>
      have hkey : keys ∈ partings ((object ms).child key) ((object ns).child key) ↔ _ := ih key
      rw [partings, List.mem_filter] at hkey
      constructor
      · rintro ⟨key', _, hkeys⟩
        obtain ⟨keys', hmem, heq⟩ := List.mem_map.mp hkeys
        obtain ⟨rfl, rfl⟩ := List.cons.inj heq
        rw [List.mem_filter] at hmem
        exact ⟨rfl, rfl, hkey.mp hmem⟩
      · rintro ⟨_, _, hparts⟩
        refine ⟨key, ?_, List.mem_map.mpr ⟨keys, List.mem_filter.mpr (hkey.mpr hparts), rfl⟩⟩
        rw [mem_bothKeys]
        by_contra hneither
        obtain ⟨hms, hns⟩ := not_or.mp hneither
        rw [child_object, child_object, lookup_of_not_mem hms, lookup_of_not_mem hns] at hparts
        exact parts_null keys hparts

/-- The places are known by what is among them. -/
theorem partings_congr {old new old' new' : Value}
    (h : ∀ keys, Parts old' new' keys ↔ Parts old new keys) :
    partings old' new' = partings old new := by
  refine List.Perm.eq_of_pairwise (fun a b _ _ hab hba => absurd hab (lt_asymm hba))
    (partings_pairwise old' new') (partings_pairwise old new) ?_
  rw [List.perm_ext_iff_of_nodup ((partings_pairwise _ _).imp ne_of_lt)
    ((partings_pairwise _ _).imp ne_of_lt)]
  intro keys
  rw [mem_partings, mem_partings, h]

end Partings

end Value
end Json
