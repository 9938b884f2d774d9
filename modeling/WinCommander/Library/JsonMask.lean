import WinCommander.Library.JsonWalk

/-!
# What a value has under hidden keys

A mask puts one value in the place of every value that is under a hidden key, at any depth.  Two
values that are equal under a mask differ in nothing but what is hidden.
-/

namespace Json.Value

variable (hidden : String → Bool)

mutual

@[grind =] def mask (x : Value) : Value → Value
  | .array es => .array (maskElems x es)
  | .object ms => .object (maskMembers x ms)
  | v => v

def maskElems (x : Value) : List Value → List Value
  | [] => []
  | e :: es => mask x e :: maskElems x es

def maskMembers (x : Value) : List (String × Value) → List (String × Value)
  | [] => []
  | (k, v) :: ms => (k, if hidden k then x else mask x v) :: maskMembers x ms

end

mutual

/-- Whether a value has a hidden key at any depth. -/
@[grind =] def holds : Value → Bool
  | .array es => holdsElems es
  | .object ms => holdsMembers ms
  | _ => false

def holdsElems : List Value → Bool
  | [] => false
  | e :: es => holds e || holdsElems es

def holdsMembers : List (String × Value) → Bool
  | [] => false
  | (k, v) :: ms => (hidden k || holds v) || holdsMembers ms

end

/-- What a mask makes of one member. -/
def maskMember (x : Value) (m : String × Value) : Value :=
  if hidden m.1 then x else mask hidden x m.2

theorem maskElems_eq (x : Value) (es : List Value) :
    maskElems hidden x es = es.map (mask hidden x) := by
  induction es with
  | nil => rfl
  | cons e es ih => simp [maskElems, ih]

theorem maskMembers_eq (x : Value) (ms : List (String × Value)) :
    maskMembers hidden x ms = ms.map fun m => (m.1, maskMember hidden x m) := by
  induction ms with
  | nil => rfl
  | cons m ms ih => simp [maskMembers, maskMember, ih]

theorem holdsElems_eq (es : List Value) : holdsElems hidden es = es.any (holds hidden) := by
  induction es with
  | nil => rfl
  | cons e es ih => simp [holdsElems, ih]

theorem holdsMembers_eq (ms : List (String × Value)) :
    holdsMembers hidden ms = ms.any fun m => hidden m.1 || holds hidden m.2 := by
  induction ms with
  | nil => rfl
  | cons m ms ih => simp [holdsMembers, ih]

variable {hidden} {v w x y : Value}

theorem holds_elem {es : List Value} (h : holds hidden (.array es) = false) :
    ∀ e ∈ es, holds hidden e = false := by
  rw [holds, holdsElems_eq, List.any_eq_false] at h
  intro e he
  simpa using h e he

theorem holds_member {ms : List (String × Value)} (h : holds hidden (.object ms) = false) :
    ∀ m ∈ ms, hidden m.1 = false ∧ holds hidden m.2 = false := by
  rw [holds, holdsMembers_eq, List.any_eq_false] at h
  intro m hm
  simpa using h m hm

/-- A mask leaves a value without hidden keys as it is. -/
theorem mask_eq_self (h : holds hidden v = false) : mask hidden x v = v := by
  induction v with
  | null | bool | number | string => rfl
  | array es ih =>
    have helems := holds_elem h
    rw [mask, maskElems_eq, List.map_congr_left fun e he => ih e he (helems e he), List.map_id']
  | object ms ih =>
    have hmembers := holds_member h
    have hsame : ∀ m ∈ ms, (m.1, maskMember hidden x m) = m := by
      intro m hm
      rw [maskMember, (hmembers m hm).1, if_neg Bool.false_ne_true, ih m hm (hmembers m hm).2]
    rw [mask, maskMembers_eq, List.map_congr_left hsame, List.map_id']

theorem mask_mask : mask hidden y (mask hidden x v) = mask hidden y v := by
  induction v with
  | null | bool | number | string => rfl
  | array es ih =>
    simp only [mask, maskElems_eq, List.map_map]
    rw [List.map_congr_left fun e he => by simpa using ih e he]
  | object ms ih =>
    simp only [mask, maskMembers_eq, List.map_map]
    congr 1
    apply List.map_congr_left
    intro m hm
    by_cases hk : hidden m.1 = true
    · simp [maskMember, hk]
    · simp [maskMember, hk, ih m hm]

theorem holds_mask : holds hidden (mask hidden x v) = holds hidden v := by
  induction v with
  | null | bool | number | string => rfl
  | array es ih =>
    rw [mask, holds, holds, maskElems_eq, holdsElems_eq, holdsElems_eq, List.any_map,
      Bool.eq_iff_iff, List.any_eq_true, List.any_eq_true]
    refine exists_congr fun e => and_congr_right fun he => ?_
    rw [Function.comp_apply, ih e he]
  | object ms ih =>
    rw [mask, holds, holds, maskMembers_eq, holdsMembers_eq, holdsMembers_eq, List.any_map,
      Bool.eq_iff_iff, List.any_eq_true, List.any_eq_true]
    refine exists_congr fun m => and_congr_right fun hm => ?_
    by_cases hk : hidden m.1 = true
    · simp [hk]
    · simp [maskMember, hk, ih m hm]

@[simp] theorem isObject_mask : (mask hidden x v).isObject = v.isObject := by
  cases v <;> rfl

theorem lookup_mask (ms : List (String × Value)) (key : String) :
    (maskMembers hidden x ms).lookup key =
      (ms.lookup key).map fun v => if hidden key then x else mask hidden x v := by
  induction ms with
  | nil => rfl
  | cons m ms ih =>
    obtain ⟨k, v⟩ := m
    rw [maskMembers, Keyed.lookup_cons, Keyed.lookup_cons, ih]
    by_cases h : key = k
    · rw [if_pos h, if_pos h, h, Option.map_some]
    · rw [if_neg h, if_neg h]

/-- Under a key that is not hidden a mask and a value have the same, up to the mask. -/
theorem child_mask {key : String} (h : hidden key = false) :
    (mask hidden x v).child key = mask hidden x (v.child key) := by
  cases v with
  | null | bool | number | string | array => rfl
  | object ms =>
    rw [mask, child_object, child_object, lookup_mask]
    cases ms.lookup key with
    | none => rfl
    | some w => simp [h]

theorem read_mask {keys : List String} (h : ∀ key ∈ keys, hidden key = false) :
    (mask hidden x v).read keys = mask hidden x (v.read keys) := by
  induction keys generalizing v with
  | nil => rfl
  | cons key keys ih =>
    rw [List.forall_mem_cons] at h
    rw [read, child_mask h.1, ih h.2, read]

/-- Two masks of a value with a hidden key differ as what they put there does. -/
theorem mask_injective (hholds : holds hidden v = true)
    (h : (mask hidden x v).normalize = (mask hidden y v).normalize) : x.normalize = y.normalize := by
  induction v with
  | null | bool | number | string => cases hholds
  | array es ih =>
    rw [holds, holdsElems_eq, List.any_eq_true] at hholds
    obtain ⟨e, he, hholds⟩ := hholds
    simp only [mask, normalize, maskElems_eq, normalizeElems_eq, List.map_map, array.injEq] at h
    exact ih e he hholds (List.map_inj_left.mp h e he)
  | object ms ih =>
    rw [holds, holdsMembers_eq, List.any_eq_true] at hholds
    obtain ⟨m, hm, hholds⟩ := hholds
    have hsorted : ∀ z, (mask hidden z (.object ms)).normalize =
        .object ((Keyed.sortOn Prod.fst ms).map fun m => (m.1, (maskMember hidden z m).normalize)) := by
      intro z
      rw [mask, normalize, maskMembers_eq, normalizeMembers_eq, List.map_map, Keyed.sortOn_map]
      · rfl
      · exact fun _ => rfl
    rw [hsorted x, hsorted y, object.injEq] at h
    have hmember := List.map_inj_left.mp h m (Keyed.mem_sortOn.mpr hm)
    have hvalue : (maskMember hidden x m).normalize = (maskMember hidden y m).normalize :=
      congrArg Prod.snd hmember
    by_cases hk : hidden m.1 = true
    · simpa [maskMember, hk] using hvalue
    · have hbelow : holds hidden m.2 = true := by simpa [hk] using hholds
      simp only [maskMember, hk] at hvalue
      exact ih m hm hbelow hvalue

section Alter

/-- Change the value at the end of a list of keys, if there is one. -/
def alterMember (key : String) (f : Value → Value) :
    List (String × Value) → List (String × Value)
  | [] => []
  | (k, v) :: ms => if key = k then (k, f v) :: ms else (k, v) :: alterMember key f ms

@[grind =] def alter (f : Value → Value) : List String → Value → Value
  | [], v => f v
  | key :: keys, .object ms => .object (alterMember key (alter f keys) ms)
  | _ :: _, v => v

variable {f : Value → Value} {key : String}

theorem lookup_alterMember (ms : List (String × Value)) (l : String) :
    (alterMember key f ms).lookup l =
      if l = key then (ms.lookup l).map f else ms.lookup l := by
  induction ms with
  | nil => simp [alterMember]
  | cons m ms ih =>
    obtain ⟨k, v⟩ := m
    rw [alterMember]
    by_cases hk : key = k
    · rw [if_pos hk, Keyed.lookup_cons, Keyed.lookup_cons]
      by_cases hl : l = k
      · rw [if_pos hl, if_pos hl, if_pos (hl.trans hk.symm), Option.map_some]
      · rw [if_neg hl, if_neg hl, if_neg fun h => hl (h.trans hk)]
    · rw [if_neg hk, Keyed.lookup_cons, Keyed.lookup_cons, ih]
      by_cases hl : l = k
      · rw [if_pos hl, if_pos hl, if_neg fun h => hk (h.symm.trans hl)]
      · rw [if_neg hl, if_neg hl]

theorem maskMembers_alterMember (hf : ∀ v, mask hidden x (f v) = mask hidden x v)
    (ms : List (String × Value)) :
    maskMembers hidden x (alterMember key f ms) = maskMembers hidden x ms := by
  induction ms with
  | nil => rfl
  | cons m ms ih =>
    obtain ⟨k, v⟩ := m
    rw [alterMember]
    by_cases hk : key = k
    · rw [if_pos hk, maskMembers, maskMembers, hf]
    · rw [if_neg hk, maskMembers, maskMembers, ih]

/-- A change that does not show under a mask does not show under it at any place. -/
theorem mask_alter (hf : ∀ v, mask hidden x (f v) = mask hidden x v) (keys : List String)
    (v : Value) : mask hidden x (alter f keys v) = mask hidden x v := by
  induction keys generalizing v with
  | nil => exact hf v
  | cons key keys ih =>
    cases v with
    | null | bool | number | string | array => rfl
    | object ms => rw [alter, mask, mask, maskMembers_alterMember ih]

theorem read_alter {keys : List String} (h : v.read keys ≠ .null) :
    (alter f keys v).read keys = f (v.read keys) := by
  induction keys generalizing v with
  | nil => rfl
  | cons key keys ih =>
    cases v with
    | null | bool | number | string | array => exact absurd (read_null keys) h
    | object ms =>
      rw [read, child_object] at h
      rw [alter, read, read, child_object, child_object, lookup_alterMember, if_pos rfl]
      cases hlookup : ms.lookup key with
      | none =>
        rw [hlookup] at h
        exact absurd (read_null keys) h
      | some w =>
        rw [hlookup] at h
        exact ih h

/-- Where two values part, a change of one of them that keeps them apart moves no place. -/
theorem parts_alter (hobject : ∀ v, (f v).isObject = v.isObject) {old new : Value}
    {keys : List String} (hparts : Parts old new keys)
    (hapart : (f (old.read keys)).normalize ≠ (new.read keys).normalize) (keys' : List String) :
    Parts (alter f keys old) new keys' ↔ Parts old new keys' := by
  induction keys generalizing old new keys' with
  | nil =>
    cases keys' with
    | nil =>
      have hleft : Parts (f old) new [] := ⟨by rw [hobject]; exact hparts.1, hapart⟩
      exact iff_of_true hleft hparts
    | cons key keys' =>
      have hnever : ∀ v : Value, v.isObject = old.isObject → ¬ Parts v new (key :: keys') :=
        fun v hv h => hparts.1 ⟨hv ▸ h.1, h.2.1⟩
      exact iff_of_false (hnever _ (hobject old)) (hnever _ rfl)
  | cons key keys ih =>
    obtain ⟨hold, hnew, hbelow⟩ := hparts
    cases old with
    | null | bool | number | string | array => cases hold
    | object ms =>
      cases keys' with
      | nil => exact iff_of_false (fun h => h.1 ⟨rfl, hnew⟩) fun h => h.1 ⟨rfl, hnew⟩
      | cons key' keys' =>
        refine and_congr Iff.rfl (and_congr Iff.rfl ?_)
        rw [alter, child_object, child_object, lookup_alterMember]
        by_cases hkey : key' = key
        · rw [if_pos hkey, hkey]
          rw [child_object] at hbelow
          rw [read, read, child_object] at hapart
          cases hlookup : ms.lookup key with
          | none => exact Iff.rfl
          | some w =>
            rw [hlookup] at hbelow hapart
            exact ih hbelow hapart keys'
        · rw [if_neg hkey]

end Alter

end Json.Value
