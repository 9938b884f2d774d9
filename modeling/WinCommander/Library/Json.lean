import Mathlib.Algebra.Group.Int.Defs
import Mathlib.Data.String.Basic
import WinCommander.Library.Keyed

/-!
# JSON values

A value keeps the members of an object in the order in which they were read.  Two values are
equal up to key order when reordering the members of their objects turns one into the other, and
`normalize` picks one representative of each such class.
-/

namespace Json

/-- The characters a number literal is made of. -/
def isNumberChar (c : Char) : Bool :=
  c.isDigit || c == '-' || c == '+' || c == '.' || c == 'e' || c == 'E'

/-- A number is its literal, as a reader of arbitrary precision keeps it. -/
structure Number where
  literal : List Char
  nonempty : literal ≠ []
  numeric : ∀ c ∈ literal, isNumberChar c = true
  deriving DecidableEq

/-- A JSON value. -/
inductive Value where
  | null
  | bool (b : Bool)
  | number (n : Number)
  | string (s : String)
  | array (elems : List Value)
  | object (members : List (String × Value))

namespace Value

/-- Induction over a value: an array and an object may assume the statement of what they hold. -/
@[elab_as_elim, induction_eliminator]
theorem induct {P : Value → Prop} (null : P .null) (bool : ∀ b, P (.bool b))
    (number : ∀ n, P (.number n)) (string : ∀ s, P (.string s))
    (array : ∀ es, (∀ e ∈ es, P e) → P (.array es))
    (object : ∀ ms, (∀ m ∈ ms, P m.2) → P (.object ms)) (v : Value) : P v := by
  refine @Value.rec P (fun es => ∀ e ∈ es, P e) (fun ms => ∀ m ∈ ms, P m.2) (fun m => P m.2)
    null bool number string array object ?_ ?_ ?_ ?_ ?_ v
  · exact fun e he => absurd he List.not_mem_nil
  · exact fun e es he hes => List.forall_mem_cons.mpr ⟨he, hes⟩
  · exact fun m hm => absurd hm List.not_mem_nil
  · exact fun m ms hm hms => List.forall_mem_cons.mpr ⟨hm, hms⟩
  · exact fun k v hv => hv

mutual

/-- Structural equality, decided. -/
@[grind =] def beq : Value → Value → Bool
  | .null, .null => true
  | .bool a, .bool b => a == b
  | .number a, .number b => a == b
  | .string a, .string b => a == b
  | .array a, .array b => beqElems a b
  | .object a, .object b => beqMembers a b
  | _, _ => false

@[grind =] def beqElems : List Value → List Value → Bool
  | [], [] => true
  | a :: as, b :: bs => beq a b && beqElems as bs
  | _, _ => false

@[grind =] def beqMembers : List (String × Value) → List (String × Value) → Bool
  | [], [] => true
  | (k, a) :: as, (l, b) :: bs => k == l && beq a b && beqMembers as bs
  | _, _ => false

end

private theorem beqElems_iff {es : List Value} (ih : ∀ e ∈ es, ∀ w, beq e w = true ↔ e = w)
    (fs : List Value) : beqElems es fs = true ↔ es = fs := by
  induction es generalizing fs with
  | nil => cases fs <;> simp [beqElems]
  | cons e es ihes =>
    rw [List.forall_mem_cons] at ih
    cases fs with
    | nil => simp [beqElems]
    | cons f fs => simp [beqElems, ih.1 f, ihes ih.2 fs]

private theorem beqMembers_iff {ms : List (String × Value)}
    (ih : ∀ m ∈ ms, ∀ w, beq m.2 w = true ↔ m.2 = w) (ns : List (String × Value)) :
    beqMembers ms ns = true ↔ ms = ns := by
  induction ms generalizing ns with
  | nil => cases ns <;> simp [beqMembers]
  | cons m ms ihms =>
    obtain ⟨k, v⟩ := m
    rw [List.forall_mem_cons] at ih
    cases ns with
    | nil => simp [beqMembers]
    | cons n ns =>
      obtain ⟨l, w⟩ := n
      simp [beqMembers, ih.1 w, ihms ih.2 ns]

theorem beq_iff (v w : Value) : beq v w = true ↔ v = w := by
  induction v generalizing w with
  | null => cases w <;> simp [beq]
  | bool b => cases w <;> simp [beq]
  | number n => cases w <;> simp [beq]
  | string s => cases w <;> simp [beq]
  | array es ih => cases w <;> simp [beq, beqElems_iff ih]
  | object ms ih => cases w <;> simp [beq, beqMembers_iff ih]

instance : DecidableEq Value := fun v w => decidable_of_iff _ (beq_iff v w)

/-- No object inside the value has two members of one key. -/
inductive UniqueKeys : Value → Prop
  | null : UniqueKeys .null
  | bool (b : Bool) : UniqueKeys (.bool b)
  | number (n : Number) : UniqueKeys (.number n)
  | string (s : String) : UniqueKeys (.string s)
  | array {es : List Value} : (∀ e ∈ es, UniqueKeys e) → UniqueKeys (.array es)
  | object {ms : List (String × Value)} : (ms.map Prod.fst).Nodup →
      (∀ m ∈ ms, UniqueKeys m.2) → UniqueKeys (.object ms)

/-- One value becomes the other by reordering the members of objects, at any depth. -/
inductive KeyOrderEq : Value → Value → Prop
  | refl (v : Value) : KeyOrderEq v v
  | trans {u v w : Value} : KeyOrderEq u v → KeyOrderEq v w → KeyOrderEq u w
  | reorder {ms ns : List (String × Value)} : ms.Perm ns → KeyOrderEq (.object ms) (.object ns)
  | elem {v w : Value} (pre post : List Value) : KeyOrderEq v w →
      KeyOrderEq (.array (pre ++ v :: post)) (.array (pre ++ w :: post))
  | member {v w : Value} (k : String) (pre post : List (String × Value)) : KeyOrderEq v w →
      KeyOrderEq (.object (pre ++ (k, v) :: post)) (.object (pre ++ (k, w) :: post))

theorem KeyOrderEq.symm {v w : Value} (h : KeyOrderEq v w) : KeyOrderEq w v := by
  induction h with
  | refl v => exact .refl v
  | trans _ _ ih₁ ih₂ => exact ih₂.trans ih₁
  | reorder h => exact .reorder h.symm
  | elem pre post _ ih => exact .elem pre post ih
  | member k pre post _ ih => exact .member k pre post ih

private theorem KeyOrderEq.map_elems {f : Value → Value} {es : List Value}
    (h : ∀ e ∈ es, KeyOrderEq e (f e)) (pre : List Value) :
    KeyOrderEq (.array (pre ++ es)) (.array (pre ++ es.map f)) := by
  induction es generalizing pre with
  | nil => exact .refl _
  | cons e es ih =>
    rw [List.forall_mem_cons] at h
    have hrest := ih h.2 (pre ++ [f e])
    simp only [List.append_assoc, List.singleton_append] at hrest
    exact (KeyOrderEq.elem pre es h.1).trans hrest

private theorem KeyOrderEq.map_members {f : Value → Value} {ms : List (String × Value)}
    (h : ∀ m ∈ ms, KeyOrderEq m.2 (f m.2)) (pre : List (String × Value)) :
    KeyOrderEq (.object (pre ++ ms)) (.object (pre ++ ms.map fun m => (m.1, f m.2))) := by
  induction ms generalizing pre with
  | nil => exact .refl _
  | cons m ms ih =>
    rw [List.forall_mem_cons] at h
    have hrest := ih h.2 (pre ++ [(m.1, f m.2)])
    simp only [List.append_assoc, List.singleton_append] at hrest
    exact (KeyOrderEq.member m.1 pre ms h.1).trans hrest

mutual

/-- The members of every object in increasing order of their keys. -/
@[grind =] def normalize : Value → Value
  | .null => .null
  | .bool b => .bool b
  | .number n => .number n
  | .string s => .string s
  | .array es => .array (normalizeElems es)
  | .object ms => .object (Keyed.sortOn Prod.fst (normalizeMembers ms))

@[grind =] def normalizeElems : List Value → List Value
  | [] => []
  | e :: es => normalize e :: normalizeElems es

@[grind =] def normalizeMembers : List (String × Value) → List (String × Value)
  | [] => []
  | (k, v) :: ms => (k, normalize v) :: normalizeMembers ms

end

theorem normalizeElems_eq (es : List Value) : normalizeElems es = es.map normalize := by
  induction es with
  | nil => rfl
  | cons e es ih => simp [normalizeElems, ih]

theorem normalizeMembers_eq (ms : List (String × Value)) :
    normalizeMembers ms = ms.map fun m => (m.1, normalize m.2) := by
  induction ms with
  | nil => rfl
  | cons m ms ih => simp [normalizeMembers, ih]

private theorem keys_normalizeMembers (ms : List (String × Value)) :
    (normalizeMembers ms).map Prod.fst = ms.map Prod.fst := by
  simp [normalizeMembers_eq, Function.comp_def]

/-- Every value is its normal form up to key order. -/
theorem keyOrderEq_normalize (v : Value) : KeyOrderEq v v.normalize := by
  induction v with
  | null => exact .refl _
  | bool b => exact .refl _
  | number n => exact .refl _
  | string s => exact .refl _
  | array es ih =>
    rw [normalize, normalizeElems_eq]
    exact KeyOrderEq.map_elems ih []
  | object ms ih =>
    rw [normalize]
    refine KeyOrderEq.trans ?_ (.reorder (Keyed.sortOn_perm Prod.fst _).symm)
    rw [normalizeMembers_eq]
    exact KeyOrderEq.map_members ih []

private theorem UniqueKeys.reorder {ms ns : List (String × Value)} (h : ms.Perm ns)
    (hu : UniqueKeys (.object ms)) : UniqueKeys (.object ns) := by
  cases hu with
  | object hnd hms =>
    exact .object ((h.map Prod.fst).nodup hnd) fun m hm => hms m (h.mem_iff.mpr hm)

/-- Reordering keeps keys unique and does not show in the normal form. -/
theorem KeyOrderEq.normalize_eq {v w : Value} (h : KeyOrderEq v w) (hu : v.UniqueKeys) :
    w.UniqueKeys ∧ v.normalize = w.normalize := by
  induction h with
  | refl v => exact ⟨hu, rfl⟩
  | trans _ _ ih₁ ih₂ =>
    obtain ⟨hv, huv⟩ := ih₁ hu
    obtain ⟨hw, hvw⟩ := ih₂ hv
    exact ⟨hw, huv.trans hvw⟩
  | @reorder ms ns h =>
    refine ⟨hu.reorder h, ?_⟩
    cases hu with
    | object hnd _ =>
      rw [normalize, normalize, Keyed.sortOn_eq_of_perm]
      · rw [normalizeMembers_eq, normalizeMembers_eq]
        exact h.map _
      · rwa [keys_normalizeMembers]
  | @elem v w pre post _ ih =>
    cases hu with
    | array hes =>
      obtain ⟨hw, heq⟩ := ih (hes v (by simp))
      refine ⟨.array fun e he => ?_, by simp [normalize, normalizeElems_eq, heq]⟩
      rcases List.mem_append.mp he with he | he
      · exact hes e (by simp [he])
      · rcases List.mem_cons.mp he with rfl | he
        · exact hw
        · exact hes e (by simp [he])
  | @member v w k pre post _ ih =>
    cases hu with
    | object hnd hms =>
      obtain ⟨hw, heq⟩ := ih (hms (k, v) (by simp))
      refine ⟨.object (by simpa using hnd) fun m hm => ?_,
        by simp [normalize, normalizeMembers_eq, heq]⟩
      rcases List.mem_append.mp hm with hm | hm
      · exact hms m (by simp [hm])
      · rcases List.mem_cons.mp hm with rfl | hm
        · exact hw
        · exact hms m (by simp [hm])

theorem KeyOrderEq.uniqueKeys {v w : Value} (h : KeyOrderEq v w) (hu : v.UniqueKeys) :
    w.UniqueKeys :=
  (h.normalize_eq hu).1

/-- The normal form decides equality up to key order. -/
theorem normalize_eq_iff {v w : Value} (hu : v.UniqueKeys) :
    v.normalize = w.normalize ↔ KeyOrderEq v w := by
  constructor
  · intro h
    exact (keyOrderEq_normalize v).trans (h ▸ (keyOrderEq_normalize w).symm)
  · exact fun h => (h.normalize_eq hu).2

/-- Objects of one normal form have, under each key, members of one normal form. -/
theorem lookup_of_normalize_eq {ms ns : List (String × Value)} (hnd : (ms.map Prod.fst).Nodup)
    (hnd' : (ns.map Prod.fst).Nodup) (h : (object ms).normalize = (object ns).normalize)
    (k : String) : (ms.lookup k).map normalize = (ns.lookup k).map normalize := by
  have hlookup : ∀ ls : List (String × Value), (ls.map Prod.fst).Nodup →
      (Keyed.sortOn Prod.fst (normalizeMembers ls)).lookup k = (ls.lookup k).map normalize := by
    intro ls hls
    rw [Keyed.lookup_perm (Keyed.sortOn_perm Prod.fst _), normalizeMembers_eq, Keyed.lookup_map]
    rw [((Keyed.sortOn_perm Prod.fst _).map Prod.fst).nodup_iff, keys_normalizeMembers]
    exact hls
  rw [← hlookup ms hnd, ← hlookup ns hnd']
  simp only [normalize, object.injEq] at h
  rw [h]

theorem keys_perm_of_normalize_eq {ms ns : List (String × Value)}
    (h : (object ms).normalize = (object ns).normalize) :
    (ms.map Prod.fst).Perm (ns.map Prod.fst) := by
  have hsorted : ∀ ls : List (String × Value),
      (ls.map Prod.fst).Perm ((Keyed.sortOn Prod.fst (normalizeMembers ls)).map Prod.fst) := by
    intro ls
    rw [← keys_normalizeMembers ls]
    exact ((Keyed.sortOn_perm Prod.fst _).map Prod.fst).symm
  simp only [normalize, object.injEq] at h
  exact (hsorted ms).trans (h ▸ (hsorted ns).symm)

/-- Two objects with the same keys in the same order: each member decides for itself. -/
theorem normalize_object_iff {ms ns : List (String × Value)}
    (hkeys : ms.map Prod.fst = ns.map Prod.fst) (hnd : (ms.map Prod.fst).Nodup) :
    (object ms).normalize = (object ns).normalize ↔
      ms.map (fun m => m.2.normalize) = ns.map (fun m => m.2.normalize) := by
  constructor
  · intro h
    have hlookup := lookup_of_normalize_eq hnd (hkeys ▸ hnd) h
    have hlen : ms.length = ns.length := by simpa using congrArg List.length hkeys
    refine List.ext_getElem (by simpa using hlen) fun i hi hj => ?_
    simp only [List.length_map] at hi hj
    have hkey : ms[i].1 = ns[i].1 := by
      have := List.getElem_of_eq hkeys (i := i) (by simpa using hi)
      simpa using this
    have hm : ms.lookup ms[i].1 = some ms[i].2 :=
      (Keyed.lookup_eq_some_iff_mem hnd).mpr (List.getElem_mem hi)
    have hn : ns.lookup ns[i].1 = some ns[i].2 :=
      (Keyed.lookup_eq_some_iff_mem (hkeys ▸ hnd)).mpr (List.getElem_mem hj)
    have heq := hlookup ms[i].1
    rw [hm, hkey, hn] at heq
    simpa using heq
  · intro h
    have hmembers : normalizeMembers ms = normalizeMembers ns := by
      rw [normalizeMembers_eq, normalizeMembers_eq]
      have hzip := congrArg₂ List.zip hkeys h
      simpa [List.zip_map'] using hzip
    rw [normalize, normalize, hmembers]

/-- The member of an object with a given key. -/
def get : Value → String → Option Value
  | .object members, key => members.lookup key
  | _, _ => none

def asStr : Value → Option String
  | .string s => some s
  | _ => none

/-- The number that a nonempty sequence of decimal digits writes. -/
def decimal (digits : List Char) : Option ℕ :=
  if digits ≠ [] ∧ digits.all Char.isDigit then
    some (digits.foldl (fun n d => 10 * n + (d.toNat - '0'.toNat)) 0)
  else none

def integerLiteral : List Char → Option ℤ
  | '-' :: digits => (decimal digits).map fun n => -(n : ℤ)
  | digits => (decimal digits).map fun n => (n : ℤ)

/-- An integer literal within the signed 64-bit range. -/
def asI64 : Value → Option Int64
  | .number n =>
    (integerLiteral n.literal).bind fun i =>
      if -2 ^ 63 ≤ i ∧ i < 2 ^ 63 then some (Int64.ofInt i) else none
  | _ => none

/-- A value of one normal form with an object has the members of that object. -/
theorem get_of_normalize_eq {v : Value} {ms : List (String × Value)}
    (hnd : (ms.map Prod.fst).Nodup) (h : v.normalize = (object ms).normalize) (k : String) :
    (v.get k).map normalize = (ms.lookup k).map normalize := by
  cases v with
  | object ns =>
    have hnd' : (ns.map Prod.fst).Nodup := (keys_perm_of_normalize_eq h).nodup_iff.mpr hnd
    exact lookup_of_normalize_eq hnd' hnd h k
  | null => simp [normalize] at h
  | bool b => simp [normalize] at h
  | number n => simp [normalize] at h
  | string s => simp [normalize] at h
  | array es => simp [normalize] at h

theorem normalize_eq_string {v : Value} {s : String} (h : v.normalize = .string s) :
    v = .string s := by
  cases v with
  | string t => exact h
  | null => simp [normalize] at h
  | bool b => simp [normalize] at h
  | number n => simp [normalize] at h
  | array es => simp [normalize] at h
  | object ms => simp [normalize] at h

end Value

/-- A value whose objects have unique keys, as a map of members has. -/
structure Document where
  value : Value
  uniqueKeys : value.UniqueKeys
  deriving DecidableEq

end Json
