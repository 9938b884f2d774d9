import WinCommander.Library.Json

/-!
# How deep a value is

A reader of texts follows arrays and objects to a fixed depth.  A value that is written from shallow
parts is shallow.
-/

namespace Json.Value

mutual

/-- The arrays and objects that are inside one another. -/
@[grind =] def depth : Value → ℕ
  | .array es => depthElems es + 1
  | .object ms => depthMembers ms + 1
  | _ => 0

def depthElems : List Value → ℕ
  | [] => 0
  | e :: es => max (depth e) (depthElems es)

def depthMembers : List (String × Value) → ℕ
  | [] => 0
  | (_, v) :: ms => max (depth v) (depthMembers ms)

end

@[simp] theorem depth_number (n : Number) : (number n).depth = 0 := by simp [depth]

@[simp] theorem depth_string (s : String) : (string s).depth = 0 := by simp [depth]

theorem depthMembers_le {ms : List (String × Value)} {n : ℕ} :
    depthMembers ms ≤ n ↔ ∀ m ∈ ms, m.2.depth ≤ n := by
  induction ms with
  | nil => simp [depthMembers]
  | cons m ms ih => simp [depthMembers, ih]

theorem depth_object_le {ms : List (String × Value)} {n : ℕ} :
    (object ms).depth ≤ n + 1 ↔ ∀ m ∈ ms, m.2.depth ≤ n := by
  rw [depth, Nat.add_le_add_iff_right, depthMembers_le]

theorem depth_of_asStr {v : Value} {s : String} (h : v.asStr = some s) : v.depth = 0 := by
  cases v with
  | string t => exact depth_string t
  | null => simp [depth]
  | bool b => simp [depth]
  | number n => exact depth_number n
  | array es => simp [asStr] at h
  | object ms => simp [asStr] at h

theorem depth_of_asI64 {v : Value} {i : Int64} (h : v.asI64 = some i) : v.depth = 0 := by
  cases v with
  | number n => exact depth_number n
  | string t => exact depth_string t
  | null => simp [depth]
  | bool b => simp [depth]
  | array es => simp [asI64] at h
  | object ms => simp [asI64] at h

end Json.Value
