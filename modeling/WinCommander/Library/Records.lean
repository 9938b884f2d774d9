import WinCommander.Library.Serde

/-!
# Records read without messages

The fields of a record that does not look at names it does not know, each at most once.
-/

namespace Json

/-- The number of an unsigned field of 64 bits. -/
def Value.asU64 (v : Value) : Option ℕ := (Serde.natural v).filter (· < 2 ^ 64)

theorem Value.asU64_ofNatural {n : ℕ} (h : n < 2 ^ 64) : (Serde.ofNatural n).asU64 = some n := by
  rw [Value.asU64, Serde.natural_ofNatural, Option.filter_some, if_pos (by simpa using h)]

/-- A field that may be left out, or written as `null`. -/
def optionalString : Option Value → Option (Option String)
  | none => some none
  | some .null => some none
  | some (.string s) => some (some s)
  | some _ => none

def uniqueField (ms : List (String × Value)) (name : String) : Option (Option Value) :=
  match ms.filter (·.1 = name) with
  | [] => some none
  | [m] => some (some m.2)
  | _ => none

/-- The fields by name, or, in an array, all of them in order. -/
def recordFields (names : List String) : Value → Option (List (Option Value))
  | .object ms => names.mapM (uniqueField ms)
  | .array vs => if vs.length = names.length then some (vs.map some) else none
  | _ => none

end Json
