import WinCommander.Library.JsonPath
import WinCommander.Library.JsonText
import WinCommander.Library.Outcome

/-!
# Records as JSON

A type is written as a value and read back.  The reader of a record takes its fields from the
members of an object, in any order, or from an array, in the order of declaration.  How a reader
words a value that is not what it expects is a parameter.
-/

namespace Serde

open Json Outcome

/-- A type with its form as a value.  Reading and writing again changes nothing. -/
structure Format (α : Type) where
  toValue : α → Except String Value
  fromValue : Value → Except String α
  stable : ∀ {a b : α} {v : Value}, toValue a = .ok v → fromValue v = .ok b → toValue b = .ok v

section Formats

variable {α : Type}

/-- What is read from a value that agrees with a written one at a path is written the same there. -/
def Format.KeepsAt (f : Format α) (path : List String) : Prop :=
  ∀ {a b : α} {va v vb : Value}, f.toValue a = .ok va → f.fromValue v = .ok b →
    f.toValue b = .ok vb → v.atPath path = va.atPath path → vb.atPath path = va.atPath path

private theorem lookup_of_mem [DecidableEq α] {rows : List (α × Value)} {row : α × Value}
    (hnd : (rows.map Prod.fst).Nodup) (h : row ∈ rows) : rows.lookup row.1 = some row.2 := by
  induction rows with
  | nil => exact absurd h List.not_mem_nil
  | cons first rows ih =>
    rw [List.map_cons, List.nodup_cons] at hnd
    rcases List.mem_cons.mp h with rfl | hmem
    · simp [List.lookup]
    · have hne : row.1 ≠ first.1 := fun heq => hnd.1 (heq ▸ List.mem_map_of_mem hmem)
      have hbeq : (row.1 == first.1) = false := by simpa using hne
      rw [List.lookup, hbeq]
      exact ih hnd.2 hmem

/-- The format of the values of one real run: each has its text, and no other is known. -/
def Format.recorded [DecidableEq α] (rows : List (α × Value)) (unknown : String)
    (hnd : (rows.map Prod.fst).Nodup) : Format α where
  toValue a :=
    match rows.lookup a with
    | some v => .ok v
    | none => .error unknown
  fromValue v :=
    match rows.find? fun row => row.2 = v with
    | some row => .ok row.1
    | none => .error unknown
  stable := by
    intro a b v _ hread
    cases hfind : rows.find? fun row => row.2 = v with
    | none =>
      rw [hfind] at hread
      exact absurd hread (by simp)
    | some row =>
      rw [hfind] at hread
      have hb : row.1 = b := Except.ok.inj hread
      have hv : row.2 = v := by simpa using List.find?_some hfind
      have hlookup : rows.lookup row.1 = some row.2 :=
        lookup_of_mem hnd (List.mem_of_find?_eq_some hfind)
      rw [← hb, hlookup, hv]

end Formats

section Readers

variable {α : Type} (mismatch : Value → String → String)

def string : Value → Except String String
  | .string s => .ok s
  | v => .error (mismatch v "a string")

def bool : Value → Except String Bool
  | .bool b => .ok b
  | v => .error (mismatch v "a boolean")

/-- The value of a number literal without sign, point and exponent. -/
def natural : Value → Option ℕ
  | .number n => Value.decimal n.literal
  | _ => none

def u32 (v : Value) : Except String UInt32 :=
  match natural v with
  | some n => if n < 2 ^ 32 then .ok (UInt32.ofNat n) else .error (mismatch v "u32")
  | none => .error (mismatch v "u32")

def option (read : Value → Except String α) : Value → Except String (Option α)
  | .null => .ok none
  | v => (read v).map some

def elements (read : Value → Except String α) : List Value → Except String (List α)
  | [] => .ok []
  | v :: vs => do
    let a ← read v
    let as ← elements read vs
    pure (a :: as)

def sequence (read : Value → Except String α) : Value → Except String (List α)
  | .array vs => elements read vs
  | v => .error (mismatch v "a sequence")

/-- The fields of a record by name.  An array may leave out fields at the end, as far as they have
defaults. -/
def record (name : String) (fields : List String) (required : ℕ) :
    Value → Except String (List (String × Value))
  | .object ms => .ok ms
  | .array vs =>
    if vs.length < required then
      .error (s!"invalid length {vs.length}, expected struct " ++ name)
    else if fields.length < vs.length then
      .error (s!"invalid length {vs.length}, expected fewer elements in array")
    else .ok (fields.zip vs)
  | v => .error (mismatch v ("struct " ++ name))

def field (ms : List (String × Value)) (name : String) (read : Value → Except String α) :
    Except String (Option α) :=
  match ms.lookup name with
  | some v => (read v).map some
  | none => .ok none

def required (name : String) (a : Option α) : Except String α :=
  okOr a ("missing field \x60" ++ name ++ "\x60")

end Readers

section Writers

def ofNatural (n : ℕ) : Value := .number (Number.ofInt n)

def ofOption {α : Type} (write : α → Value) : Option α → Value
  | some a => write a
  | none => .null

end Writers

section RoundTrips

variable {α : Type} {mismatch : Value → String → String}

theorem decimal_toDigits (n : ℕ) : Value.decimal (Nat.toDigits 10 n) = some n := by
  have hdigits : (Nat.toDigits 10 n).all Char.isDigit = true :=
    List.all_eq_true.mpr fun c hc => Nat.isDigit_of_mem_toDigits (by decide) (by decide) hc
  have hvalue : (Nat.toDigits 10 n).foldl (fun m c => 10 * m + (c.toNat - '0'.toNat)) 0 = n := by
    rw [← Nat.ofDigitChars_eq_foldl]
    exact Nat.ofDigitChars_ten_toDigits
  rw [Value.decimal, if_pos ⟨Nat.toDigits_ne_nil, hdigits⟩, hvalue]

private theorem toList_repr (n : ℕ) : n.repr.toList = Nat.toDigits 10 n := by
  rw [Nat.repr_eq_ofList_toDigits, String.toList_ofList]

theorem natural_ofNatural (n : ℕ) : natural (ofNatural n) = some n := by
  have hliteral : (Number.ofInt (n : ℤ)).literal = Nat.toDigits 10 n := toList_repr n
  show Value.decimal (Number.ofInt (n : ℤ)).literal = some n
  rw [hliteral, decimal_toDigits]

private theorem integerLiteral_toDigits (n : ℕ) :
    Value.integerLiteral (Nat.toDigits 10 n) = some (n : ℤ) := by
  have hplain : ∀ c ∈ Nat.toDigits 10 n, c ≠ '-' := by
    rintro c hc rfl
    exact absurd (Nat.isDigit_of_mem_toDigits (by decide) (by decide) hc) (by decide)
  have hdecimal := decimal_toDigits n
  cases hds : Nat.toDigits 10 n with
  | nil => exact absurd hds Nat.toDigits_ne_nil
  | cons c cs =>
    have hc : c ≠ '-' := hplain c (hds ▸ List.mem_cons_self)
    rw [hds] at hdecimal
    rw [Value.integerLiteral.eq_2 _ (by rintro ds heq; exact hc (List.cons.inj heq).1), hdecimal]
    rfl

theorem integerLiteral_ofInt (i : ℤ) :
    Value.integerLiteral (Number.ofInt i).literal = some i := by
  cases i with
  | ofNat n =>
    have hliteral : (Number.ofInt (.ofNat n)).literal = Nat.toDigits 10 n := toList_repr n
    rw [hliteral, integerLiteral_toDigits]
    rfl
  | negSucc n =>
    have hliteral : (Number.ofInt (.negSucc n)).literal = '-' :: Nat.toDigits 10 (n + 1) := by
      show (Int.repr (.negSucc n)).toList = _
      rw [Int.repr, String.toList_append, toList_repr]
      rfl
    rw [hliteral, Value.integerLiteral, decimal_toDigits]
    rfl

@[simp] theorem asI64_ofInt (x : Int64) : (Value.number (.ofInt x.toInt)).asI64 = some x := by
  have hrange : -2 ^ 63 ≤ x.toInt ∧ x.toInt < 2 ^ 63 := ⟨x.le_toInt, x.toInt_lt⟩
  rw [Value.asI64, integerLiteral_ofInt, Option.bind_some, if_pos hrange, Int64.ofInt_toInt]

@[simp] theorem u32_ofNatural (n : UInt32) : u32 mismatch (ofNatural n.toNat) = .ok n := by
  unfold u32
  rw [natural_ofNatural]
  dsimp only
  rw [if_pos n.toNat_lt, UInt32.ofNat_toNat]

@[simp] theorem option_ofOption {write : α → Value} {read : Value → Except String α}
    (hread : ∀ a, read (write a) = .ok a) (hnull : ∀ a, write a ≠ .null) (a : Option α) :
    option read (ofOption write a) = .ok a := by
  cases a with
  | none => rfl
  | some a =>
    have hsome : option read (write a) = (read (write a)).map some := by
      cases hw : write a with
      | null => exact absurd hw (hnull a)
      | _ => rfl
    rw [ofOption, hsome, hread]
    rfl

theorem elements_map (write : α → Value) {read : Value → Except String α}
    (hread : ∀ a, read (write a) = .ok a) (as : List α) :
    elements read (as.map write) = .ok as := by
  induction as with
  | nil => rfl
  | cons a as ih =>
    rw [List.map_cons, elements, hread, ih]
    rfl

theorem field_some {ms : List (String × Value)} {name : String} {v : Value} {a : α}
    {read : Value → Except String α} (hlookup : ms.lookup name = some v) (hread : read v = .ok a) :
    field ms name read = .ok (some a) := by
  rw [field, hlookup]
  dsimp only
  rw [hread]
  rfl

theorem field_none {ms : List (String × Value)} {name : String}
    {read : Value → Except String α} (hlookup : ms.lookup name = none) :
    field ms name read = .ok none := by
  rw [field, hlookup]

/-- A field that is there is read. -/
theorem read_of_field {ms : List (String × Value)} {name : String} {v : Value} {o : Option α}
    {read : Value → Except String α} (h : field ms name read = .ok o)
    (hlookup : ms.lookup name = some v) : ∃ a, read v = .ok a ∧ o = some a := by
  rw [field, hlookup] at h
  dsimp only at h
  cases hread : read v with
  | error error =>
    rw [hread] at h
    exact absurd h (by simp [Except.map])
  | ok a =>
    rw [hread] at h
    exact ⟨a, rfl, (Except.ok.inj h).symm⟩

end RoundTrips

end Serde
