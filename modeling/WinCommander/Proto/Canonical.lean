import Mathlib
import WinCommander.Library.JsonText

/-!
# Canonical JSON bytes

The one encoder that produces signing bytes.  It sorts the keys of every object by code point,
so it writes the normal form of a value, and its bytes decide equality up to key order.
-/

namespace FleetProto

open Json

mutual

/-- Text with the keys of every object sorted. -/
def writeCanonical : Value → List Char
  | .object map =>
    '{' :: commaSeparated ((Keyed.sortOn Prod.fst (canonicalMembers map)).map
      fun m => writeString m.1 ++ ':' :: m.2) ++ ['}']
  | .array arr => '[' :: commaSeparated (canonicalElems arr) ++ [']']
  | .null => Value.null.write
  | .bool b => (Value.bool b).write
  | .number n => (Value.number n).write
  | .string s => (Value.string s).write

def canonicalElems : List Value → List (List Char)
  | [] => []
  | e :: es => writeCanonical e :: canonicalElems es

def canonicalMembers : List (String × Value) → List (String × List Char)
  | [] => []
  | (k, v) :: ms => (k, writeCanonical v) :: canonicalMembers ms

end

private theorem canonicalElems_eq {es : List Value}
    (ih : ∀ e ∈ es, writeCanonical e = e.normalize.write) :
    canonicalElems es = Value.writeElems (Value.normalizeElems es) := by
  induction es with
  | nil => rfl
  | cons e es ihes =>
    rw [List.forall_mem_cons] at ih
    simp only [canonicalElems, Value.normalizeElems, Value.writeElems, ih.1, ihes ih.2]

private theorem canonicalMembers_eq {ms : List (String × Value)}
    (ih : ∀ m ∈ ms, writeCanonical m.2 = m.2.normalize.write) :
    canonicalMembers ms = (Value.normalizeMembers ms).map fun m => (m.1, m.2.write) := by
  induction ms with
  | nil => rfl
  | cons m ms ihms =>
    rw [List.forall_mem_cons] at ih
    simp only [canonicalMembers, Value.normalizeMembers, List.map_cons, ih.1, ihms ih.2]

/-- The encoder writes the normal form. -/
theorem writeCanonical_eq (v : Value) : writeCanonical v = v.normalize.write := by
  induction v with
  | null => rfl
  | bool b => rfl
  | number n => rfl
  | string s => rfl
  | array es ih => simp only [writeCanonical, Value.normalize, Value.write, canonicalElems_eq ih]
  | object ms ih =>
    have hsort : Keyed.sortOn Prod.fst
          ((Value.normalizeMembers ms).map fun m => (m.1, m.2.write)) =
        (Keyed.sortOn Prod.fst (Value.normalizeMembers ms)).map fun m => (m.1, m.2.write) :=
      Keyed.sortOn_map (fun _ => rfl) _
    have hmember : writeMember = fun m => writeString m.1 ++ ':' :: m.2.write := rfl
    simp only [writeCanonical, Value.normalize, Value.write, writeMembers_eq,
      canonicalMembers_eq ih, hsort, List.map_map, Function.comp_def, hmember]

/-- The signing bytes of a value. -/
def canonicalJsonBytes (v : Value) : List UInt8 := utf8 (writeCanonical v)

theorem canonicalJsonBytes_eq_iff_normalize {v w : Value} :
    canonicalJsonBytes v = canonicalJsonBytes w ↔ v.normalize = w.normalize := by
  constructor
  · intro h
    have htext : writeCanonical v = writeCanonical w := utf8_injective h
    rw [writeCanonical_eq, writeCanonical_eq] at htext
    exact Value.write_injective htext
  · intro h
    rw [canonicalJsonBytes, canonicalJsonBytes, writeCanonical_eq, writeCanonical_eq, h]

/-- Two values have the same signing bytes exactly when they differ in key order only. -/
theorem canonicalJsonBytes_eq_iff {v w : Value} (hv : v.UniqueKeys) :
    canonicalJsonBytes v = canonicalJsonBytes w ↔ v.KeyOrderEq w :=
  canonicalJsonBytes_eq_iff_normalize.trans (Value.normalize_eq_iff hv)

/-- The text of an object starts with its least key. -/
theorem writeCanonical_object {ms : List (String × Value)} {k : String} {v : Value}
    (hk : (k, v) ∈ ms) (hle : ∀ m ∈ ms, k ≤ m.1) :
    ∃ rest, writeCanonical (.object ms) = '{' :: (writeString k ++ ':' :: rest) := by
  have hmem : (k, v.normalize) ∈ Value.normalizeMembers ms := by
    rw [Value.normalizeMembers_eq]
    exact List.mem_map_of_mem (f := fun m => (m.1, m.2.normalize)) hk
  have hle' : ∀ m ∈ Value.normalizeMembers ms, Prod.fst (k, v.normalize) ≤ Prod.fst m := by
    intro m hm
    rw [Value.normalizeMembers_eq] at hm
    obtain ⟨n, hn, rfl⟩ := List.mem_map.mp hm
    exact hle n hn
  obtain ⟨m, rest, hs, _, hm⟩ := Keyed.sortOn_head hmem hle'
  rw [writeCanonical_eq, Value.normalize, Value.write, writeMembers_eq, hs, List.map_cons]
  simp only at hm
  cases rest with
  | nil => exact ⟨m.2.write ++ ['}'], by simp [commaSeparated, writeMember, hm]⟩
  | cons n rest =>
    refine ⟨m.2.write ++ ',' :: commaSeparated ((n :: rest).map writeMember) ++ ['}'], ?_⟩
    simp only [commaSeparated, List.map_cons, writeMember, hm, List.cons_append, List.append_assoc]

/-- The eight bytes of an integer, the most significant one first. -/
def toBeBytes (x : Int64) : List UInt8 :=
  [56, 48, 40, 32, 24, 16, 8, 0].map fun shift : UInt64 => (x.toUInt64 >>> shift).toUInt8

@[simp] theorem length_toBeBytes (x : Int64) : (toBeBytes x).length = 8 := rfl

private theorem shift_eq {u v n : ℕ} (hdigit : u / 2 ^ n % 256 = v / 2 ^ n % 256)
    (hshift : u / 2 ^ (n + 8) = v / 2 ^ (n + 8)) : u / 2 ^ n = v / 2 ^ n := by
  have hdiv : ∀ w : ℕ, w / 2 ^ n / 256 = w / 2 ^ (n + 8) := by
    intro w
    rw [Nat.div_div_eq_div_mul, pow_add]
    norm_num
  have hu := hdiv u
  have hv := hdiv v
  omega

theorem toBeBytes_injective {x y : Int64} (h : toBeBytes x = toBeBytes y) : x = y := by
  have hdigit : ∀ n ∈ [56, 48, 40, 32, 24, 16, 8, 0],
      x.toUInt64.toNat / 2 ^ n % 256 = y.toUInt64.toNat / 2 ^ n % 256 := by
    simpa [toBeBytes, ← UInt8.toNat_inj, Nat.shiftRight_eq_div_pow] using h
  simp only [List.forall_mem_cons, List.not_mem_nil, false_implies, implies_true, and_true]
    at hdigit
  obtain ⟨h7, h6, h5, h4, h3, h2, h1, h0⟩ := hdigit
  -- No bit is left above the most significant byte; each byte then fixes eight bits more.
  have htop : x.toUInt64.toNat / 2 ^ (56 + 8) = y.toUInt64.toNat / 2 ^ (56 + 8) := by
    rw [Nat.div_eq_of_lt x.toUInt64.toNat_lt, Nat.div_eq_of_lt y.toUInt64.toNat_lt]
  have hall := shift_eq h0 <| shift_eq h1 <| shift_eq h2 <| shift_eq h3 <| shift_eq h4 <|
    shift_eq h5 <| shift_eq h6 <| shift_eq h7 htop
  have hnat : x.toUInt64.toNat = y.toUInt64.toNat := by simpa using hall
  have hbits : x.toUInt64.toBitVec = y.toUInt64.toBitVec := BitVec.eq_of_toNat_eq hnat
  exact Int64.toBitVec_inj.mp hbits

/-- A version as eight bytes, then the canonical JSON of the value it goes with. -/
def canonicalEpochBytes (version : Int64) (config : Value) : List UInt8 :=
  toBeBytes version ++ canonicalJsonBytes config

theorem canonicalEpochBytes_eq_iff_normalize {x y : Int64} {v w : Value} :
    canonicalEpochBytes x v = canonicalEpochBytes y w ↔ x = y ∧ v.normalize = w.normalize := by
  constructor
  · intro h
    obtain ⟨hxy, hvw⟩ := List.append_inj h (by rw [length_toBeBytes, length_toBeBytes])
    exact ⟨toBeBytes_injective hxy, canonicalJsonBytes_eq_iff_normalize.mp hvw⟩
  · rintro ⟨rfl, h⟩
    rw [canonicalEpochBytes, canonicalEpochBytes, canonicalJsonBytes_eq_iff_normalize.mpr h]

end FleetProto
