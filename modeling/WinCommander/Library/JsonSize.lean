import Mathlib.Data.List.FinRange
import WinCommander.Library.JsonText

/-!
# The size of compact JSON text

How many bytes a text takes, and what escaping and punctuation add to it.
-/

namespace Json

/-- The number of bytes of a text. -/
def size (text : List Char) : ℕ := (text.map Char.utf8Size).sum

@[simp] theorem size_nil : size [] = 0 := rfl

@[simp] theorem size_cons (c : Char) (text : List Char) :
    size (c :: text) = c.utf8Size + size text := by
  simp [size]

@[simp] theorem size_append (s t : List Char) : size (s ++ t) = size s + size t := by
  simp [size]

@[simp] theorem length_utf8 (text : List Char) : (utf8 text).length = size text := by
  induction text with
  | nil => rfl
  | cons c text ih =>
    have hcons : utf8 (c :: text) = String.utf8EncodeChar c ++ utf8 text := rfl
    rw [hcons, List.length_append, ih, String.length_utf8EncodeChar, size_cons]

theorem utf8ByteSize_ofList (text : List Char) : (String.ofList text).utf8ByteSize = size text := by
  rw [← length_utf8, ← String.size_toByteArray, String.toByteArray_ofList]
  simp [List.utf8Encode, utf8]

theorem size_toList (s : String) : size s.toList = s.utf8ByteSize := by
  rw [← utf8ByteSize_ofList, String.ofList_toList]

/-- A text of one-byte characters. -/
theorem size_eq_length {text : List Char} (h : ∀ c ∈ text, c.utf8Size = 1) :
    size text = text.length := by
  induction text with
  | nil => rfl
  | cons c text ih =>
    rw [List.forall_mem_cons] at h
    rw [size_cons, h.1, ih h.2, List.length_cons, Nat.add_comm]

section Strings

private theorem hexDigit_utf8Size : ∀ n : Fin 16, (hexDigit n).utf8Size = 1 := by decide

/-- An escape takes six bytes at most. -/
theorem size_escapeChar_le (c : Char) : size (escapeChar c) ≤ 6 * c.utf8Size := by
  have hpos := c.utf8Size_pos
  unfold escapeChar
  split
  case h_8 =>
    by_cases hc : c.toNat < 0x20
    · have hhigh := hexDigit_utf8Size ⟨c.toNat / 16, by omega⟩
      have hlow := hexDigit_utf8Size ⟨c.toNat % 16, by omega⟩
      have hplain : '\\'.utf8Size = 1 ∧ 'u'.utf8Size = 1 ∧ '0'.utf8Size = 1 := by decide
      simp only [hc, if_true, size_cons, size_nil, hplain.1, hplain.2.1, hplain.2.2]
      simp only at hhigh hlow
      omega
    · simp only [hc, if_false, size_cons, size_nil]
      omega
  all_goals decide

theorem size_flatMap_escapeChar_le (text : List Char) :
    size (text.flatMap escapeChar) ≤ 6 * size text := by
  induction text with
  | nil => simp
  | cons c text ih =>
    have hchar := size_escapeChar_le c
    simp only [List.flatMap_cons, size_append, size_cons]
    omega

theorem size_writeString (s : String) :
    size (writeString s) = size (s.toList.flatMap escapeChar) + 2 := by
  have hquote : '"'.utf8Size = 1 := by decide
  simp only [writeString, size_cons, size_append, size_nil, hquote]
  omega

theorem size_writeString_le (s : String) : size (writeString s) ≤ 6 * s.utf8ByteSize + 2 := by
  have hescape := size_flatMap_escapeChar_le s.toList
  rw [size_toList] at hescape
  rw [size_writeString]
  omega

/-- A text without characters that are escaped is written as it is. -/
theorem size_writeString_plain {text : List Char} (h : ∀ c ∈ text, escapeChar c = [c]) :
    size (writeString (String.ofList text)) = size text + 2 := by
  have hsame : text.flatMap escapeChar = text := by
    induction text with
    | nil => rfl
    | cons c text ih =>
      rw [List.forall_mem_cons] at h
      rw [List.flatMap_cons, h.1, ih h.2, List.singleton_append]
  rw [size_writeString, String.toList_ofList, hsame]

end Strings

section Punctuation

theorem size_commaSeparated_le (texts : List (List Char)) :
    size (commaSeparated texts) ≤ (texts.map size).sum + texts.length := by
  induction texts with
  | nil => simp [commaSeparated]
  | cons text texts ih =>
    have hcomma : ','.utf8Size = 1 := by decide
    cases texts with
    | nil => simp [commaSeparated]
    | cons next rest =>
      simp only [commaSeparated, size_append, size_cons, hcomma, List.map_cons, List.sum_cons,
        List.length_cons] at ih ⊢
      omega

theorem size_write_object_le (ms : List (String × Value)) :
    size (Value.object ms).write ≤ (ms.map fun m => size (writeMember m)).sum + ms.length + 2 := by
  have hbraces : '{'.utf8Size = 1 ∧ '}'.utf8Size = 1 := by decide
  have hmembers := size_commaSeparated_le (ms.map writeMember)
  rw [List.map_map, List.length_map] at hmembers
  simp only [Value.write, writeMembers_eq, size_cons, size_append, size_nil, hbraces.1, hbraces.2]
  simp only [Function.comp_def] at hmembers
  omega

theorem size_write_array_le (es : List Value) :
    size (Value.array es).write ≤ (es.map fun e => size e.write).sum + es.length + 2 := by
  have hbrackets : '['.utf8Size = 1 ∧ ']'.utf8Size = 1 := by decide
  have helems := size_commaSeparated_le (es.map Value.write)
  rw [List.map_map, List.length_map] at helems
  simp only [Value.write, writeElems_eq, size_cons, size_append, size_nil, hbrackets.1, hbrackets.2]
  simp only [Function.comp_def] at helems
  omega

theorem size_writeMember (m : String × Value) :
    size (writeMember m) = size (writeString m.1) + size m.2.write + 1 := by
  have hcolon : ':'.utf8Size = 1 := by decide
  simp only [writeMember, size_append, size_cons, hcolon]
  omega

end Punctuation

section Values

mutual

/-- How large the text of a value can be, by the sizes of its strings. -/
def Value.sizeBound : Value → ℕ
  | .null => 4
  | .bool _ => 5
  | .number n => size n.literal
  | .string s => 6 * s.utf8ByteSize + 2
  | .array es => Value.boundElems es + 2
  | .object ms => Value.boundMembers ms + 2

def Value.boundElems : List Value → ℕ
  | [] => 0
  | e :: es => Value.sizeBound e + 1 + Value.boundElems es

def Value.boundMembers : List (String × Value) → ℕ
  | [] => 0
  | (key, v) :: ms => 6 * key.utf8ByteSize + Value.sizeBound v + 4 + Value.boundMembers ms

end

theorem boundElems_ge {es : List Value} (h : ∀ e ∈ es, size e.write ≤ e.sizeBound) :
    (es.map fun e => size e.write).sum + es.length ≤ Value.boundElems es := by
  induction es with
  | nil => simp [Value.boundElems]
  | cons e es ih =>
    rw [List.forall_mem_cons] at h
    have htail := ih h.2
    have hhead := h.1
    simp only [List.map_cons, List.sum_cons, List.length_cons, Value.boundElems]
    omega

theorem boundMembers_ge {ms : List (String × Value)} (h : ∀ m ∈ ms, size m.2.write ≤ m.2.sizeBound) :
    (ms.map fun m => size (writeMember m)).sum + ms.length ≤ Value.boundMembers ms := by
  induction ms with
  | nil => simp [Value.boundMembers]
  | cons m ms ih =>
    rw [List.forall_mem_cons] at h
    have htail := ih h.2
    have hvalue := h.1
    have hkey := size_writeString_le m.1
    have hmember := size_writeMember m
    simp only [List.map_cons, List.sum_cons, List.length_cons, Value.boundMembers]
    omega

/-- The text of a value is no larger than its strings let it be. -/
theorem size_write_le (v : Value) : size v.write ≤ v.sizeBound := by
  induction v with
  | null => decide
  | bool b => cases b <;> decide
  | number n => simp [Value.write, Value.sizeBound]
  | string s => simpa [Value.write, Value.sizeBound] using size_writeString_le s
  | array es ih =>
    have hsum := size_write_array_le es
    have hbound := boundElems_ge ih
    rw [Value.sizeBound]
    omega
  | object ms ih =>
    have hsum := size_write_object_le ms
    have hbound := boundMembers_ge ih
    rw [Value.sizeBound]
    omega

end Values

end Json
