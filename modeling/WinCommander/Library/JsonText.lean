import Mathlib
import WinCommander.Library.Json

/-!
# Compact JSON text

The text a compact writer puts out for a value: no blanks, the members of an object in the order
in which the value has them.  A value can be read back from its text, and the text that follows
it does not matter as long as a number cannot run into it.
-/

namespace Json

/-- A lower-case hexadecimal digit. -/
def hexDigit (n : Nat) : Char := "0123456789abcdef".toList.getD n '0'

/-- A character inside a string literal. -/
def escapeChar (c : Char) : List Char :=
  match c with
  | '"' => ['\\', '"']
  | '\\' => ['\\', '\\']
  | '\x08' => ['\\', 'b']
  | '\x0c' => ['\\', 'f']
  | '\n' => ['\\', 'n']
  | '\r' => ['\\', 'r']
  | '\t' => ['\\', 't']
  | c =>
    if c.toNat < 0x20 then
      ['\\', 'u', '0', '0', hexDigit (c.toNat / 16), hexDigit (c.toNat % 16)]
    else [c]

/-- A string literal. -/
def writeString (s : String) : List Char := '"' :: s.toList.flatMap escapeChar ++ ['"']

/-- Texts with commas between them. -/
@[grind =] def commaSeparated : List (List Char) → List Char
  | [] => []
  | [t] => t
  | t :: ts => t ++ ',' :: commaSeparated ts

mutual

/-- The text of a value. -/
@[grind =] def Value.write : Value → List Char
  | .null => "null".toList
  | .bool true => "true".toList
  | .bool false => "false".toList
  | .number n => n.literal
  | .string s => writeString s
  | .array es => '[' :: commaSeparated (writeElems es) ++ [']']
  | .object ms => '{' :: commaSeparated (writeMembers ms) ++ ['}']

@[grind =] def Value.writeElems : List Value → List (List Char)
  | [] => []
  | e :: es => Value.write e :: Value.writeElems es

@[grind =] def Value.writeMembers : List (String × Value) → List (List Char)
  | [] => []
  | (k, v) :: ms => (writeString k ++ ':' :: Value.write v) :: Value.writeMembers ms

end

/-- The text of one member. -/
def writeMember (m : String × Value) : List Char := writeString m.1 ++ ':' :: m.2.write

theorem writeElems_eq (es : List Value) : Value.writeElems es = es.map Value.write := by
  induction es with
  | nil => rfl
  | cons e es ih => simp [Value.writeElems, ih]

theorem writeMembers_eq (ms : List (String × Value)) :
    Value.writeMembers ms = ms.map writeMember := by
  induction ms with
  | nil => rfl
  | cons m ms ih => simp [Value.writeMembers, writeMember, ih]

section Strings

private def hexValue (c : Char) : Nat := "0123456789abcdef".toList.idxOf c

@[grind =] private def readChar : List Char → Option (Char × List Char)
  | '\\' :: 'u' :: '0' :: '0' :: a :: b :: rest =>
    some (Char.ofNat (16 * hexValue a + hexValue b), rest)
  | '\\' :: '"' :: rest => some ('"', rest)
  | '\\' :: '\\' :: rest => some ('\\', rest)
  | '\\' :: 'b' :: rest => some ('\x08', rest)
  | '\\' :: 'f' :: rest => some ('\x0c', rest)
  | '\\' :: 'n' :: rest => some ('\n', rest)
  | '\\' :: 'r' :: rest => some ('\r', rest)
  | '\\' :: 't' :: rest => some ('\t', rest)
  | '"' :: _ => none
  | c :: rest => some (c, rest)
  | [] => none

private theorem hexValue_hexDigit {n : Nat} (h : n < 16) : hexValue (hexDigit n) = n := by
  have hall : ∀ m : Fin 16, hexValue (hexDigit m) = m := by decide
  exact hall ⟨n, h⟩

private theorem readChar_plain {c : Char} (hquote : c ≠ '"') (hescape : c ≠ '\\')
    (rest : List Char) : readChar (c :: rest) = some (c, rest) := by
  unfold readChar
  split <;> simp_all

/-- An escaped character is read back, whatever follows it. -/
private theorem readChar_escapeChar (c : Char) (rest : List Char) :
    readChar (escapeChar c ++ rest) = some (c, rest) := by
  unfold escapeChar
  split
  case h_8 _ hquote hescape _ _ _ _ _ =>
    by_cases hc : c.toNat < 0x20
    · have hdiv : c.toNat / 16 < 16 := by omega
      have hmod : c.toNat % 16 < 16 := Nat.mod_lt _ (by omega)
      have hsum : 16 * (c.toNat / 16) + c.toNat % 16 = c.toNat := Nat.div_add_mod _ _
      simp only [hc, if_true, List.cons_append, List.nil_append, readChar,
        hexValue_hexDigit hdiv, hexValue_hexDigit hmod, hsum, Char.ofNat_toNat]
    · simp only [hc, if_false, List.singleton_append]
      exact readChar_plain hquote hescape rest
  all_goals rfl

private theorem readChar_quote (rest : List Char) : readChar ('"' :: rest) = none := rfl

private theorem flatMap_escapeChar_inj {s t r r' : List Char}
    (h : s.flatMap escapeChar ++ '"' :: r = t.flatMap escapeChar ++ '"' :: r') :
    s = t ∧ r = r' := by
  induction s generalizing t with
  | nil =>
    cases t with
    | nil => simpa using h
    | cons d t =>
      have hread := congrArg readChar h
      simp [List.flatMap_cons, List.append_assoc, readChar_escapeChar, readChar_quote] at hread
  | cons c s ih =>
    cases t with
    | nil =>
      have hread := congrArg readChar h
      simp [List.flatMap_cons, List.append_assoc, readChar_escapeChar, readChar_quote] at hread
    | cons d t =>
      have hread := congrArg readChar h
      simp only [List.flatMap_cons, List.append_assoc, readChar_escapeChar, Option.some.injEq,
        Prod.mk.injEq] at hread
      obtain ⟨hst, hr⟩ := ih hread.2
      exact ⟨by rw [hread.1, hst], hr⟩

/-- A string literal ends where it says, and what it spells is one string. -/
theorem writeString_append_inj {s t : String} {r r' : List Char}
    (h : writeString s ++ r = writeString t ++ r') : s = t ∧ r = r' := by
  simp only [writeString, List.cons_append, List.append_assoc, List.cons.injEq,
    true_and, List.nil_append] at h
  obtain ⟨hst, hr⟩ := flatMap_escapeChar_inj h
  exact ⟨String.toList_inj.mp hst, hr⟩

end Strings

/-- A number cannot run into this text. -/
def Delimited (r : List Char) : Prop := ∀ c ∈ r.head?, isNumberChar c = false

@[simp] theorem delimited_nil : Delimited [] := by simp [Delimited]

@[simp] theorem delimited_cons {c : Char} {r : List Char} :
    Delimited (c :: r) ↔ isNumberChar c = false := by simp [Delimited]

private theorem number_append_inj {a b r s : List Char} (ha : ∀ c ∈ a, isNumberChar c = true)
    (hb : ∀ c ∈ b, isNumberChar c = true) (hr : Delimited r) (hs : Delimited s)
    (h : a ++ r = b ++ s) : a = b ∧ r = s := by
  induction a generalizing b with
  | nil =>
    cases b with
    | nil => exact ⟨rfl, h⟩
    | cons d b =>
      simp only [List.nil_append] at h
      subst h
      simp_all
  | cons c a ih =>
    cases b with
    | nil =>
      simp only [List.nil_append] at h
      subst h
      simp_all
    | cons d b =>
      obtain ⟨hcd, htail⟩ := List.cons.inj h
      rw [List.forall_mem_cons] at ha hb
      obtain ⟨hab, hrs⟩ := ih ha.2 hb.2 htail
      exact ⟨by rw [hcd, hab], hrs⟩

section Sequences

variable {α : Type*} {print : α → List Char}

/-- The text of `a` can be told from every other text, up to a delimiter. -/
private def ReadsBack (print : α → List Char) (a : α) : Prop :=
  ∀ b r s, Delimited r → Delimited s → print a ++ r = print b ++ s → a = b ∧ r = s

private theorem commaSeparated_cons (t : List Char) (ts : List (List Char)) (r : List Char) :
    commaSeparated (t :: ts) ++ r =
      t ++ (if ts = [] then r else ',' :: (commaSeparated ts ++ r)) := by
  cases ts <;> simp [commaSeparated]

/-- The entries of a bracketed sequence can be told from its text, where no entry starts with
the closing bracket. -/
private theorem commaSeparated_append_inj {close : Char} (hclose : isNumberChar close = false)
    (hcomma : close ≠ ',') (hhead : ∀ a, ∃ c cs, print a = c :: cs ∧ c ≠ close)
    {as : List α} (has : ∀ a ∈ as, ReadsBack print a) {bs : List α} {r s : List Char}
    (h : commaSeparated (as.map print) ++ close :: r =
      commaSeparated (bs.map print) ++ close :: s) : as = bs ∧ r = s := by
  induction as generalizing bs with
  | nil =>
    cases bs with
    | nil => simpa [commaSeparated] using h
    | cons b bs =>
      obtain ⟨c, cs, hc, hne⟩ := hhead b
      rw [List.map_cons, commaSeparated_cons, hc] at h
      exact absurd (List.cons.inj h).1.symm hne
  | cons a as ih =>
    rw [List.forall_mem_cons] at has
    cases bs with
    | nil =>
      obtain ⟨c, cs, hc, hne⟩ := hhead a
      rw [List.map_cons, commaSeparated_cons, hc] at h
      exact absurd (List.cons.inj h).1 hne
    | cons b bs =>
      rw [List.map_cons, List.map_cons, commaSeparated_cons, commaSeparated_cons] at h
      have hdelim : ∀ (ts : List (List Char)) (x : List Char),
          Delimited (if ts = [] then close :: x else ',' :: (commaSeparated ts ++ close :: x)) := by
        intro ts x
        split
        · simpa using hclose
        · simp only [delimited_cons]
          decide
      obtain ⟨rfl, hrest⟩ := has.1 b _ _ (hdelim _ _) (hdelim _ _) h
      by_cases has' : as = []
      · by_cases hbs' : bs = []
        · subst has' hbs'
          simpa using hrest
        · simp [has', hbs', hcomma] at hrest
      · by_cases hbs' : bs = []
        · simp [has', hbs', hcomma.symm] at hrest
        · simp only [List.map_eq_nil_iff, has', hbs', if_false, List.cons.injEq, true_and] at hrest
          obtain ⟨rfl, hrs⟩ := ih has.2 hrest
          exact ⟨rfl, hrs⟩

end Sequences

namespace Value

/-- Which kind of value a text starts. -/
private def kindOfHead (c : Char) : Nat :=
  if isNumberChar c then 0 else if c = 'n' then 1 else if c = 't' then 2 else if c = 'f' then 3
  else if c = '"' then 4 else if c = '[' then 5 else if c = '{' then 6 else 7

private def kind : Value → Nat
  | .number _ => 0
  | .null => 1
  | .bool true => 2
  | .bool false => 3
  | .string _ => 4
  | .array _ => 5
  | .object _ => 6

private theorem write_head (v : Value) : ∃ c cs, v.write = c :: cs ∧ kindOfHead c = v.kind := by
  cases v with
  | null => exact ⟨'n', _, rfl, by decide⟩
  | bool b => cases b <;> exact ⟨_, _, rfl, by decide⟩
  | number n =>
    cases hn : n.literal with
    | nil => exact absurd hn n.nonempty
    | cons c cs =>
      have hc : isNumberChar c = true := n.numeric c (by simp [hn])
      exact ⟨c, cs, by rw [write, hn], by simp [kindOfHead, hc, kind]⟩
  | string s => exact ⟨'"', _, rfl, rfl⟩
  | array es => exact ⟨'[', _, rfl, rfl⟩
  | object ms => exact ⟨'{', _, rfl, rfl⟩

private theorem kind_eq {v w : Value} {r s : List Char} (h : v.write ++ r = w.write ++ s) :
    v.kind = w.kind := by
  obtain ⟨c, cs, hv, hc⟩ := write_head v
  obtain ⟨d, ds, hw, hd⟩ := write_head w
  rw [hv, hw] at h
  rw [← hc, ← hd, (List.cons.inj h).1]

private theorem write_head_ne_close (v : Value) : ∃ c cs, v.write = c :: cs ∧ c ≠ ']' := by
  obtain ⟨c, cs, hv, hc⟩ := write_head v
  refine ⟨c, cs, hv, ?_⟩
  rintro rfl
  have hclose : kindOfHead ']' = 7 := by decide
  rw [hclose] at hc
  cases v with
  | bool b => cases b <;> simp [kind] at hc
  | _ => simp [kind] at hc

private theorem writeMember_readsBack {m : String × Value} (h : ReadsBack write m.2) :
    ReadsBack writeMember m := by
  intro n r s hr hs heq
  simp only [writeMember, List.append_assoc, List.cons_append] at heq
  obtain ⟨hkey, hrest⟩ := writeString_append_inj heq
  obtain ⟨hvalue, hrs⟩ := h n.2 r s hr hs (List.cons.inj hrest).2
  exact ⟨Prod.ext hkey hvalue, hrs⟩

/-- A value is read back from its text, up to a delimiter. -/
private theorem write_readsBack (v : Value) : ReadsBack write v := by
  induction v with
  | null =>
    intro w r s _ _ h
    have hk := kind_eq h
    cases w with
    | null => exact ⟨rfl, by simpa [write] using h⟩
    | bool b => cases b <;> simp [kind] at hk
    | _ => simp [kind] at hk
  | bool b =>
    intro w r s _ _ h
    have hk := kind_eq h
    cases w with
    | bool c =>
      cases b <;> cases c <;> simp_all [kind, write]
    | _ => cases b <;> simp [kind] at hk
  | number n =>
    intro w r s hr hs h
    have hk := kind_eq h
    cases w with
    | number m =>
      obtain ⟨hnm, hrs⟩ := number_append_inj n.numeric m.numeric hr hs h
      cases n
      cases m
      exact ⟨by congr, hrs⟩
    | bool b => cases b <;> simp [kind] at hk
    | _ => simp [kind] at hk
  | string t =>
    intro w r s _ _ h
    have hk := kind_eq h
    cases w with
    | string u =>
      obtain ⟨rfl, hrs⟩ := writeString_append_inj h
      exact ⟨rfl, hrs⟩
    | bool b => cases b <;> simp [kind] at hk
    | _ => simp [kind] at hk
  | array es ih =>
    intro w r s _ _ h
    have hk := kind_eq h
    cases w with
    | array fs =>
      simp only [write, writeElems_eq, List.cons_append, List.append_assoc, List.nil_append,
        List.cons.injEq, true_and] at h
      obtain ⟨rfl, hrs⟩ := commaSeparated_append_inj (by decide) (by decide) write_head_ne_close
        ih h
      exact ⟨rfl, hrs⟩
    | bool b => cases b <;> simp [kind] at hk
    | _ => simp [kind] at hk
  | object ms ih =>
    intro w r s _ _ h
    have hk := kind_eq h
    cases w with
    | object ns =>
      simp only [write, writeMembers_eq, List.cons_append, List.append_assoc, List.nil_append,
        List.cons.injEq, true_and] at h
      have hhead : ∀ m, ∃ c cs, writeMember m = c :: cs ∧ c ≠ '}' :=
        fun m => ⟨'"', _, rfl, by decide⟩
      obtain ⟨rfl, hrs⟩ := commaSeparated_append_inj (by decide) (by decide) hhead
        (fun m hm => writeMember_readsBack (ih m hm)) h
      exact ⟨rfl, hrs⟩
    | bool b => cases b <;> simp [kind] at hk
    | _ => simp [kind] at hk

/-- Different values have different texts. -/
theorem write_injective {v w : Value} (h : v.write = w.write) : v = w :=
  (write_readsBack v w [] [] delimited_nil delimited_nil (by rw [h])).1

end Value

section Numbers

private theorem repr_numeric (n : ℕ) : ∀ c ∈ n.repr.toList, isNumberChar c = true := by
  intro c hc
  rw [Nat.repr_eq_ofList_toDigits, String.toList_ofList] at hc
  have hdigit := Nat.isDigit_of_mem_toDigits (by decide) (by decide) hc
  simp [isNumberChar, hdigit]

private theorem repr_ne_nil (n : ℕ) : n.repr.toList ≠ [] := by
  rw [Nat.repr_eq_ofList_toDigits, String.toList_ofList]
  exact Nat.toDigits_ne_nil

/-- The number an integer is written as. -/
def Number.ofInt (i : ℤ) : Number where
  literal := i.repr.toList
  nonempty := by
    cases i with
    | ofNat n => exact repr_ne_nil n
    | negSucc n => simp [Int.repr]
  numeric := by
    intro c hc
    cases i with
    | ofNat n => exact repr_numeric n c hc
    | negSucc n =>
      simp only [Int.repr, String.toList_append, List.mem_append] at hc
      rcases hc with hc | hc
      · have : c = '-' := by simpa using hc
        subst this
        decide
      · exact repr_numeric _ c hc

theorem Number.ofInt_injective {i j : ℤ} (h : Number.ofInt i = Number.ofInt j) : i = j :=
  Int.repr_injective (String.toList_inj.mp (congrArg Number.literal h))

end Numbers

/-- The bytes of a text. -/
def utf8 (text : List Char) : List UInt8 := text.flatMap String.utf8EncodeChar

theorem utf8_append (s t : List Char) : utf8 (s ++ t) = utf8 s ++ utf8 t := List.flatMap_append

theorem utf8_injective {s t : List Char} (h : utf8 s = utf8 t) : s = t := by
  have henc : (String.ofList s).toByteArray = (String.ofList t).toByteArray := by
    simp only [String.toByteArray_ofList, List.utf8Encode]
    exact congrArg List.toByteArray h
  exact String.ofList_injective (String.toByteArray_inj.mp henc)

end Json
