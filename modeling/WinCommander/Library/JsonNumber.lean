import Mathlib
import WinCommander.Library.JsonText
import WinCommander.Library.Scientific

/-!
# JSON numbers

A number token has an integer part, which may have a sign, and may have a fraction and an exponent.
-/

namespace Json

/-- The character of a digit. -/
def digitChar (d : Fin 10) : Char := Char.ofNat (48 + d)

theorem isDigit_digitChar (d : Fin 10) : (digitChar d).isDigit = true := by
  revert d
  decide

theorem digitChar_eq_zero {d : Fin 10} : digitChar d = '0' ↔ d = 0 := by
  revert d
  decide

theorem digitChar_injective : Function.Injective digitChar := by
  intro d e
  revert d e
  decide

structure Exponent where
  upper : Bool
  /-- Whether there is a sign, and whether it is a minus sign. -/
  sign : Option Bool
  digits : List (Fin 10)
  nonempty : digits ≠ []

/-- A number as the grammar has it; a fraction without digits is none. -/
structure Token where
  negative : Bool
  integer : List (Fin 10)
  fraction : List (Fin 10)
  exponent : Option Exponent
  nonempty : integer ≠ []
  noLeadingZero : ∀ ds, integer = 0 :: ds → ds = []

/-- The number that digits write. -/
def digitsValue (ds : List (Fin 10)) : ℕ := Positional.value 10 (ds.map Fin.val)

/-- What stands behind the mark of an exponent. -/
def Exponent.signed (e : Exponent) : List Char :=
  match e.sign with
  | none => e.digits.map digitChar
  | some true => '-' :: e.digits.map digitChar
  | some false => '+' :: e.digits.map digitChar

def Exponent.render (e : Exponent) : List Char := (if e.upper then 'E' else 'e') :: e.signed

def Exponent.value (e : Exponent) : ℤ :=
  if e.sign = some true then -digitsValue e.digits else digitsValue e.digits

namespace Token

def mantissa (t : Token) : List Char :=
  t.integer.map digitChar ++ if t.fraction = [] then [] else '.' :: t.fraction.map digitChar

/-- The token without its sign. -/
def unsigned (t : Token) : List Char := t.mantissa ++ t.exponent.elim [] Exponent.render

def render (t : Token) : List Char := if t.negative then '-' :: t.unsigned else t.unsigned

def exponentValue (t : Token) : ℤ := t.exponent.elim 0 Exponent.value

/-- The number without its sign. -/
def magnitude (t : Token) : ℚ :=
  digitsValue (t.integer ++ t.fraction) * (10 : ℚ) ^ (t.exponentValue - t.fraction.length)

def value (t : Token) : ℚ := if t.negative then -t.magnitude else t.magnitude

/-- A token without an exponent. -/
def Plain (t : Token) : Prop := t.exponent = none

end Token

/-- A text that is a number token and writes the number. -/
def Denotes (text : List Char) (q : ℚ) : Prop := ∃ t : Token, t.render = text ∧ t.value = q

/-- A text without an exponent that writes the number. -/
def DenotesPlainly (text : List Char) (q : ℚ) : Prop :=
  ∃ t : Token, t.Plain ∧ t.render = text ∧ t.value = q

section Split

variable {p : Char → Bool} {xs ys rest rest' : List Char} {c d : Char}

/-- What stands before and after the first character of a kind. -/
def splitOnce (p : Char → Bool) (text : List Char) : Option (List Char × List Char) :=
  match text.dropWhile (!p ·) with
  | [] => none
  | _ :: rest => some (text.takeWhile (!p ·), rest)

theorem splitOnce_append (hxs : ∀ x ∈ xs, p x = false) (hc : p c = true) (rest : List Char) :
    splitOnce p (xs ++ c :: rest) = some (xs, rest) := by
  have hskip : ∀ x ∈ xs, (!p x) = true := by
    intro x hx
    rw [hxs x hx]
    rfl
  unfold splitOnce
  rw [List.dropWhile_append_of_pos hskip, List.takeWhile_append_of_pos hskip]
  simp [hc]

theorem splitOnce_eq_none (hxs : ∀ x ∈ xs, p x = false) : splitOnce p xs = none := by
  have hall : xs.dropWhile (!p ·) = [] := by
    rw [List.dropWhile_eq_nil_iff]
    intro x hx
    rw [hxs x hx]
    rfl
  rw [splitOnce, hall]

end Split

theorem digitsValue_append (ds es : List (Fin 10)) :
    digitsValue (ds ++ es) = digitsValue ds * 10 ^ es.length + digitsValue es := by
  rw [digitsValue, List.map_append, Positional.value_append, List.length_map]
  rfl

/-- The digits are read back. -/
theorem decimal_map_digitChar {ds : List (Fin 10)} (h : ds ≠ []) :
    Value.decimal (ds.map digitChar) = some (digitsValue ds) := by
  have hdigits : (ds.map digitChar).all Char.isDigit = true := by
    simp [isDigit_digitChar]
  have hvalue : ∀ d : Fin 10, (digitChar d).toNat - '0'.toNat = d.val := by decide
  have hfold : ∀ (ds : List (Fin 10)) n,
      (ds.map digitChar).foldl (fun n d => 10 * n + (d.toNat - '0'.toNat)) n =
        (ds.map Fin.val).foldl (fun n d => n * 10 + d) n := by
    intro ds
    induction ds with
    | nil => exact fun _ => rfl
    | cons d ds ih =>
      intro n
      rw [List.map_cons, List.map_cons, List.foldl_cons, List.foldl_cons, hvalue, ih,
        Nat.mul_comm 10 n]
  rw [Value.decimal, if_pos ⟨by simpa using h, hdigits⟩, hfold]
  rfl

/-- A number that may have a sign. -/
def signedDecimal : List Char → Option ℤ
  | '-' :: digits => (Value.decimal digits).map fun n => -(n : ℤ)
  | '+' :: digits => (Value.decimal digits).map fun n => (n : ℤ)
  | digits => (Value.decimal digits).map fun n => (n : ℤ)

/-- What separates a mantissa from its exponent. -/
def isExponentMark (c : Char) : Bool := c == 'e' || c == 'E'

theorem digitChar_ne (d : Fin 10) :
    isExponentMark (digitChar d) = false ∧ (digitChar d == '.') = false ∧ digitChar d ≠ '-' ∧
      digitChar d ≠ '+' := by
  revert d
  decide

theorem signedDecimal_signed (e : Exponent) : signedDecimal e.signed = some e.value := by
  have hdigits := decimal_map_digitChar e.nonempty
  unfold Exponent.signed Exponent.value
  match e.sign with
  | some true => simp [signedDecimal, hdigits]
  | some false => simp [signedDecimal, hdigits]
  | none =>
    cases hds : e.digits with
    | nil => exact absurd hds e.nonempty
    | cons d ds =>
      rw [hds] at hdigits
      rw [List.map_cons] at hdigits ⊢
      unfold signedDecimal
      split
      · next heq => exact absurd (List.cons.inj heq).1 (digitChar_ne d).2.2.1
      · next heq => exact absurd (List.cons.inj heq).1 (digitChar_ne d).2.2.2
      · simp [hdigits]

namespace Token

variable {t s : Token}

theorem mantissa_no_mark (t : Token) : ∀ c ∈ t.mantissa, isExponentMark c = false := by
  intro c hc
  rw [mantissa, List.mem_append] at hc
  have hdigits : ∀ ds : List (Fin 10), c ∈ ds.map digitChar → isExponentMark c = false := by
    intro ds h
    obtain ⟨d, _, rfl⟩ := List.mem_map.mp h
    exact (digitChar_ne d).1
  rcases hc with hc | hc
  · exact hdigits _ hc
  · split at hc
    · exact absurd hc List.not_mem_nil
    · rcases List.mem_cons.mp hc with rfl | hc
      · decide
      · exact hdigits _ hc

theorem splitOnce_unsigned (t : Token) : splitOnce isExponentMark t.unsigned =
    t.exponent.map fun e => (t.mantissa, e.signed) := by
  rw [unsigned]
  cases t.exponent with
  | none =>
    rw [Option.elim_none, List.append_nil]
    exact splitOnce_eq_none t.mantissa_no_mark
  | some e =>
    have hmark : isExponentMark (if e.upper then 'E' else 'e') = true := by
      cases e.upper <;> decide
    exact splitOnce_append t.mantissa_no_mark hmark _

theorem splitOnce_mantissa (t : Token) :
    (splitOnce (· == '.') t.mantissa).getD (t.mantissa, []) =
      (t.integer.map digitChar, t.fraction.map digitChar) := by
  have hdigits : ∀ c ∈ t.integer.map digitChar, (c == '.') = false := by
    intro c hc
    obtain ⟨d, _, rfl⟩ := List.mem_map.mp hc
    exact (digitChar_ne d).2.1
  rw [mantissa]
  by_cases h : t.fraction = []
  · rw [if_pos h, List.append_nil, splitOnce_eq_none hdigits, h]
    rfl
  · rw [if_neg h, splitOnce_append hdigits (by decide)]
    rfl

theorem head?_unsigned (t : Token) : t.unsigned.head? ≠ some '-' := by
  cases h : t.integer with
  | nil => exact absurd h t.nonempty
  | cons d ds =>
    rw [unsigned, mantissa, h, List.map_cons]
    intro hhead
    exact (digitChar_ne d).2.2.1 (Option.some.inj hhead)

/-- A token is made of the characters of numbers. -/
theorem render_numeric (t : Token) : ∀ c ∈ t.render, isNumberChar c = true := by
  have hdigits : ∀ ds : List (Fin 10), ∀ c ∈ ds.map digitChar, isNumberChar c = true := by
    intro ds c hc
    obtain ⟨d, _, rfl⟩ := List.mem_map.mp hc
    simp [isNumberChar, isDigit_digitChar]
  have hmantissa : ∀ c ∈ t.mantissa, isNumberChar c = true := by
    intro c hc
    rw [mantissa, List.mem_append] at hc
    rcases hc with hc | hc
    · exact hdigits _ c hc
    · split at hc
      · exact absurd hc List.not_mem_nil
      · rcases List.mem_cons.mp hc with rfl | hc
        · decide
        · exact hdigits _ c hc
  have hexponent : ∀ e : Exponent, ∀ c ∈ e.render, isNumberChar c = true := by
    intro e c hc
    rcases List.mem_cons.mp hc with rfl | hc
    · cases e.upper <;> decide
    · unfold Exponent.signed at hc
      split at hc
      · exact hdigits _ c hc
      · rcases List.mem_cons.mp hc with rfl | hc
        · decide
        · exact hdigits _ c hc
      · rcases List.mem_cons.mp hc with rfl | hc
        · decide
        · exact hdigits _ c hc
  have hunsigned : ∀ c ∈ t.unsigned, isNumberChar c = true := by
    intro c hc
    rw [unsigned, List.mem_append] at hc
    rcases hc with hc | hc
    · exact hmantissa c hc
    · cases he : t.exponent with
      | none => simp [he] at hc
      | some e => exact hexponent e c (by simpa [he] using hc)
  intro c hc
  unfold render at hc
  split at hc
  · rcases List.mem_cons.mp hc with rfl | hc
    · decide
    · exact hunsigned c hc
  · exact hunsigned c hc

theorem render_ne_nil (t : Token) : t.render ≠ [] := by
  have hunsigned : t.unsigned ≠ [] := by simp [unsigned, mantissa, t.nonempty]
  unfold render
  split
  · exact List.cons_ne_nil _ _
  · exact hunsigned

theorem unsigned_eq (h : t.render = s.render) :
    t.negative = s.negative ∧ t.unsigned = s.unsigned := by
  unfold render at h
  have ht := t.head?_unsigned
  have hs := s.head?_unsigned
  cases hn : t.negative with
  | false =>
    cases hm : s.negative with
    | false =>
      rw [hn, hm] at h
      exact ⟨rfl, h⟩
    | true =>
      rw [hn, hm] at h
      exact absurd (congrArg List.head? h) ht
  | true =>
    cases hm : s.negative with
    | false =>
      rw [hn, hm] at h
      exact absurd (congrArg List.head? h).symm hs
    | true =>
      rw [hn, hm] at h
      exact ⟨rfl, List.tail_eq_of_cons_eq h⟩

/-- A text writes at most one number. -/
theorem value_eq_of_render (h : t.render = s.render) : t.value = s.value := by
  obtain ⟨hnegative, hunsigned⟩ := unsigned_eq h
  have hsplit := t.splitOnce_unsigned
  rw [hunsigned, s.splitOnce_unsigned] at hsplit
  have hparts : t.mantissa = s.mantissa ∧ t.exponentValue = s.exponentValue := by
    unfold exponentValue
    cases he : t.exponent with
    | none =>
      cases hf : s.exponent with
      | none =>
        rw [unsigned, unsigned, he, hf] at hunsigned
        simpa using hunsigned
      | some f => simp [he, hf] at hsplit
    | some e =>
      cases hf : s.exponent with
      | none => simp [he, hf] at hsplit
      | some f =>
        rw [he, hf] at hsplit
        have hpair := Prod.mk.inj (Option.some.inj hsplit)
        have hread := signedDecimal_signed f
        rw [hpair.2, signedDecimal_signed e] at hread
        exact ⟨hpair.1.symm, Option.some.inj hread⟩
  have hmantissa := t.splitOnce_mantissa
  rw [hparts.1, s.splitOnce_mantissa, Prod.mk.injEq] at hmantissa
  have hinteger := List.map_injective_iff.mpr digitChar_injective hmantissa.1
  have hfraction := List.map_injective_iff.mpr digitChar_injective hmantissa.2
  rw [value, value, magnitude, magnitude, hnegative, hparts.2, hinteger, hfraction]

section Scaled

open Positional

variable {a z : ℕ} {ds core : List (Fin 10)} {p : ℤ}

theorem digitsValue_replicate (n : ℕ) : digitsValue (List.replicate n 0) = 0 := by
  rw [digitsValue, List.map_replicate]
  exact value_replicate_zero 10 n

theorem digitsValue_between (a z : ℕ) (core : List (Fin 10)) :
    digitsValue (List.replicate a 0 ++ core ++ List.replicate z 0) = digitsValue core * 10 ^ z := by
  rw [digitsValue_append, digitsValue_append, digitsValue_replicate, digitsValue_replicate,
    List.length_replicate]
  ring

theorem trimmed_map (h : Trimmed ds) : Trimmed (ds.map Fin.val) where
  nonempty := by simpa using h.nonempty
  head := by
    intro n hn
    rw [List.head?_map] at hn
    obtain ⟨d, hd, rfl⟩ := Option.mem_map.mp hn
    exact Fin.val_ne_zero_iff.mpr (h.head d hd)
  last := by
    intro n hn
    rw [List.getLast?_map] at hn
    obtain ⟨d, hd, rfl⟩ := Option.mem_map.mp hn
    exact Fin.val_ne_zero_iff.mpr (h.last d hd)

theorem map_val_lt (ds : List (Fin 10)) : ∀ n ∈ ds.map Fin.val, n < 10 := by
  intro n hn
  obtain ⟨d, _, rfl⟩ := List.mem_map.mp hn
  exact d.isLt

/-- The zeros around the significant digits only place the point. -/
theorem magnitude_eq_scaled
    (h : t.integer ++ t.fraction = List.replicate a 0 ++ core ++ List.replicate z 0) :
    t.magnitude = scaled 10 (core.map Fin.val) (t.integer.length + t.exponentValue - a) := by
  have hlength : t.integer.length + t.fraction.length = a + core.length + z := by
    have hcount := congrArg List.length h
    simp only [List.length_append, List.length_replicate] at hcount
    exact hcount
  have hexponent : (z : ℤ) + (t.exponentValue - t.fraction.length) =
      t.integer.length + t.exponentValue - a - (core.map Fin.val).length := by
    rw [List.length_map]
    omega
  have hten : ((10 : ℕ) : ℚ) ≠ 0 := by norm_num
  rw [magnitude, h, digitsValue_between, scaled, ← hexponent, zpow_add₀ hten, zpow_natCast,
    ← mul_assoc, Nat.cast_mul, Nat.cast_pow]
  rfl

theorem magnitude_eq_zero (h : ∀ d ∈ t.integer ++ t.fraction, d = 0) : t.magnitude = 0 := by
  have hzeros : t.integer ++ t.fraction =
      List.replicate (t.integer ++ t.fraction).length 0 := List.eq_replicate_iff.mpr ⟨rfl, h⟩
  rw [magnitude, hzeros, digitsValue_replicate]
  simp

/-- The digits of a plain number before and behind the point. -/
def pointed (ds : List (Fin 10)) (p : ℤ) : List (Fin 10) × List (Fin 10) :=
  if p ≤ 0 then ([0], List.replicate (-p).toNat 0 ++ ds)
  else if ds.length ≤ p.toNat then (ds ++ List.replicate (p.toNat - ds.length) 0, [])
  else (ds.take p.toNat, ds.drop p.toNat)

theorem pointed_head (h : Trimmed ds) (p : ℤ) :
    (pointed ds p).1 ≠ [] ∧ ∀ es, (pointed ds p).1 = 0 :: es → es = [] := by
  obtain ⟨d, rest, hds⟩ := List.exists_cons_of_ne_nil h.nonempty
  have hd : d ≠ 0 := h.head d (by simp [hds])
  unfold pointed
  split
  · exact ⟨List.cons_ne_nil _ _, fun es hes => (List.cons.inj hes).2.symm⟩
  · split
    · rw [hds]
      exact ⟨List.cons_ne_nil _ _, fun es hes => absurd (List.cons.inj hes).1 hd⟩
    · next hp _ =>
      obtain ⟨n, hn⟩ : ∃ n, p.toNat = n + 1 := ⟨p.toNat - 1, by omega⟩
      rw [hds, hn, List.take_succ_cons]
      exact ⟨List.cons_ne_nil _ _, fun es hes => absurd (List.cons.inj hes).1 hd⟩

/-- The plain token of a number with a sign, significant digits and a place of the point. -/
def ofScaled (negative : Bool) (h : Trimmed ds) (p : ℤ) : Token where
  negative := negative
  integer := (pointed ds p).1
  fraction := (pointed ds p).2
  exponent := none
  nonempty := (pointed_head h p).1
  noLeadingZero := (pointed_head h p).2

theorem magnitude_ofScaled (negative : Bool) (h : Trimmed ds) (p : ℤ) :
    (ofScaled negative h p).magnitude = scaled 10 (ds.map Fin.val) p := by
  have hparts : ∀ a z : ℕ, (pointed ds p).1 ++ (pointed ds p).2 =
      List.replicate a 0 ++ ds ++ List.replicate z 0 → ((pointed ds p).1.length : ℤ) - a = p →
      (ofScaled negative h p).magnitude = scaled 10 (ds.map Fin.val) p := by
    intro a z hdigits hpoint
    have hscaled := magnitude_eq_scaled (t := ofScaled negative h p) hdigits
    have hplace : ((ofScaled negative h p).integer.length : ℤ) +
        (ofScaled negative h p).exponentValue - a = p := by
      show ((pointed ds p).1.length : ℤ) + 0 - a = p
      rw [add_zero]
      exact hpoint
    rw [hscaled, hplace]
  by_cases hp : p ≤ 0
  · apply hparts ((-p).toNat + 1) 0
    · simp [pointed, hp, List.replicate_succ]
    · simp only [pointed, hp, if_true, List.length_singleton]
      omega
  · by_cases hlong : ds.length ≤ p.toNat
    · apply hparts 0 (p.toNat - ds.length)
      · simp [pointed, hp, hlong]
      · simp only [pointed, hp, hlong, if_true, if_false, List.length_append, List.length_replicate]
        omega
    · apply hparts 0 0
      · simp [pointed, hp, hlong]
      · simp only [pointed, hp, hlong, if_false, List.length_take]
        omega

/-- The digit of a number below ten. -/
def digit (n : ℕ) : Fin 10 := Fin.ofNat 10 n

/-- The token of the number zero. -/
def zero : Token where
  negative := false
  integer := [0]
  fraction := []
  exponent := none
  nonempty := List.cons_ne_nil _ _
  noLeadingZero := by
    intro ds h
    exact (List.cons.inj h).2.symm

theorem value_zero : zero.value = 0 := by
  have hmagnitude : zero.magnitude = 0 := magnitude_eq_zero (by simp [zero])
  rw [value, hmagnitude]
  simp

/-- The plain tokens without a zero that could be left out. -/
inductive IsNormal : Token → Prop
  | zero : IsNormal zero
  | scaled (negative : Bool) {ds : List (Fin 10)} (h : Trimmed ds) (p : ℤ) :
      IsNormal (ofScaled negative h p)

theorem IsNormal.plain (h : t.IsNormal) : t.Plain := by
  cases h <;> rfl

theorem magnitude_ofScaled_pos (negative : Bool) (h : Trimmed ds) (p : ℤ) :
    0 < (ofScaled negative h p).magnitude := by
  rw [magnitude_ofScaled]
  exact (trimmed_map h).scaled_pos (by norm_num) (map_val_lt ds) p

theorem value_ne_zero (h : 0 < t.magnitude) : t.value ≠ 0 := by
  rw [value]
  split
  · exact neg_ne_zero.mpr h.ne'
  · exact h.ne'

/-- Tokens of one number have one sign and one magnitude, unless it is zero. -/
theorem parts_eq_of_value (h : t.value = s.value) (ht : 0 < t.magnitude) (hs : 0 < s.magnitude) :
    t.negative = s.negative ∧ t.magnitude = s.magnitude := by
  unfold value at h
  cases hn : t.negative <;> cases hm : s.negative <;> simp only [hn, hm] at h <;>
    simp at h ⊢ <;> linarith

/-- A number has one normal token. -/
theorem IsNormal.eq_of_value (ht : t.IsNormal) (hs : s.IsNormal) (h : t.value = s.value) :
    t = s := by
  cases ht with
  | zero =>
    cases hs with
    | zero => rfl
    | scaled negative hds p =>
      rw [value_zero] at h
      exact absurd h.symm (value_ne_zero (magnitude_ofScaled_pos negative hds p))
  | @scaled negative ds hds p =>
    have hpos := magnitude_ofScaled_pos negative hds p
    cases hs with
    | zero =>
      rw [value_zero] at h
      exact absurd h (value_ne_zero hpos)
    | @scaled negative' es hes q =>
      obtain ⟨hnegative, hmagnitude⟩ :=
        parts_eq_of_value h hpos (magnitude_ofScaled_pos negative' hes q)
      rw [magnitude_ofScaled, magnitude_ofScaled] at hmagnitude
      obtain ⟨hdigits, hpoint⟩ := (trimmed_map hds).scaled_inj (by norm_num) (trimmed_map hes)
        (map_val_lt ds) (map_val_lt es) hmagnitude
      have hsame := List.map_injective_iff.mpr Fin.val_injective hdigits
      have hsign : negative = negative' := hnegative
      subst hsame hpoint hsign
      rfl

theorem exists_normal (t : Token) : ∃ u : Token, u.IsNormal ∧ u.value = t.value := by
  by_cases hzeros : ∀ d ∈ t.integer ++ t.fraction, d = 0
  · refine ⟨zero, .zero, ?_⟩
    rw [value_zero, value, magnitude_eq_zero hzeros]
    simp
  · push Not at hzeros
    obtain ⟨a, core, z, hdigits, hcore⟩ := exists_trimmed hzeros
    refine ⟨ofScaled t.negative hcore (t.integer.length + t.exponentValue - a),
      .scaled _ hcore _, ?_⟩
    rw [value, value, magnitude_ofScaled, magnitude_eq_scaled hdigits]
    rfl

end Scaled

end Token

theorem Denotes.unique {text : List Char} {q r : ℚ} (hq : Denotes text q) (hr : Denotes text r) :
    q = r := by
  obtain ⟨t, ht, hq⟩ := hq
  obtain ⟨s, hs, hr⟩ := hr
  rw [← hq, ← hr]
  exact Token.value_eq_of_render (ht.trans hs.symm)

theorem DenotesPlainly.denotes {text : List Char} {q : ℚ} (h : DenotesPlainly text q) :
    Denotes text q := by
  obtain ⟨t, _, ht, hq⟩ := h
  exact ⟨t, ht, hq⟩

end Json
