import Mathlib
import WinCommander.Library.Optional
import WinCommander.Library.Positional
import WinCommander.Library.Utf8

/-!
# Base58

The decoder multiplies a growing buffer of bytes, the least significant one first, by 58 for every
character and adds its digit.  What it returns is the reference: a zero byte for each leading `1`,
and the shortest big-endian form of the number.
-/

namespace ClipRules

open Optional

def base58Alphabet : String := "123456789ABCDEFGHJKLMNPQRSTUVWXYZabcdefghijkmnopqrstuvwxyz"

/-- The place of a byte in the alphabet. -/
def base58Digit (c : UInt8) : Option ℕ :=
  (base58Alphabet.toList.map fun c => UInt8.ofNat c.toNat).idxOf? c

theorem toNat_low (carry : UInt32) : (carry &&& 0xff).toUInt8.toNat = carry.toNat % 256 := by
  have hmask : (0xff : UInt32).toNat = 2 ^ 8 - 1 := rfl
  rw [UInt32.toNat_toUInt8, UInt32.toNat_and, hmask, Nat.and_two_pow_sub_one_eq_mod, Nat.mod_mod]

theorem toNat_high (carry : UInt32) : (carry >>> 8).toNat = carry.toNat / 256 := by
  have height : (8 : UInt32).toNat = 8 := rfl
  rw [UInt32.toNat_shiftRight, height, Nat.shiftRight_eq_div_pow]

/-- The rest of a carry, pushed byte by byte. -/
def spill (carry : UInt32) : List UInt8 :=
  if carry = 0 then [] else (carry &&& 0xff).toUInt8 :: spill (carry >>> 8)
termination_by carry.toNat
decreasing_by
  have hpos : carry.toNat ≠ 0 := fun hzero => ‹¬ carry = 0› (UInt32.toNat_inj.mp hzero)
  rw [toNat_high]
  omega

/-- The buffer times 58 and the carry added. -/
def mulAdd : List UInt8 → UInt32 → List UInt8
  | [], carry => spill carry
  | byte :: bytes, carry =>
    let carry := carry + byte.toUInt32 * 58
    (carry &&& 0xff).toUInt8 :: mulAdd bytes (carry >>> 8)

def base58Decode (s : String) : Option (List UInt8) :=
  let bytes := Bytes.ofString s
  if 128 < bytes.length then none
  else do
    let result ← bytes.foldlM
      (fun result c => (base58Digit c).map fun digit => mulAdd result (UInt32.ofNat digit)) []
    let zeros := (bytes.takeWhile fun c => c = UInt8.ofNat '1'.toNat).length
    some (List.replicate zeros 0 ++ result.reverse)

section Reference

/-- A zero byte for every leading zero digit, and the shortest bytes of the rest. -/
def base58Bytes (digits : List ℕ) : List UInt8 :=
  let zeros := (digits.takeWhile (· = 0)).length
  let rest := digits.dropWhile (· = 0)
  List.replicate zeros 0 ++ ((Nat.digits 256 (Positional.value 58 rest)).map UInt8.ofNat).reverse

def base58Reference (s : String) : Option (List UInt8) :=
  if 128 < s.length then none else (s.toList.mapM base58Alphabet.toList.idxOf?).map base58Bytes

end Reference

section Buffer

theorem map_toNat_spill (carry : UInt32) :
    (spill carry).map UInt8.toNat = Nat.digits 256 carry.toNat := by
  induction carry using spill.induct with
  | case1 =>
    unfold spill
    simp
  | case2 carry hcarry ih =>
    have hpos : 0 < carry.toNat :=
      Nat.pos_of_ne_zero fun hzero => hcarry (UInt32.toNat_inj.mp hzero)
    unfold spill
    rw [if_neg hcarry, List.map_cons, toNat_low, ih, toNat_high, Nat.digits_def' (by omega) hpos]

/-- A carry stays below 58, so nothing overflows. -/
theorem map_toNat_mulAdd (bytes : List UInt8) (carry : UInt32) (h : carry.toNat < 58) :
    (mulAdd bytes carry).map UInt8.toNat =
      Positional.scale 256 58 (bytes.map UInt8.toNat) carry.toNat := by
  induction bytes generalizing carry with
  | nil => exact map_toNat_spill carry
  | cons byte bytes ih =>
    have hbyte := byte.toNat_lt
    have hsum : (carry + byte.toUInt32 * 58).toNat = carry.toNat + byte.toNat * 58 := by
      have hfactor : (58 : UInt32).toNat = 58 := rfl
      rw [UInt32.toNat_add, UInt32.toNat_mul, UInt8.toNat_toUInt32, hfactor]
      omega
    have hnext : ((carry + byte.toUInt32 * 58) >>> 8).toNat < 58 := by
      rw [toNat_high, hsum]
      omega
    rw [mulAdd, List.map_cons, toNat_low, ih _ hnext, toNat_high, hsum, List.map_cons,
      Positional.scale]

/-- The buffer holds the digits of the number read so far. -/
theorem foldl_mulAdd {digits : List ℕ} (h : ∀ d ∈ digits, d < 58) :
    (digits.foldl (fun result d => mulAdd result (UInt32.ofNat d)) []).map UInt8.toNat =
      Nat.digits 256 (Positional.value 58 digits) := by
  induction digits using List.reverseRecOn with
  | nil => simp
  | append_singleton digits d ih =>
    have hd : d < 58 := h d (by simp)
    have hof : (UInt32.ofNat d).toNat = d := by
      rw [UInt32.toNat_ofNat']
      omega
    rw [List.foldl_append, List.foldl_cons, List.foldl_nil,
      map_toNat_mulAdd _ _ (by rw [hof]; exact hd), ih fun e he => h e (by simp [he]), hof,
      Positional.scale_digits (by omega) (by omega), Positional.value_concat, Nat.add_comm]

end Buffer

section Digits

theorem ascii_of_mem_alphabet {c : Char} (h : c ∈ base58Alphabet.toList) : c.toNat < 128 := by
  have hall : (base58Alphabet.toList.all fun c => c.toNat < 128) = true := by decide +kernel
  exact of_decide_eq_true (List.all_eq_true.mp hall c h)

theorem idxOf?_map_ascii {c : Char} (hc : c.toNat < 128) {cs : List Char}
    (hcs : ∀ c ∈ cs, c.toNat < 128) :
    (cs.map fun c => UInt8.ofNat c.toNat).idxOf? (UInt8.ofNat c.toNat) = cs.idxOf? c := by
  induction cs with
  | nil => rfl
  | cons x cs ih =>
    rw [List.forall_mem_cons] at hcs
    have hsame : (UInt8.ofNat x.toNat == UInt8.ofNat c.toNat) = (x == c) := by
      rw [Bool.eq_iff_iff, beq_iff_eq, beq_iff_eq]
      constructor
      · intro h
        have hnat := congrArg UInt8.toNat h
        rw [UInt8.toNat_ofNat', UInt8.toNat_ofNat', Nat.mod_eq_of_lt (by omega),
          Nat.mod_eq_of_lt (by omega)] at hnat
        exact Char.toNat_inj.mp hnat
      · intro h
        rw [h]
    rw [List.map_cons, List.idxOf?_cons, List.idxOf?_cons, hsame, ih hcs.2]

/-- A byte below 128 and the character it writes have the same digit. -/
theorem base58Digit_ascii {c : Char} (h : c.toNat < 128) :
    base58Digit (UInt8.ofNat c.toNat) = base58Alphabet.toList.idxOf? c :=
  idxOf?_map_ascii h fun _ => ascii_of_mem_alphabet

theorem base58Digit_of_le {b : UInt8} (h : 128 ≤ b.toNat) : base58Digit b = none := by
  rw [base58Digit, List.idxOf?_eq_none_iff]
  intro hmem
  obtain ⟨c, hc, heq⟩ := List.mem_map.mp hmem
  have hlt := ascii_of_mem_alphabet hc
  rw [← heq, UInt8.toNat_ofNat'] at h
  omega

theorem digit_lt {c : Char} {d : ℕ} (h : base58Alphabet.toList.idxOf? c = some d) : d < 58 := by
  have hlength : base58Alphabet.toList.length = 58 := by decide +kernel
  rw [← hlength]
  exact (List.idxOf?_eq_some_iff.mp h).1

theorem eq_of_digit {c c' : Char} {d : ℕ} (h : base58Alphabet.toList.idxOf? c = some d)
    (h' : base58Alphabet.toList.idxOf? c' = some d) : c = c' := by
  obtain ⟨_, hget, _⟩ := List.idxOf?_eq_some_iff.mp h
  obtain ⟨_, hget', _⟩ := List.idxOf?_eq_some_iff.mp h'
  rw [← hget, hget']

theorem digit_one : base58Alphabet.toList.idxOf? '1' = some 0 := by decide +kernel

/-- The leading zero digits are those of the leading characters `1`. -/
theorem length_takeWhile_ones {cs : List Char} {digits : List ℕ}
    (h : List.Forall₂ (fun c d => base58Alphabet.toList.idxOf? c = some d) cs digits) :
    (cs.takeWhile (· = '1')).length = (digits.takeWhile (· = 0)).length := by
  induction h with
  | nil => rfl
  | @cons c d cs digits hd _ ih =>
    have hone : c = '1' ↔ d = 0 := by
      constructor
      · intro hc
        rw [hc, digit_one] at hd
        exact (Option.some.inj hd).symm
      · intro hzero
        rw [hzero] at hd
        exact eq_of_digit hd digit_one
    by_cases hc : c = '1'
    · simp [hc, hone.mp hc, ih]
    · simp [hc, mt hone.mpr hc]

end Digits

section Reference

/-- The text is read byte by byte where it is ASCII. -/
theorem bytes_of_ascii {s : String} (h : ∀ c ∈ s.toList, c.toNat < 128) :
    (Bytes.ofString s).mapM base58Digit = s.toList.mapM base58Alphabet.toList.idxOf? ∧
      ((Bytes.ofString s).takeWhile fun c => c = UInt8.ofNat '1'.toNat).length =
        (s.toList.takeWhile (· = '1')).length ∧ (Bytes.ofString s).length = s.length := by
  rw [Utf8.ofString_of_ascii h, ← String.length_toList]
  generalize s.toList = cs at h
  induction cs with
  | nil => simp
  | cons c cs ih =>
    rw [List.forall_mem_cons] at h
    obtain ⟨hdigits, hones, hlength⟩ := ih h.2
    have hone : UInt8.ofNat c.toNat = UInt8.ofNat '1'.toNat ↔ c = '1' := by
      constructor
      · intro heq
        have hnat := congrArg UInt8.toNat heq
        rw [UInt8.toNat_ofNat', UInt8.toNat_ofNat', Nat.mod_eq_of_lt (by omega)] at hnat
        exact Char.toNat_inj.mp hnat
      · intro heq
        rw [heq]
    refine ⟨?_, ?_, by simp⟩
    · rw [List.map_cons, List.mapM_cons, List.mapM_cons, base58Digit_ascii h.1, hdigits]
    · rw [List.map_cons, List.takeWhile_cons, List.takeWhile_cons]
      simp only [decide_eq_true_eq]
      by_cases hc : c = '1'
      · rw [if_pos (hone.mpr hc), if_pos hc, List.length_cons, List.length_cons, hones]
      · rw [if_neg (mt hone.mp hc), if_neg hc]
        rfl

/-- A character that is not ASCII is in no alphabet, and neither are its bytes. -/
theorem mapM_of_not_ascii {s : String} (h : ¬ ∀ c ∈ s.toList, c.toNat < 128) :
    (Bytes.ofString s).mapM base58Digit = none ∧
      s.toList.mapM base58Alphabet.toList.idxOf? = none := by
  rw [not_forall] at h
  obtain ⟨c, hc⟩ := h
  rw [Classical.not_imp] at hc
  obtain ⟨hmem, hlarge⟩ := hc
  constructor
  · obtain ⟨b, hb⟩ := List.exists_mem_of_ne_nil _ (Utf8.encodeChar_ne_nil c)
    apply mapM_eq_none.mpr
    refine ⟨b, ?_, base58Digit_of_le (Utf8.le_of_mem_encodeChar hlarge hb)⟩
    rw [Utf8.ofString_eq]
    exact List.mem_flatMap.mpr ⟨c, hmem, hb⟩
  · apply mapM_eq_none.mpr
    refine ⟨c, hmem, List.idxOf?_eq_none_iff.mpr ?_⟩
    exact fun halphabet => hlarge (ascii_of_mem_alphabet halphabet)

theorem value_dropWhile_zero (digits : List ℕ) :
    Positional.value 58 (digits.dropWhile (· = 0)) = Positional.value 58 digits := by
  have hzeros : digits.takeWhile (· = 0) =
      List.replicate (digits.takeWhile (· = 0)).length 0 := by
    apply List.eq_replicate_of_mem
    intro d hd
    simpa using List.mem_takeWhile_imp hd
  conv_rhs => rw [← List.takeWhile_append_dropWhile (p := (· = 0)) (l := digits)]
  rw [Positional.value_append, hzeros, Positional.value_replicate_zero, Nat.zero_mul, Nat.zero_add]

/-- What the decoder makes of the digits of a text. -/
theorem base58Bytes_eq {digits : List ℕ} (h : ∀ d ∈ digits, d < 58) :
    List.replicate (digits.takeWhile (· = 0)).length 0 ++
      (digits.foldl (fun result d => mulAdd result (UInt32.ofNat d)) []).reverse =
        base58Bytes digits := by
  have hbuffer := congrArg (List.map UInt8.ofNat) (foldl_mulAdd h)
  rw [List.map_map] at hbuffer
  have hid : UInt8.ofNat ∘ UInt8.toNat = id := by
    funext b
    exact UInt8.ofNat_toNat
  rw [hid, List.map_id] at hbuffer
  rw [base58Bytes, value_dropWhile_zero, hbuffer]

theorem base58Decode_eq (s : String) : base58Decode s = base58Reference s := by
  by_cases hascii : ∀ c ∈ s.toList, c.toNat < 128
  · obtain ⟨hdigits, hones, hlength⟩ := bytes_of_ascii hascii
    simp only [base58Decode, base58Reference, hlength, foldlM_map, hdigits, hones]
    split
    · rfl
    · cases hm : s.toList.mapM base58Alphabet.toList.idxOf? with
      | none => rfl
      | some digits =>
        have hall := mapM_eq_some.mp hm
        have hlt : ∀ d ∈ digits, d < 58 := by
          intro d hd
          obtain ⟨c, hc⟩ := exists_of_forall₂ hall hd
          exact digit_lt hc
        simp only [Option.map_some, Option.bind_eq_bind, Option.bind_some]
        rw [length_takeWhile_ones hall, base58Bytes_eq hlt]
  · obtain ⟨hbytes, hchars⟩ := mapM_of_not_ascii hascii
    simp only [base58Decode, base58Reference, foldlM_map, hbytes, hchars]
    split <;> split <;> rfl

end Reference

section Injective

/-- The first byte of the shortest form of a number is not zero. -/
theorem head_shortest {n : ℕ} {b : UInt8}
    (h : ((Nat.digits 256 n).map UInt8.ofNat).reverse.head? = some b) : b ≠ 0 := by
  rw [List.head?_reverse, List.getLast?_map, Option.map_eq_some_iff] at h
  obtain ⟨d, hd, rfl⟩ := h
  have hmem := List.mem_of_getLast? hd
  have hlt := Nat.digits_lt_base (by omega) hmem
  have hn : n ≠ 0 := by
    intro hn
    simp [hn] at hmem
  have hne := Nat.getLast_digit_ne_zero 256 hn
  rw [List.getLast?_eq_some_getLast (List.ne_nil_of_mem hmem), Option.some.injEq] at hd
  rw [hd] at hne
  intro hzero
  have hnat := congrArg UInt8.toNat hzero
  rw [UInt8.toNat_ofNat', Nat.mod_eq_of_lt hlt] at hnat
  exact hne hnat

theorem zeros_append_inj {m n : ℕ} {xs ys : List UInt8} (hx : ∀ b, xs.head? = some b → b ≠ 0)
    (hy : ∀ b, ys.head? = some b → b ≠ 0)
    (h : List.replicate m 0 ++ xs = List.replicate n 0 ++ ys) : m = n ∧ xs = ys := by
  induction m generalizing n with
  | zero =>
    cases n with
    | zero => exact ⟨rfl, by simpa using h⟩
    | succ n =>
      have hhead := congrArg List.head? h
      exact absurd rfl (hx 0 (by simpa [List.replicate_succ] using hhead))
  | succ m ih =>
    cases n with
    | zero =>
      have hhead := congrArg List.head? h
      exact absurd rfl (hy 0 (by simpa [List.replicate_succ] using hhead.symm))
    | succ n =>
      rw [List.replicate_succ, List.replicate_succ, List.cons_append, List.cons_append,
        List.cons.injEq] at h
      obtain ⟨hmn, hrest⟩ := ih h.2
      exact ⟨congrArg Nat.succ hmn, hrest⟩

theorem map_ofNat_inj {xs ys : List ℕ} (hx : ∀ d ∈ xs, d < 256) (hy : ∀ d ∈ ys, d < 256)
    (h : xs.map UInt8.ofNat = ys.map UInt8.ofNat) : xs = ys := by
  have hback : ∀ zs : List ℕ, (∀ d ∈ zs, d < 256) →
      (zs.map UInt8.ofNat).map UInt8.toNat = zs := by
    intro zs hz
    induction zs with
    | nil => rfl
    | cons d zs ih =>
      rw [List.forall_mem_cons] at hz
      rw [List.map_cons, List.map_cons, ih hz.2, UInt8.toNat_ofNat', Nat.mod_eq_of_lt hz.1]
  rw [← hback xs hx, ← hback ys hy, h]

theorem base58Bytes_injective {xs ys : List ℕ} (hx : ∀ d ∈ xs, d < 58) (hy : ∀ d ∈ ys, d < 58)
    (h : base58Bytes xs = base58Bytes ys) : xs = ys := by
  obtain ⟨hzeros, hbytes⟩ :=
    zeros_append_inj (fun _ => head_shortest) (fun _ => head_shortest) h
  have hdigits := map_ofNat_inj (fun _ => Nat.digits_lt_base (by omega))
    (fun _ => Nat.digits_lt_base (by omega)) (List.reverse_injective hbytes)
  have hlead : ∀ zs : List ℕ, ∀ d ∈ (zs.dropWhile (· = 0)).head?, d ≠ 0 := by
    intro zs d hd
    have hhead := List.head?_dropWhile_not (fun d : ℕ => decide (d = 0)) zs
    rw [Option.mem_def.mp hd] at hhead
    simpa using hhead
  have hrest : xs.dropWhile (· = 0) = ys.dropWhile (· = 0) := by
    apply List.reverse_injective
    rw [← Positional.digits_value (b := 58) (by omega) _ (hlead xs),
      ← Positional.digits_value (b := 58) (by omega) _ (hlead ys)]
    · rw [← Nat.ofDigits_digits 256 (Positional.value 58 (xs.dropWhile (· = 0))), hdigits,
        Nat.ofDigits_digits]
    · intro d hd
      exact hy d (List.dropWhile_subset _ hd)
    · intro d hd
      exact hx d (List.dropWhile_subset _ hd)
  have hreplicate : ∀ zs : List ℕ, zs.takeWhile (· = 0) =
      List.replicate (zs.takeWhile (· = 0)).length 0 := by
    intro zs
    apply List.eq_replicate_of_mem
    intro d hd
    simpa using List.mem_takeWhile_imp hd
  rw [← List.takeWhile_append_dropWhile (p := (· = 0)) (l := xs), hrest, hreplicate xs, hzeros,
    ← hreplicate ys, List.takeWhile_append_dropWhile]

theorem base58Decode_injective {s t : String} {bytes : List UInt8}
    (hs : base58Decode s = some bytes) (ht : base58Decode t = some bytes) : s = t := by
  have hdigits : ∀ r : String, base58Decode r = some bytes → ∃ digits,
      List.Forall₂ (fun c d => base58Alphabet.toList.idxOf? c = some d) r.toList digits ∧
        base58Bytes digits = bytes := by
    intro r hr
    rw [base58Decode_eq, base58Reference] at hr
    split at hr
    · exact absurd hr (by simp)
    · obtain ⟨digits, hm, hbytes⟩ := Option.map_eq_some_iff.mp hr
      exact ⟨digits, mapM_eq_some.mp hm, hbytes⟩
  obtain ⟨xs, hxs, hx⟩ := hdigits s hs
  obtain ⟨ys, hys, hy⟩ := hdigits t ht
  have hlt : ∀ {cs : List Char} {zs : List ℕ},
      List.Forall₂ (fun c d => base58Alphabet.toList.idxOf? c = some d) cs zs →
        ∀ d ∈ zs, d < 58 := by
    intro cs zs hall d hd
    obtain ⟨c, hc⟩ := exists_of_forall₂ hall hd
    exact digit_lt hc
  have hsame := base58Bytes_injective (hlt hxs) (hlt hys) (hx.trans hy.symm)
  rw [← hsame] at hys
  apply String.toList_inj.mp
  generalize s.toList = cs at hxs
  generalize t.toList = cs' at hys
  clear hsame hx hy
  induction hxs generalizing cs' with
  | nil =>
    cases hys
    rfl
  | cons hc _ ih =>
    cases hys with
    | cons hc' hrest => rw [eq_of_digit hc hc', ih _ hrest]

end Injective

/-- Nothing is decoded exactly for a text that is too long or not of the alphabet; all else is
decoded as the reference says, no two texts to the same bytes. -/
theorem base58_decode :
    (∀ s, base58Decode s = base58Reference s) ∧
      (∀ s, base58Decode s = none ↔ 128 < s.length ∨ ∃ c ∈ s.toList, c ∉ base58Alphabet.toList) ∧
      ∀ s t bytes, base58Decode s = some bytes → base58Decode t = some bytes → s = t := by
  refine ⟨base58Decode_eq, ?_, fun _ _ _ => base58Decode_injective⟩
  intro s
  rw [base58Decode_eq, base58Reference]
  split
  · next hlong => simp [hlong]
  · next hshort =>
    rw [Option.map_eq_none_iff, mapM_eq_none]
    simp [hshort, List.idxOf?_eq_none_iff]

end ClipRules
