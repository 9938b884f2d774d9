import Mathlib
import WinCommander.ClipRules.Base58

/-!
# The checksums of the detectors

A detector accepts a candidate by its digits, its letters or a checksum of them.  The code computes
with 32-bit numbers and indexes slices; every such step is checked here, so that a result is also
the absence of a panic.
-/

namespace ClipRules

open Optional

/-- A 32-bit number, unless the operation overflows. -/
def u32 (n : ℕ) : Option ℕ := if n < 2 ^ 32 then some n else none

/-- A difference, unless it is negative. -/
def checkedSub (a b : ℕ) : Option ℕ := if b ≤ a then some (a - b) else none

/-- The part of a slice between two offsets. -/
def slice {α : Type} (xs : List α) (start stop : ℕ) : Option (List α) :=
  if start ≤ stop ∧ stop ≤ xs.length then some (Bytes.between xs start stop) else none

def sum (xs : List ℕ) : Option ℕ := xs.foldlM (fun total x => u32 (total + x)) 0

section Bytes

def isDigit (b : UInt8) : Bool := 48 ≤ b.toNat ∧ b.toNat ≤ 57

def isUppercase (b : UInt8) : Bool := 65 ≤ b.toNat ∧ b.toNat ≤ 90

def isLowercase (b : UInt8) : Bool := 97 ≤ b.toNat ∧ b.toNat ≤ 122

def isAlphanumeric (b : UInt8) : Bool := isDigit b || isUppercase b || isLowercase b

def toUppercase (b : UInt8) : UInt8 := if isLowercase b then UInt8.ofNat (b.toNat - 32) else b

/-- The digits among the bytes, by their values. -/
def digitsOf (bytes : List UInt8) : List ℕ := (bytes.filter isDigit).map fun b => b.toNat - 48

end Bytes

section Validators

def luhnTerm (i d : ℕ) : Option ℕ :=
  if i % 2 = 1 then do
    let doubled ← u32 (d * 2)
    if 9 < doubled then checkedSub doubled 9 else some doubled
  else some d

def validPaymentCard (digits : List ℕ) : Option Bool :=
  if ¬ (13 ≤ digits.length ∧ digits.length ≤ 19) ∨ ¬ digits.any (· ≠ 0) then some false
  else do
    let terms ← digits.reverse.zipIdx.mapM fun d => luhnTerm d.2 d.1
    let total ← sum terms
    some (total % 10 = 0)

def ibanLengths : List (String × ℕ) :=
  [("AL", 28), ("AD", 24), ("AT", 20), ("AZ", 28), ("BH", 22), ("BE", 16), ("BA", 20), ("BR", 29),
    ("BG", 22), ("CR", 22), ("HR", 21), ("CY", 28), ("CZ", 24), ("DK", 18), ("DO", 28), ("EE", 20),
    ("FO", 18), ("FI", 18), ("FR", 27), ("GE", 22), ("DE", 22), ("GI", 23), ("GR", 27), ("GL", 18),
    ("GT", 28), ("HU", 28), ("IS", 26), ("IE", 22), ("IL", 23), ("IT", 27), ("JO", 30), ("KZ", 20),
    ("XK", 20), ("KW", 30), ("LV", 21), ("LB", 28), ("LI", 21), ("LT", 20), ("LU", 20), ("MK", 19),
    ("MT", 31), ("MR", 27), ("MU", 30), ("MD", 24), ("MC", 27), ("ME", 22), ("NL", 18), ("NO", 15),
    ("PK", 24), ("PS", 29), ("PL", 28), ("PT", 25), ("QA", 29), ("RO", 24), ("SM", 27), ("SA", 24),
    ("RS", 22), ("SK", 24), ("SI", 19), ("ES", 24), ("SE", 24), ("CH", 21), ("TN", 24), ("TR", 26),
    ("AE", 23), ("GB", 22), ("VA", 22), ("SC", 31), ("ST", 25), ("SV", 28), ("TL", 23), ("UA", 29),
    ("LC", 32)]

def ibanLength (country : List UInt8) : Option ℕ :=
  (ibanLengths.find? fun row => row.1.toList.map (fun c => UInt8.ofNat c.toNat) = country).map
    Prod.snd

/-- One character of the rearranged account number in the running remainder. -/
def ibanStep (remainder : ℕ) (b : UInt8) : Option ℕ :=
  if isDigit b then do
    let shifted ← u32 (remainder * 10)
    let digit ← checkedSub b.toNat 48
    let next ← u32 (shifted + digit)
    some (next % 97)
  else do
    let shifted ← u32 (remainder * 100)
    let letter ← checkedSub b.toNat 65
    let next ← u32 (shifted + (letter + 10))
    some (next % 97)

def validIban (bytes : List UInt8) : Option Bool :=
  let compact := (bytes.filter isAlphanumeric).map toUppercase
  if ¬ (15 ≤ compact.length ∧ compact.length ≤ 34) then some false
  else do
    let country ← slice compact 0 2
    if ibanLength country ≠ some compact.length then some false
    else do
      let account ← slice compact 4 compact.length
      let start ← slice compact 0 4
      let remainder ← (account ++ start).foldlM ibanStep 0
      some (remainder = 1)

def validSsn (digits : List ℕ) : Option Bool :=
  if digits.length ≠ 9 then some false
  else do
    let d0 ← digits[0]?
    let d1 ← digits[1]?
    let d2 ← digits[2]?
    let middle ← slice digits 3 5
    let serial ← slice digits 5 digits.length
    some (!(d0 = 0 ∧ d1 = 0 ∧ d2 = 0) && d0 ≠ 9 && !(d0 = 6 ∧ d1 = 6 ∧ d2 = 6) &&
      middle.any (· ≠ 0) && serial.any (· ≠ 0))

def validItin (digits : List ℕ) : Option Bool :=
  if digits.length ≠ 9 then some false
  else do
    let d0 ← digits[0]?
    if d0 ≠ 9 then some false
    else do
      let d3 ← digits[3]?
      let d4 ← digits[4]?
      let shifted ← u32 (d3 * 10)
      let middle ← u32 (shifted + d4)
      let serial ← slice digits 5 digits.length
      some ((50 ≤ middle && middle ≤ 65 || 70 ≤ middle && middle ≤ 88 ||
        90 ≤ middle && middle ≤ 92 || 94 ≤ middle && middle ≤ 99) && serial.any (· ≠ 0))

def validAba (digits : List ℕ) : Option Bool :=
  if digits.length ≠ 9 ∨ digits.all (· = 0) then some false
  else do
    let d0 ← digits[0]?
    let d1 ← digits[1]?
    let shifted ← u32 (d0 * 10)
    let leading ← u32 (shifted + d1)
    if 1 ≤ leading ∧ leading ≤ 12 ∨ 21 ≤ leading ∧ leading ≤ 32 ∨ 61 ≤ leading ∧ leading ≤ 72 ∨
        leading = 80 then do
      let terms ← (digits.zip [3, 7, 1, 3, 7, 1, 3, 7, 1]).mapM fun p => u32 (p.1 * p.2)
      let total ← sum terms
      some (total % 10 = 0)
    else some false

def validNino (bytes : List UInt8) : Bool :=
  !(["BG", "GB", "KN", "NK", "NT", "TN", "ZZ"].any fun start =>
    (start.toList.map fun c => UInt8.ofNat c.toNat).isPrefixOf (bytes.map toUppercase))

def validNhs (digits : List ℕ) : Option Bool :=
  if digits.length ≠ 10 ∨ digits.all (· = 0) then some false
  else do
    let body ← slice digits 0 9
    let terms ← (body.zip [10, 9, 8, 7, 6, 5, 4, 3, 2]).mapM fun p => u32 (p.1 * p.2)
    let total ← sum terms
    let left ← checkedSub 11 (total % 11)
    let d9 ← digits[9]?
    some (left % 11 ≠ 10 && left % 11 = d9)

/-- The number that a foreigner's identifier begins with, and the digits after it. -/
def spanishNumber (isNie : Bool) (compact : List UInt8) : Option (Option (ℕ × List UInt8)) :=
  if isNie then do
    let first : UInt8 ← compact[0]?
    let digits ← slice compact 1 8
    some (if first.toNat = 88 then some (0, digits) else if first.toNat = 89 then some (1, digits)
      else if first.toNat = 90 then some (2, digits) else none)
  else do
    let digits ← slice compact 0 8
    some (some (0, digits))

def spanishStep (n : ℕ) (b : UInt8) : Option ℕ := do
  let shifted ← u32 (n * 10)
  let digit ← checkedSub b.toNat 48
  u32 (shifted + digit)

def spanishLetters : List UInt8 :=
  "TRWAGMYFPDXBNJZSQVHLCKE".toList.map fun c => UInt8.ofNat c.toNat

def validSpanishId (isNie : Bool) (bytes : List UInt8) : Option Bool :=
  let compact := (bytes.filter (·.toNat ≠ 45)).map toUppercase
  if compact.length ≠ 9 then some false
  else do
    let last ← compact[8]?
    if isUppercase last = false then some false
    else
      match ← spanishNumber isNie compact with
      | none => some false
      | some (start, digits) =>
        if digits.all isDigit = false then some false
        else do
          let number ← digits.foldlM spanishStep start
          let letter ← spanishLetters[number % 23]?
          some (letter = last)

end Validators

/-- The hash of a wallet's version and key. -/
def validWallet (sha256 : List UInt8 → List UInt8) (s : String) : Option Bool :=
  match base58Decode s with
  | none => some false
  | some bytes =>
    if bytes.length ≠ 25 then some false
    else do
      let version ← bytes[0]?
      let payload ← slice bytes 0 21
      let digest ← slice (sha256 (sha256 payload)) 0 4
      let check ← slice bytes 21 bytes.length
      some ((version = 0 || version = 5) && digest = check)

def valid (sha256 : List UInt8 → List UInt8) (id candidate : String) : Option Bool :=
  let bytes := Bytes.ofString candidate
  let digits := digitsOf bytes
  match id with
  | "payment_card" => validPaymentCard digits
  | "iban" => validIban bytes
  | "us_ssn" => validSsn digits
  | "us_itin" => validItin digits
  | "us_aba_routing" => validAba digits
  | "uk_nino" => some (validNino bytes)
  | "uk_nhs" => validNhs digits
  | "es_dni" => validSpanishId false bytes
  | "es_nie" => validSpanishId true bytes
  | "crypto_wallet" => validWallet sha256 candidate
  | _ => some true

section References

/-- The result is there, and it is the truth of a statement. -/
def Decides (result : Option Bool) (P : Prop) : Prop := ∃ b, result = some b ∧ (b = true ↔ P)

/-- Every second digit from the right counts with the digits of its double. -/
def luhnWeight (i d : ℕ) : ℕ := if i % 2 = 1 then 2 * d / 10 + 2 * d % 10 else d

def luhnSum (digits : List ℕ) : ℕ :=
  (digits.reverse.zipIdx.map fun d => luhnWeight d.2 d.1).sum

def IsPaymentCard (digits : List ℕ) : Prop :=
  (13 ≤ digits.length ∧ digits.length ≤ 19) ∧ (∃ d ∈ digits, d ≠ 0) ∧ 10 ∣ luhnSum digits

/-- The letters and digits of a candidate, in capitals. -/
def compactOf (bytes : List UInt8) : List UInt8 := (bytes.filter isAlphanumeric).map toUppercase

/-- A digit stands for itself, and a letter for a number of two digits: `A` is 10 and `Z` is 35. -/
def expand (b : UInt8) : List ℕ :=
  if isDigit b then [b.toNat - 48] else [(b.toNat - 55) / 10, (b.toNat - 55) % 10]

/-- The account number, the first four characters at its end and the letters expanded. -/
def ibanNumber (compact : List UInt8) : ℕ :=
  Positional.value 10 ((compact.drop 4 ++ compact.take 4).flatMap expand)

def IsIban (compact : List UInt8) : Prop :=
  (15 ≤ compact.length ∧ compact.length ≤ 34) ∧
    ibanLength (compact.take 2) = some compact.length ∧ ibanNumber compact % 97 = 1

def weighted (digits weights : List ℕ) : ℕ := (List.zipWith (· * ·) digits weights).sum

/-- The first two digits that are in use. -/
def AbaLeading (n : ℕ) : Prop :=
  1 ≤ n ∧ n ≤ 12 ∨ 21 ≤ n ∧ n ≤ 32 ∨ 61 ≤ n ∧ n ≤ 72 ∨ n = 80

def IsAba (digits : List ℕ) : Prop :=
  digits.length = 9 ∧ (∃ d ∈ digits, d ≠ 0) ∧ AbaLeading (Positional.value 10 (digits.take 2)) ∧
    10 ∣ weighted digits [3, 7, 1, 3, 7, 1, 3, 7, 1]

def IsNhs (digits : List ℕ) : Prop :=
  digits.length = 10 ∧ (∃ d ∈ digits, d ≠ 0) ∧
    11 ∣ weighted digits [10, 9, 8, 7, 6, 5, 4, 3, 2, 1]

/-- The first digit that the letter of a foreigner's identifier stands for. -/
def nieDigit (b : UInt8) : Option ℕ :=
  if b.toNat = 88 then some 0 else if b.toNat = 89 then some 1
  else if b.toNat = 90 then some 2 else none

/-- The letter of a number. -/
def HasLetter (digits : List ℕ) (last : UInt8) : Prop :=
  spanishLetters[Positional.value 10 digits % 23]? = some last

def IsDni (compact : List UInt8) : Prop :=
  ∃ body last, compact = body ++ [last] ∧ body.length = 8 ∧ (∀ b ∈ body, isDigit b = true) ∧
    HasLetter (body.map fun b => b.toNat - 48) last

def IsNie (compact : List UInt8) : Prop :=
  ∃ first d body last, compact = first :: body ++ [last] ∧ body.length = 7 ∧
    (∀ b ∈ body, isDigit b = true) ∧ nieDigit first = some d ∧
      HasLetter (d :: body.map fun b => b.toNat - 48) last

/-- The bytes of a candidate without hyphens, in capitals. -/
def unhyphened (bytes : List UInt8) : List UInt8 := (bytes.filter (·.toNat ≠ 45)).map toUppercase

end References

section Checked

theorem u32_eq {n : ℕ} (h : n < 2 ^ 32) : u32 n = some n := if_pos h

theorem checkedSub_eq {a b : ℕ} (h : b ≤ a) : checkedSub a b = some (a - b) := if_pos h

theorem slice_take {α : Type} {xs : List α} {n : ℕ} (h : n ≤ xs.length) :
    slice xs 0 n = some (xs.take n) := by
  rw [slice, if_pos ⟨Nat.zero_le n, h⟩, Bytes.between, List.drop_zero, Nat.sub_zero]

theorem slice_drop {α : Type} {xs : List α} {n : ℕ} (h : n ≤ xs.length) :
    slice xs n xs.length = some (xs.drop n) := by
  rw [slice, if_pos ⟨h, Nat.le_refl _⟩, Bytes.between, ← List.length_drop, List.take_length]

theorem sum_eq {xs : List ℕ} (h : xs.sum < 2 ^ 32) : sum xs = some xs.sum := by
  have hfrom : ∀ total, total + xs.sum < 2 ^ 32 →
      xs.foldlM (fun total x => u32 (total + x)) total = some (total + xs.sum) := by
    clear h
    induction xs with
    | nil => simp
    | cons x xs ih =>
      intro total h
      rw [List.sum_cons] at h ⊢
      rw [List.foldlM_cons, u32_eq (by omega)]
      show xs.foldlM _ (total + x) = _
      rw [ih (total + x) (by omega), Nat.add_assoc]
  rw [sum, hfrom 0 (by omega), Nat.zero_add]

theorem sum_of_le (bound : ℕ) {xs : List ℕ} (h : ∀ x ∈ xs, x ≤ bound)
    (hfits : xs.length * bound < 2 ^ 32) : sum xs = some xs.sum := by
  apply sum_eq
  have hle := List.sum_le_card_nsmul xs bound h
  rw [smul_eq_mul] at hle
  omega

theorem digit_of_mem {bytes : List UInt8} {d : ℕ} (h : d ∈ digitsOf bytes) : d ≤ 9 := by
  obtain ⟨b, hb, rfl⟩ := List.mem_map.mp h
  have hdigit := (List.mem_filter.mp hb).2
  simp only [isDigit, decide_eq_true_eq] at hdigit
  omega

theorem any_ne_zero {digits : List ℕ} : digits.any (· ≠ 0) = true ↔ ∃ d ∈ digits, d ≠ 0 := by
  simp

theorem all_eq_zero {digits : List ℕ} : digits.all (· = 0) = true ↔ ¬ ∃ d ∈ digits, d ≠ 0 := by
  simp

end Checked

section Luhn

theorem luhnTerm_eq {i d : ℕ} (h : d ≤ 9) : luhnTerm i d = some (luhnWeight i d) := by
  unfold luhnTerm luhnWeight
  split
  · rw [u32_eq (by omega)]
    show (if 9 < d * 2 then checkedSub (d * 2) 9 else some (d * 2)) = _
    split
    · rw [checkedSub_eq (by omega)]
      congr 1
      omega
    · congr 1
      omega
  · rfl

theorem luhnWeight_le {i d : ℕ} (h : d ≤ 9) : luhnWeight i d ≤ 9 := by
  unfold luhnWeight
  split <;> omega

theorem mem_of_mem_zipIdx {digits : List ℕ} {d : ℕ × ℕ} (h : d ∈ digits.zipIdx) :
    d.1 ∈ digits := by
  have hmem := List.mem_map_of_mem (f := Prod.fst) h
  rwa [List.zipIdx_map_fst] at hmem

theorem validPaymentCard_decides {digits : List ℕ} (h : ∀ d ∈ digits, d ≤ 9) :
    Decides (validPaymentCard digits) (IsPaymentCard digits) := by
  unfold validPaymentCard IsPaymentCard
  split
  · next hbad =>
    refine ⟨false, rfl, iff_of_false (by simp) ?_⟩
    rintro ⟨hlength, hne, -⟩
    rcases hbad with hbad | hbad
    · exact hbad hlength
    · exact hbad (any_ne_zero.mpr hne)
  · next hgood =>
    rw [not_or, not_not, not_not] at hgood
    have hmem : ∀ d ∈ digits.reverse.zipIdx, d.1 ≤ 9 := fun d hd =>
      h d.1 (List.mem_reverse.mp (mem_of_mem_zipIdx hd))
    have hterms : digits.reverse.zipIdx.mapM (fun d => luhnTerm d.2 d.1) =
        some (digits.reverse.zipIdx.map fun d => luhnWeight d.2 d.1) :=
      mapM_of_forall fun d hd => luhnTerm_eq (hmem d hd)
    have hsum : sum (digits.reverse.zipIdx.map fun d => luhnWeight d.2 d.1) =
        some (luhnSum digits) := by
      apply sum_of_le 9
      · intro x hx
        obtain ⟨d, hd, rfl⟩ := List.mem_map.mp hx
        exact luhnWeight_le (hmem d hd)
      · rw [List.length_map, List.length_zipIdx, List.length_reverse]
        omega
    refine ⟨decide (luhnSum digits % 10 = 0), ?_, ?_⟩
    · rw [hterms]
      show (sum _ >>= _) = _
      rw [hsum]
      rfl
    · rw [decide_eq_true_eq, ← Nat.dvd_iff_mod_eq_zero]
      exact ⟨fun hdvd => ⟨hgood.1, any_ne_zero.mp hgood.2, hdvd⟩, fun hall => hall.2.2⟩

end Luhn

section Iban

/-- The letters and digits of a compact candidate. -/
def Compact (b : UInt8) : Prop := isDigit b = true ∨ isUppercase b = true

theorem compact_of_mem {bytes : List UInt8} {b : UInt8} (h : b ∈ compactOf bytes) : Compact b := by
  obtain ⟨c, hc, rfl⟩ := List.mem_map.mp h
  have hc := (List.mem_filter.mp hc).2
  unfold toUppercase
  split
  · next hlower =>
    right
    simp only [isLowercase, isUppercase, decide_eq_true_eq] at hlower ⊢
    rw [UInt8.toNat_ofNat']
    omega
  · next hlower =>
    simp only [isAlphanumeric, Bool.or_eq_true] at hc
    rcases hc with hc | hc
    · exact hc
    · exact absurd hc hlower

/-- What a character multiplies the number read so far by, and what it adds. -/
def weight (b : UInt8) : ℕ × ℕ := if isDigit b then (10, b.toNat - 48) else (100, b.toNat - 55)

theorem ibanStep_eq {r : ℕ} {b : UInt8} (hr : r < 97) (hb : Compact b) :
    ibanStep r b = some ((r * (weight b).1 + (weight b).2) % 97) := by
  unfold ibanStep weight
  split
  · next hdigit =>
    simp only [isDigit, decide_eq_true_eq] at hdigit
    rw [u32_eq (by omega), checkedSub_eq (by omega)]
    show ((u32 (r * 10 + (b.toNat - 48))).bind fun next => some (next % 97)) = _
    rw [u32_eq (by omega)]
    rfl
  · next hdigit =>
    have hupper := hb.resolve_left hdigit
    simp only [isUppercase, decide_eq_true_eq] at hupper
    have hletter : b.toNat - 65 + 10 = b.toNat - 55 := by omega
    rw [u32_eq (by omega), checkedSub_eq (by omega)]
    show ((u32 (r * 100 + (b.toNat - 65 + 10))).bind fun next => some (next % 97)) = _
    rw [hletter, u32_eq (by omega)]
    rfl

/-- Reading characters with their weights is reading the expanded digits. -/
theorem foldl_weight {bytes : List UInt8} (h : ∀ b ∈ bytes, Compact b) (n : ℕ) :
    (bytes.map weight).foldl (fun n d => n * d.1 + d.2) n =
      (bytes.flatMap expand).foldl (fun n d => n * 10 + d) n := by
  induction bytes generalizing n with
  | nil => rfl
  | cons b bytes ih =>
    rw [List.forall_mem_cons] at h
    rw [List.map_cons, List.foldl_cons, ih h.2, List.flatMap_cons, List.foldl_append]
    congr 1
    unfold weight expand
    split
    · rfl
    · show n * 100 + (b.toNat - 55) =
        (n * 10 + (b.toNat - 55) / 10) * 10 + (b.toNat - 55) % 10
      omega

theorem foldlM_ibanStep {bytes : List UInt8} (h : ∀ b ∈ bytes, Compact b) :
    bytes.foldlM ibanStep 0 = some (Positional.value 10 (bytes.flatMap expand) % 97) := by
  have hfold := foldlM_of_forall (P := fun r => r < 97) (f := ibanStep)
    (g := fun r b => (r * (weight b).1 + (weight b).2) % 97) bytes 0 (by omega) fun r hr b hb =>
      ⟨ibanStep_eq hr (h b hb), Nat.mod_lt _ (by omega)⟩
  have hmod := Positional.foldl_mod 97 (bytes.map weight) 0
  rw [Nat.zero_mod, List.foldl_map, foldl_weight h] at hmod
  rw [hfold, hmod]
  rfl

theorem validIban_decides (bytes : List UInt8) :
    Decides (validIban bytes) (IsIban (compactOf bytes)) := by
  unfold validIban IsIban
  have hcompact : (bytes.filter isAlphanumeric).map toUppercase = compactOf bytes := rfl
  simp only [hcompact]
  split
  · next hbad => exact ⟨false, rfl, iff_of_false (by simp) fun hall => hbad hall.1⟩
  · next hlength =>
    rw [not_not] at hlength
    rw [slice_take (by omega)]
    show Decides (if ibanLength ((compactOf bytes).take 2) ≠ some (compactOf bytes).length
      then _ else _) _
    split
    · next hbad => exact ⟨false, rfl, iff_of_false (by simp) fun hall => hbad hall.2.1⟩
    · next hcountry =>
      rw [not_not] at hcountry
      rw [slice_drop (by omega), slice_take (by omega)]
      have hall : ∀ b ∈ (compactOf bytes).drop 4 ++ (compactOf bytes).take 4, Compact b := by
        intro b hb
        apply @compact_of_mem bytes
        rcases List.mem_append.mp hb with hb | hb
        · exact List.mem_of_mem_drop hb
        · exact List.mem_of_mem_take hb
      refine ⟨decide (ibanNumber (compactOf bytes) % 97 = 1), ?_, ?_⟩
      · show (List.foldlM ibanStep 0 _ >>= _) = _
        rw [foldlM_ibanStep hall]
        rfl
      · rw [decide_eq_true_eq]
        exact ⟨fun hmod => ⟨hlength, hcountry, hmod⟩, fun hvalid => hvalid.2.2⟩

end Iban

section Weighted

/-- The products of digits and small weights, and their sum, fit. -/
theorem weighted_checked (digits weights : List ℕ) (hd : ∀ d ∈ digits, d ≤ 9)
    (hw : ∀ w ∈ weights, w ≤ 10) (hlength : digits.length ≤ 10) :
    ((digits.zip weights).mapM fun p => u32 (p.1 * p.2)) =
        some (List.zipWith (· * ·) digits weights) ∧
      sum (List.zipWith (· * ·) digits weights) = some (weighted digits weights) := by
  have hterm : ∀ p ∈ digits.zip weights, p.1 * p.2 ≤ 90 := by
    intro p hp
    have hmem := List.of_mem_zip hp
    exact Nat.mul_le_mul (hd p.1 hmem.1) (hw p.2 hmem.2)
  have hzip : List.zipWith (· * ·) digits weights = (digits.zip weights).map fun p => p.1 * p.2 :=
    (List.map_zip_eq_zipWith (f := fun p : ℕ × ℕ => p.1 * p.2)).symm
  constructor
  · rw [hzip]
    apply mapM_of_forall
    intro p hp
    have hle := hterm p hp
    exact u32_eq (by omega)
  · apply sum_of_le 90
    · intro x hx
      rw [hzip] at hx
      obtain ⟨p, hp, rfl⟩ := List.mem_map.mp hx
      exact hterm p hp
    · rw [List.length_zipWith]
      omega

theorem validAba_decides {digits : List ℕ} (h : ∀ d ∈ digits, d ≤ 9) :
    Decides (validAba digits) (IsAba digits) := by
  unfold validAba IsAba
  split
  · next hbad =>
    refine ⟨false, rfl, iff_of_false (by simp) ?_⟩
    rintro ⟨hlength, hne, -⟩
    rcases hbad with hbad | hbad
    · exact hbad hlength
    · exact all_eq_zero.mp hbad hne
  · next hgood =>
    rw [not_or, not_not, all_eq_zero, not_not] at hgood
    obtain ⟨hlength, hne⟩ := hgood
    obtain ⟨hterms, hsum⟩ := weighted_checked digits [3, 7, 1, 3, 7, 1, 3, 7, 1] h (by decide)
      (by omega)
    match digits, hlength with
    | [d0, d1, d2, d3, d4, d5, d6, d7, d8], hlength =>
      have hd0 : d0 ≤ 9 := h d0 (by simp)
      have hd1 : d1 ≤ 9 := h d1 (by simp)
      have hleading : Positional.value 10 [d0, d1] = d0 * 10 + d1 := by
        simp [Positional.value]
      simp only [List.getElem?_cons_zero, List.getElem?_cons_succ, Option.bind_eq_bind,
        Option.bind_some, u32_eq (show d0 * 10 < 2 ^ 32 by omega),
        u32_eq (show d0 * 10 + d1 < 2 ^ 32 by omega), hterms, hsum]
      rw [List.take_succ_cons, List.take_succ_cons, List.take_zero, hleading]
      split
      · next hin =>
        refine ⟨_, rfl, ?_⟩
        rw [decide_eq_true_eq, ← Nat.dvd_iff_mod_eq_zero]
        exact ⟨fun hdvd => ⟨hlength, hne, hin, hdvd⟩, fun hall => hall.2.2.2⟩
      · next hout => exact ⟨false, rfl, iff_of_false (by simp) fun hall => hout hall.2.2.1⟩

/-- A check digit that makes up for the weighted sum of the others. -/
theorem check_iff {total d : ℕ} (hd : d ≤ 9) :
    ((11 - total % 11) % 11 ≠ 10 ∧ (11 - total % 11) % 11 = d) ↔ 11 ∣ total + d := by
  rw [Nat.dvd_iff_mod_eq_zero]
  omega

theorem validNhs_decides {digits : List ℕ} (h : ∀ d ∈ digits, d ≤ 9) :
    Decides (validNhs digits) (IsNhs digits) := by
  unfold validNhs IsNhs
  split
  · next hbad =>
    refine ⟨false, rfl, iff_of_false (by simp) ?_⟩
    rintro ⟨hlength, hne, -⟩
    rcases hbad with hbad | hbad
    · exact hbad hlength
    · exact all_eq_zero.mp hbad hne
  · next hgood =>
    rw [not_or, not_not, all_eq_zero, not_not] at hgood
    obtain ⟨hlength, hne⟩ := hgood
    match digits, hlength with
    | [d0, d1, d2, d3, d4, d5, d6, d7, d8, d9], hlength =>
      obtain ⟨hterms, hsum⟩ := weighted_checked [d0, d1, d2, d3, d4, d5, d6, d7, d8]
        [10, 9, 8, 7, 6, 5, 4, 3, 2]
        (fun d hd => h d (List.mem_append_left [d9] hd)) (by decide) (by simp)
      have hbody : slice [d0, d1, d2, d3, d4, d5, d6, d7, d8, d9] 0 9 =
          some [d0, d1, d2, d3, d4, d5, d6, d7, d8] := slice_take (by simp)
      have hd9 : d9 ≤ 9 := h d9 (by simp)
      have hweighted : weighted [d0, d1, d2, d3, d4, d5, d6, d7, d8, d9]
          [10, 9, 8, 7, 6, 5, 4, 3, 2, 1] =
            weighted [d0, d1, d2, d3, d4, d5, d6, d7, d8] [10, 9, 8, 7, 6, 5, 4, 3, 2] + d9 := by
        simp only [weighted, List.zipWith_cons_cons, List.zipWith_nil_right, List.sum_cons,
          List.sum_nil]
        omega
      have hleft := checkedSub_eq (a := 11)
        (b := weighted [d0, d1, d2, d3, d4, d5, d6, d7, d8] [10, 9, 8, 7, 6, 5, 4, 3, 2] % 11)
        (by omega)
      simp only [hbody, hterms, hsum, hleft, Option.bind_eq_bind, Option.bind_some,
        List.getElem?_cons_zero, List.getElem?_cons_succ]
      refine ⟨_, rfl, ?_⟩
      rw [Bool.and_eq_true, decide_eq_true_eq, decide_eq_true_eq, check_iff hd9, ← hweighted]
      exact ⟨fun hdvd => ⟨hlength, hne, hdvd⟩, fun hall => hall.2.2⟩

end Weighted

section Spanish

theorem foldlM_spanishStep {bytes : List UInt8} (h : ∀ b ∈ bytes, isDigit b = true) {n : ℕ}
    (hfits : (n + 1) * 10 ^ bytes.length ≤ 2 ^ 32) :
    bytes.foldlM spanishStep n =
      some ((bytes.map fun b => b.toNat - 48).foldl (fun n d => n * 10 + d) n) := by
  induction bytes generalizing n with
  | nil => rfl
  | cons b bytes ih =>
    rw [List.forall_mem_cons] at h
    have hdigit := h.1
    simp only [isDigit, decide_eq_true_eq] at hdigit
    rw [List.length_cons, pow_succ] at hfits
    have hpow : 0 < 10 ^ bytes.length := by positivity
    have hlarge : (n + 1) * 10 ≤ 2 ^ 32 := by
      calc (n + 1) * 10 ≤ (n + 1) * (10 ^ bytes.length * 10) := by
            apply Nat.mul_le_mul_left
            omega
        _ ≤ 2 ^ 32 := hfits
    have hnext : (n * 10 + (b.toNat - 48) + 1) * 10 ^ bytes.length ≤ 2 ^ 32 := by
      calc (n * 10 + (b.toNat - 48) + 1) * 10 ^ bytes.length
          ≤ ((n + 1) * 10) * 10 ^ bytes.length := by
            apply Nat.mul_le_mul_right
            omega
        _ = (n + 1) * (10 ^ bytes.length * 10) := by ring
        _ ≤ 2 ^ 32 := hfits
    have hstep : spanishStep n b = some (n * 10 + (b.toNat - 48)) := by
      unfold spanishStep
      rw [u32_eq (by omega), checkedSub_eq (by omega)]
      exact u32_eq (by omega)
    rw [List.foldlM_cons, hstep, List.map_cons, List.foldl_cons]
    exact ih h.2 hnext

theorem length_spanishLetters : spanishLetters.length = 23 := by decide +kernel

theorem uppercase_of_hasLetter {digits : List ℕ} {last : UInt8} (h : HasLetter digits last) :
    isUppercase last = true := by
  have hall : spanishLetters.all isUppercase = true := by decide +kernel
  exact List.all_eq_true.mp hall last (List.mem_of_getElem? h)

/-- The letter is compared once the digits are read. -/
theorem spanish_decides {start : ℕ} {body : List UInt8} (last : UInt8) (hstart : start ≤ 9)
    (hlength : body.length ≤ 8) :
    Decides (if body.all isDigit = false then some false
        else do
          let number ← body.foldlM spanishStep start
          let letter ← spanishLetters[number % 23]?
          some (letter = last))
      ((∀ b ∈ body, isDigit b = true) ∧ HasLetter (start :: body.map fun b => b.toNat - 48) last) := by
  split
  · next hbad =>
    refine ⟨false, rfl, iff_of_false (by simp) ?_⟩
    rintro ⟨hall, -⟩
    rw [List.all_eq_true.mpr hall] at hbad
    exact absurd hbad (by simp)
  · next hgood =>
    have hall : ∀ b ∈ body, isDigit b = true := List.all_eq_true.mp (Bool.not_eq_false _ ▸ hgood)
    have hpow : 10 ^ body.length ≤ 10 ^ 8 := Nat.pow_le_pow_right (by omega) hlength
    have hfits : (start + 1) * 10 ^ body.length ≤ 2 ^ 32 := by
      calc (start + 1) * 10 ^ body.length ≤ 10 * 10 ^ 8 := Nat.mul_le_mul (by omega) hpow
        _ ≤ 2 ^ 32 := by norm_num
    have hvalue : (body.map fun b => b.toNat - 48).foldl (fun n d => n * 10 + d) start =
        Positional.value 10 (start :: body.map fun b => b.toNat - 48) := by
      rw [Positional.value, List.foldl_cons, Nat.zero_mul, Nat.zero_add]
    have hlt : Positional.value 10 (start :: body.map fun b => b.toNat - 48) % 23 <
        spanishLetters.length := by
      rw [length_spanishLetters]
      exact Nat.mod_lt _ (by omega)
    simp only [foldlM_spanishStep hall hfits, hvalue, List.getElem?_eq_getElem hlt,
      Option.bind_eq_bind, Option.bind_some]
    refine ⟨_, rfl, ?_⟩
    rw [decide_eq_true_eq, HasLetter, List.getElem?_eq_getElem hlt, Option.some.injEq]
    exact ⟨fun heq => ⟨hall, heq⟩, fun hboth => hboth.2⟩

theorem value_zero_cons (digits : List ℕ) :
    Positional.value 10 (0 :: digits) = Positional.value 10 digits := by
  rw [Positional.value_cons, Nat.zero_mul, Nat.zero_add]

theorem validDni_decides (bytes : List UInt8) :
    Decides (validSpanishId false bytes) (IsDni (unhyphened bytes)) := by
  unfold validSpanishId
  have hcompact : (bytes.filter (·.toNat ≠ 45)).map toUppercase = unhyphened bytes := rfl
  simp only [hcompact]
  generalize unhyphened bytes = compact
  split
  · next hbad =>
    refine ⟨false, rfl, iff_of_false (by simp) ?_⟩
    rintro ⟨body, last, rfl, hlength, -⟩
    exact hbad (by simp [hlength])
  · next hlength =>
    rw [not_not] at hlength
    match compact, hlength with
    | [c0, c1, c2, c3, c4, c5, c6, c7, c8], _ =>
      have hshape : IsDni [c0, c1, c2, c3, c4, c5, c6, c7, c8] ↔
          (∀ b ∈ [c0, c1, c2, c3, c4, c5, c6, c7], isDigit b = true) ∧
            HasLetter (0 :: [c0, c1, c2, c3, c4, c5, c6, c7].map fun b => b.toNat - 48) c8 := by
        unfold HasLetter
        rw [value_zero_cons]
        constructor
        · rintro ⟨body, last, heq, _, hall, hletter⟩
          have happend : [c0, c1, c2, c3, c4, c5, c6, c7] ++ [c8] = body ++ [last] := heq
          have hparts := List.append_inj' happend rfl
          rw [hparts.1, (List.cons.inj hparts.2).1]
          exact ⟨hall, hletter⟩
        · rintro ⟨hall, hletter⟩
          exact ⟨_, c8, rfl, rfl, hall, hletter⟩
      have hbody : slice [c0, c1, c2, c3, c4, c5, c6, c7, c8] 0 8 =
          some [c0, c1, c2, c3, c4, c5, c6, c7] := slice_take (by simp)
      simp only [List.getElem?_cons_zero, List.getElem?_cons_succ, Option.bind_eq_bind,
        Option.bind_some, spanishNumber, hbody, Bool.false_eq_true, if_false]
      rw [hshape]
      split
      · next hlower =>
        refine ⟨false, rfl, iff_of_false (by simp) ?_⟩
        rintro ⟨-, hletter⟩
        rw [uppercase_of_hasLetter hletter] at hlower
        exact absurd hlower (by simp)
      · exact spanish_decides c8 (by omega) (by simp)

theorem nieDigit_le {b : UInt8} {d : ℕ} (h : nieDigit b = some d) : d ≤ 9 := by
  unfold nieDigit at h
  split at h
  · rw [← Option.some.inj h]
    omega
  · split at h
    · rw [← Option.some.inj h]
      omega
    · split at h
      · rw [← Option.some.inj h]
        omega
      · exact absurd h (by simp)

theorem validNie_decides (bytes : List UInt8) :
    Decides (validSpanishId true bytes) (IsNie (unhyphened bytes)) := by
  unfold validSpanishId
  have hcompact : (bytes.filter (·.toNat ≠ 45)).map toUppercase = unhyphened bytes := rfl
  simp only [hcompact]
  generalize unhyphened bytes = compact
  split
  · next hbad =>
    refine ⟨false, rfl, iff_of_false (by simp) ?_⟩
    rintro ⟨first, d, body, last, rfl, hlength, -⟩
    exact hbad (by simp [hlength])
  · next hlength =>
    rw [not_not] at hlength
    match compact, hlength with
    | [c0, c1, c2, c3, c4, c5, c6, c7, c8], _ =>
      have hshape : IsNie [c0, c1, c2, c3, c4, c5, c6, c7, c8] ↔ ∃ d, nieDigit c0 = some d ∧
          (∀ b ∈ [c1, c2, c3, c4, c5, c6, c7], isDigit b = true) ∧
            HasLetter (d :: [c1, c2, c3, c4, c5, c6, c7].map fun b => b.toNat - 48) c8 := by
        constructor
        · rintro ⟨first, d, body, last, heq, _, hall, hd, hletter⟩
          have happend : [c0, c1, c2, c3, c4, c5, c6, c7] ++ [c8] = first :: body ++ [last] := heq
          have hparts := List.append_inj' happend rfl
          obtain ⟨hfirst, hbody⟩ := List.cons.inj hparts.1
          rw [hfirst, hbody, (List.cons.inj hparts.2).1]
          exact ⟨d, hd, hall, hletter⟩
        · rintro ⟨d, hd, hall, hletter⟩
          exact ⟨c0, d, _, c8, rfl, rfl, hall, hd, hletter⟩
      have hbody : slice [c0, c1, c2, c3, c4, c5, c6, c7, c8] 1 8 =
          some [c1, c2, c3, c4, c5, c6, c7] := rfl
      have hnumber : spanishNumber true [c0, c1, c2, c3, c4, c5, c6, c7, c8] =
          some ((nieDigit c0).map fun d => (d, [c1, c2, c3, c4, c5, c6, c7])) := by
        simp only [spanishNumber, hbody, List.getElem?_cons_zero, Option.bind_eq_bind,
          Option.bind_some, if_true]
        unfold nieDigit
        repeat' split
        all_goals rfl
      simp only [List.getElem?_cons_zero, List.getElem?_cons_succ, Option.bind_eq_bind,
        Option.bind_some, hnumber]
      rw [hshape]
      split
      · next hlower =>
        refine ⟨false, rfl, iff_of_false (by simp) ?_⟩
        rintro ⟨_, -, -, hletter⟩
        rw [uppercase_of_hasLetter hletter] at hlower
        exact absurd hlower (by simp)
      · cases hfirst : nieDigit c0 with
        | none => exact ⟨false, rfl, by simp⟩
        | some d =>
          have hchecked : Decides (if [c1, c2, c3, c4, c5, c6, c7].all isDigit = false
              then some false
              else do
                let number ← [c1, c2, c3, c4, c5, c6, c7].foldlM spanishStep d
                let letter ← spanishLetters[number % 23]?
                some (letter = c8)) _ :=
            spanish_decides c8 (nieDigit_le hfirst) (by simp)
          obtain ⟨result, hresult, hiff⟩ := hchecked
          refine ⟨result, hresult, hiff.trans ?_⟩
          simp

end Spanish

section Changed

/-- Two texts that differ in one character, a digit in both. -/
def OneDigitChanged (s t : String) : Prop :=
  ∃ (before : List Char) (a b : Char) (after : List Char), s.toList = before ++ a :: after ∧
    t.toList = before ++ b :: after ∧ a.isDigit = true ∧ b.isDigit = true ∧ a ≠ b

theorem toNat_of_isDigit {c : Char} (h : c.isDigit = true) : 48 ≤ c.toNat ∧ c.toNat ≤ 57 := by
  simp only [Char.isDigit, Bool.and_eq_true, decide_eq_true_eq] at h
  exact ⟨UInt32.le_iff_toNat_le.mp h.1, UInt32.le_iff_toNat_le.mp h.2⟩

/-- The texts differ in one byte, a digit in both. -/
theorem OneDigitChanged.bytes {s t : String} (h : OneDigitChanged s t) :
    ∃ before x y after, Bytes.ofString s = before ++ x :: after ∧
      Bytes.ofString t = before ++ y :: after ∧ isDigit x = true ∧ isDigit y = true ∧
        x.toNat - 48 ≠ y.toNat - 48 := by
  obtain ⟨before, a, b, after, hs, ht, ha, hb, hne⟩ := h
  have ha := toNat_of_isDigit ha
  have hb := toNat_of_isDigit hb
  have hbyte : ∀ c : Char, 48 ≤ c.toNat ∧ c.toNat ≤ 57 →
      String.utf8EncodeChar c = [UInt8.ofNat c.toNat] ∧ (UInt8.ofNat c.toNat).toNat = c.toNat := by
    intro c hc
    refine ⟨Utf8.encodeChar_of_ascii (by omega), ?_⟩
    rw [UInt8.toNat_ofNat']
    omega
  have hchars : a.toNat ≠ b.toNat := fun heq => hne (Char.toNat_inj.mp heq)
  refine ⟨before.flatMap String.utf8EncodeChar, UInt8.ofNat a.toNat, UInt8.ofNat b.toNat,
    after.flatMap String.utf8EncodeChar, ?_, ?_, ?_, ?_, ?_⟩
  · rw [Utf8.ofString_eq, hs, List.flatMap_append, List.flatMap_cons, (hbyte a ha).1]
    rfl
  · rw [Utf8.ofString_eq, ht, List.flatMap_append, List.flatMap_cons, (hbyte b hb).1]
    rfl
  · simp only [isDigit, (hbyte a ha).2, ha, and_self, decide_true]
  · simp only [isDigit, (hbyte b hb).2, hb, and_self, decide_true]
  · rw [(hbyte a ha).2, (hbyte b hb).2]
    omega

theorem digitsOf_append {before after : List UInt8} {x : UInt8} (hx : isDigit x = true) :
    digitsOf (before ++ x :: after) = digitsOf before ++ (x.toNat - 48) :: digitsOf after := by
  simp [digitsOf, List.filter_append, hx]

theorem luhnWeight_inj {i a b : ℕ} (ha : a ≤ 9) (hb : b ≤ 9)
    (h : luhnWeight i a % 10 = luhnWeight i b % 10) : a = b := by
  unfold luhnWeight at h
  split at h
  · have hall : ∀ a b : Fin 10, (2 * a.val / 10 + 2 * a.val % 10) % 10 =
        (2 * b.val / 10 + 2 * b.val % 10) % 10 → a = b := by decide
    have hfin := hall ⟨a, by omega⟩ ⟨b, by omega⟩ h
    exact congrArg Fin.val hfin
  · omega

/-- A digit counts in the sum with its weight alone. -/
theorem luhnSum_append (before after : List ℕ) :
    ∃ rest, ∀ d, luhnSum (before ++ d :: after) = rest + luhnWeight after.length d := by
  refine ⟨(after.reverse.zipIdx.map fun d => luhnWeight d.2 d.1).sum +
    ((before.reverse.zipIdx (after.length + 1)).map fun d => luhnWeight d.2 d.1).sum, ?_⟩
  intro d
  simp only [luhnSum, List.reverse_append, List.reverse_cons, List.append_assoc,
    List.singleton_append, List.zipIdx_append, List.zipIdx_cons, List.length_reverse,
    List.map_append, List.map_cons, List.sum_append, List.sum_cons, Nat.zero_add]
  omega

theorem paymentCard_changed {before after : List ℕ} {a b : ℕ} (ha : a ≤ 9) (hb : b ≤ 9)
    (hne : a ≠ b) (h : IsPaymentCard (before ++ a :: after)) :
    ¬ IsPaymentCard (before ++ b :: after) := by
  intro h'
  obtain ⟨rest, hrest⟩ := luhnSum_append before after
  have hdvd := h.2.2
  have hdvd' := h'.2.2
  rw [hrest] at hdvd hdvd'
  apply hne
  apply @luhnWeight_inj after.length _ _ ha hb
  omega

theorem compactOf_append {before after : List UInt8} {x : UInt8} (hx : isDigit x = true) :
    compactOf (before ++ x :: after) = compactOf before ++ x :: compactOf after := by
  have hkeep : isAlphanumeric x = true := by simp [isAlphanumeric, hx]
  have hupper : toUppercase x = x := by
    unfold toUppercase
    simp only [isDigit, decide_eq_true_eq] at hx
    rw [if_neg]
    simp only [isLowercase, decide_eq_true_eq]
    omega
  simp [compactOf, List.filter_append, hkeep, hupper]

/-- A digit stays one character of the rearranged number. -/
theorem rearranged_append (before after : List UInt8) :
    ∃ left right, ∀ x, (before ++ x :: after).drop 4 ++ (before ++ x :: after).take 4 =
      left ++ x :: right := by
  by_cases hplace : before.length < 4
  · refine ⟨after.drop (3 - before.length) ++ before, after.take (3 - before.length), ?_⟩
    intro x
    have hfour : 4 - before.length = 3 - before.length + 1 := by omega
    have htake : before.take 4 = before := List.take_of_length_le (by omega)
    have hdrop : before.drop 4 = [] := List.drop_of_length_le (by omega)
    rw [List.drop_append, List.take_append, hdrop, htake, hfour, List.drop_succ_cons,
      List.take_succ_cons, List.nil_append, List.append_assoc]
  · refine ⟨before.drop 4, after ++ before.take 4, ?_⟩
    intro x
    have hfour : 4 - before.length = 0 := by omega
    rw [List.drop_append, List.take_append, hfour, List.drop_zero, List.take_zero, List.append_nil,
      List.append_assoc, List.cons_append]

theorem ibanNumber_append (before after : List UInt8) :
    ∃ high low k, ∀ x, isDigit x = true →
      ibanNumber (before ++ x :: after) = high + (x.toNat - 48) * 10 ^ k + low := by
  obtain ⟨left, right, hsplit⟩ := rearranged_append before after
  refine ⟨Positional.value 10 (left.flatMap expand) * 10 ^ ((right.flatMap expand).length + 1),
    Positional.value 10 (right.flatMap expand), (right.flatMap expand).length, ?_⟩
  intro x hx
  have hexpand : expand x = [x.toNat - 48] := if_pos hx
  rw [ibanNumber, hsplit x, List.flatMap_append, List.flatMap_cons, hexpand, List.singleton_append,
    Positional.value_append, Positional.value_cons, List.length_cons, Nat.add_assoc]

theorem iban_changed {before after : List UInt8} {x y : UInt8} (hx : isDigit x = true)
    (hy : isDigit y = true) (hne : x.toNat - 48 ≠ y.toNat - 48)
    (h : IsIban (before ++ x :: after)) : ¬ IsIban (before ++ y :: after) := by
  intro h'
  obtain ⟨high, low, k, hnumber⟩ := ibanNumber_append before after
  have hmod : high + (x.toNat - 48) * 10 ^ k + low ≡ high + (y.toNat - 48) * 10 ^ k + low
      [MOD 97] := by
    rw [← hnumber x hx, ← hnumber y hy]
    exact h.2.2.trans h'.2.2.symm
  have hterm := (hmod.add_right_cancel' low).add_left_cancel' high
  have hcoprime : Nat.gcd 97 (10 ^ k) = 1 := Nat.Coprime.pow_right k (by decide)
  have hdigit := hterm.cancel_right_of_coprime hcoprime
  simp only [isDigit, decide_eq_true_eq] at hx hy
  apply hne
  have heq : (x.toNat - 48) % 97 = (y.toNat - 48) % 97 := hdigit
  omega

end Changed

/-- A text that a check accepts, and one that it has to refuse. -/
def Refuses (check : String → Option Bool) (s t : String) : Prop :=
  check s = some true → check t = some false

theorem Decides.refuses {check : String → Option Bool} {P : String → Prop} {s t : String}
    (hcheck : ∀ r, Decides (check r) (P r)) (h : P s → ¬ P t) : Refuses check s t := by
  intro hs
  obtain ⟨b, hb, hiff⟩ := hcheck s
  obtain ⟨b', hb', hiff'⟩ := hcheck t
  rw [hb, Option.some.injEq] at hs
  rw [hb', Option.some.injEq]
  rw [← Bool.not_eq_true]
  exact fun ht => h (hiff.mp hs) (hiff'.mp ht)

/-- Every checksum gives its exact-integer definition, without a panic, and the sums of the cards and
the account numbers see every change of one digit. -/
theorem checksum_validators (sha256 : List UInt8 → List UInt8) :
    (∀ c, Decides (valid sha256 "payment_card" c) (IsPaymentCard (digitsOf (Bytes.ofString c)))) ∧
      (∀ c, Decides (valid sha256 "iban" c) (IsIban (compactOf (Bytes.ofString c)))) ∧
      (∀ c, Decides (valid sha256 "us_aba_routing" c) (IsAba (digitsOf (Bytes.ofString c)))) ∧
      (∀ c, Decides (valid sha256 "uk_nhs" c) (IsNhs (digitsOf (Bytes.ofString c)))) ∧
      (∀ c, Decides (valid sha256 "es_dni" c) (IsDni (unhyphened (Bytes.ofString c)))) ∧
      (∀ c, Decides (valid sha256 "es_nie" c) (IsNie (unhyphened (Bytes.ofString c)))) ∧
      ∀ s t, OneDigitChanged s t →
        Refuses (valid sha256 "payment_card") s t ∧ Refuses (valid sha256 "iban") s t := by
  have hcard : ∀ c, Decides (valid sha256 "payment_card" c)
      (IsPaymentCard (digitsOf (Bytes.ofString c))) := fun _ =>
    validPaymentCard_decides fun _ => digit_of_mem
  have hiban : ∀ c, Decides (valid sha256 "iban" c) (IsIban (compactOf (Bytes.ofString c))) :=
    fun _ => validIban_decides _
  refine ⟨hcard, hiban, fun _ => validAba_decides fun _ => digit_of_mem,
    fun _ => validNhs_decides fun _ => digit_of_mem, fun _ => validDni_decides _,
    fun _ => validNie_decides _, ?_⟩
  intro s t hchanged
  obtain ⟨before, x, y, after, hs, ht, hx, hy, hne⟩ := hchanged.bytes
  constructor
  · apply Decides.refuses hcard
    rw [hs, ht, digitsOf_append hx, digitsOf_append hy]
    simp only [isDigit, decide_eq_true_eq] at hx hy
    exact paymentCard_changed (by omega) (by omega) hne
  · apply Decides.refuses hiban
    rw [hs, ht, compactOf_append hx, compactOf_append hy]
    exact iban_changed hx hy hne

end ClipRules
