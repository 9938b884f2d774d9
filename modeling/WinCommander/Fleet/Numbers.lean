import Mathlib
import WinCommander.Library.JsonNumber
import WinCommander.Library.Bytes
import WinCommander.Library.Outcome
import WinCommander.Library.Utf8

/-!
# Numbers in a signed request

Client and server must write a number the same way, however it was spelled, before they sign the
text.  Every conversion and every slice of the code is checked here, so that a result is also the
absence of a panic.
-/

namespace FleetAgent

open Json Outcome Positional

inductive Failure where
  | panic
  | error (message : String)
  deriving DecidableEq

section Code

def exceedsLimit : Failure := .error "JSON number exceeds canonicalization limit"

def i64 (n : ℤ) : Except Failure ℤ := if -2 ^ 63 ≤ n ∧ n < 2 ^ 63 then .ok n else .error .panic

def tryI64 (n : ℕ) : Except Failure ℤ := if n < 2 ^ 63 then .ok n else .error exceedsLimit

def tryUsize (n : ℤ) : Except Failure ℕ :=
  if 0 ≤ n ∧ n < 2 ^ 64 then .ok n.toNat else .error exceedsLimit

def usizeSub (a b : ℕ) : Except Failure ℕ := if b ≤ a then .ok (a - b) else .error .panic

/-- A text of that length must fit in memory. -/
def repeatZero (n : ℕ) : Except Failure (List Char) :=
  if n < 2 ^ 63 then .ok (List.replicate n '0') else .error .panic

def sliceOf (text : List Char) (start stop : ℕ) : Except Failure (List Char) :=
  if start ≤ stop ∧ stop ≤ text.length then .ok (Bytes.between text start stop)
  else .error .panic

def rposition (p : Char → Bool) (text : List Char) : Option ℕ :=
  (text.reverse.findIdx? p).map fun i => text.length - 1 - i

def parseI32 (text : List Char) : Option ℤ :=
  (signedDecimal text).filter fun n => -2 ^ 31 ≤ n ∧ n < 2 ^ 31

/-- The mantissa and the exponent of a number without its sign. -/
def splitExponent (unsigned : List Char) : Except Failure (List Char × ℤ) :=
  match splitOnce isExponentMark unsigned with
  | none => .ok (unsigned, 0)
  | some (mantissa, exponent) => do
    let parsed ← okOr (parseI32 exponent) (.error "invalid JSON number exponent")
    refuseIf (1000 < parsed.natAbs)
      (Failure.error "JSON number exponent exceeds canonicalization limit")
    pure (mantissa, parsed)

/-- The significant digits with zeros or with a point. -/
def placePoint (significant : List Char) (decimalPosition : ℤ) : Except Failure (List Char) :=
  if decimalPosition ≤ 0 then do
    let negated ← i64 (-decimalPosition)
    let zeros ← tryUsize negated
    let padding ← repeatZero zeros
    pure ('0' :: '.' :: (padding ++ significant))
  else do
    let position ← tryUsize decimalPosition
    if significant.length ≤ position then do
      let missing ← usizeSub position significant.length
      let padding ← repeatZero missing
      pure (significant ++ padding)
    else do
      let before ← sliceOf significant 0 position
      let behind ← sliceOf significant position significant.length
      pure (before ++ '.' :: behind)

/-- The digits of the integer and of the fraction as one number. -/
def normalizeDigits (negative : Bool) (integer fraction : List Char) (exponent : ℤ) :
    Except Failure (List Char) := do
  let digits := integer ++ fraction
  refuseIf (digits = [] ∨ ¬ digits.all Char.isDigit) exceedsLimit
  match digits.findIdx? (· ≠ '0') with
  | none => pure ['0']
  | some first => do
    let last ← okOr (rposition (· ≠ '0') digits) .panic
    let significant ← sliceOf digits first (last + 1)
    let length ← tryI64 integer.length
    let shifted ← i64 (length + exponent)
    let leading ← tryI64 first
    let decimalPosition ← i64 (shifted - leading)
    let normalized ← placePoint significant decimalPosition
    pure (if negative then '-' :: normalized else normalized)

/-- All digits are ASCII once they are checked, so that a length in characters is one in bytes. -/
def normalizeJsonNumber (input : List Char) : Except Failure (List Char) := do
  refuseIf (1024 < (utf8 input).length)
    (Failure.error "JSON number token exceeds canonicalization limit")
  let negative : Bool := input.head? = some '-'
  let unsigned := if negative then input.tail else input
  let (mantissa, exponent) ← splitExponent unsigned
  let (integer, fraction) := (splitOnce (· == '.') mantissa).getD (mantissa, [])
  normalizeDigits negative integer fraction exponent

end Code

section Steps

variable {n : ℤ} {significant : List (Fin 10)}

theorem i64_of_abs_le (h : |n| ≤ 2 ^ 62) : i64 n = .ok n := by
  have hbounds := abs_le.mp h
  exact if_pos (by omega)

theorem tryI64_of_le {n : ℕ} (h : n ≤ 2 ^ 62) : tryI64 n = .ok (n : ℤ) := if_pos (by omega)

theorem tryUsize_of_le (hnonneg : 0 ≤ n) (h : n ≤ 2 ^ 62) : tryUsize n = .ok n.toNat :=
  if_pos (by omega)

theorem repeatZero_of_le {n : ℕ} (h : n ≤ 2 ^ 62) : repeatZero n = .ok (List.replicate n '0') :=
  if_pos (by omega)

theorem sliceOf_eq {text : List Char} {start stop : ℕ} (h : start ≤ stop ∧ stop ≤ text.length) :
    sliceOf text start stop = .ok (Bytes.between text start stop) := if_pos h

/-- A plain token, as the code puts it together. -/
theorem placePoint_eq (h : Trimmed significant) {p : ℤ} (hp : |p| ≤ 2 ^ 62) :
    placePoint (significant.map digitChar) p = .ok (Token.ofScaled false h p).unsigned := by
  have hbounds := abs_le.mp hp
  have hzeros : ∀ n, List.replicate n '0' = (List.replicate n (0 : Fin 10)).map digitChar := by
    intro n
    rw [List.map_replicate]
    rfl
  have hplain : (Token.ofScaled false h p).unsigned = (Token.pointed significant p).1.map digitChar ++
      if (Token.pointed significant p).2 = [] then []
      else '.' :: (Token.pointed significant p).2.map digitChar := List.append_nil _
  rw [hplain, placePoint]
  by_cases hle : p ≤ 0
  · have hpointed : Token.pointed significant p =
        ([0], List.replicate (-p).toNat 0 ++ significant) := if_pos hle
    have hne : List.replicate (-p).toNat 0 ++ significant ≠ [] := by
      simp [h.nonempty]
    rw [if_pos hle, i64_of_abs_le (by rwa [abs_neg]), hpointed, if_neg hne]
    simp only [bind, Except.bind]
    rw [tryUsize_of_le (by omega) (by omega)]
    simp only [repeatZero_of_le (show (-p).toNat ≤ 2 ^ 62 by omega), hzeros, List.map_append]
    rfl
  · rw [if_neg hle, tryUsize_of_le (by omega) (by omega)]
    simp only [bind, Except.bind, List.length_map]
    by_cases hlong : significant.length ≤ p.toNat
    · have hpointed : Token.pointed significant p =
          (significant ++ List.replicate (p.toNat - significant.length) 0, []) := by
        rw [Token.pointed, if_neg hle, if_pos hlong]
      have hsub : usizeSub p.toNat significant.length = .ok (p.toNat - significant.length) :=
        if_pos hlong
      rw [if_pos hlong, hsub, hpointed]
      simp only [repeatZero_of_le (show p.toNat - significant.length ≤ 2 ^ 62 by omega), hzeros,
        List.map_append, if_true, List.append_nil]
      rfl
    · have hpointed : Token.pointed significant p =
          (significant.take p.toNat, significant.drop p.toNat) := by
        rw [Token.pointed, if_neg hle, if_neg hlong]
      have hne : significant.drop p.toNat ≠ [] := by
        simp only [ne_eq, List.drop_eq_nil_iff]
        exact hlong
      rw [if_neg hlong, hpointed, if_neg hne, sliceOf_eq (by simp; omega),
        sliceOf_eq (by simp; omega)]
      simp [Bytes.between, pure, Except.pure]

theorem findIdx?_replicate {c : Char} (hc : c ≠ '0') (n : ℕ) (rest : List Char) :
    (List.replicate n '0' ++ c :: rest).findIdx? (· ≠ '0') = some n := by
  induction n with
  | zero => simp [List.findIdx?_cons, hc]
  | succ n ih =>
    rw [List.replicate_succ, List.cons_append, List.findIdx?_cons, ih]
    simp

variable {core : List (Fin 10)}

/-- The first and the last significant digit, as the code finds them. -/
theorem positions_eq (h : Trimmed core) (a z : ℕ) :
    let digits := (List.replicate a 0 ++ core ++ List.replicate z 0).map digitChar
    digits.findIdx? (· ≠ '0') = some a ∧
      rposition (· ≠ '0') digits = some (a + core.length - 1) ∧
      sliceOf digits a (a + core.length - 1 + 1) = .ok (core.map digitChar) := by
  have hzero : digitChar 0 = '0' := rfl
  have hpositive := List.length_pos_iff.mpr h.nonempty
  dsimp only
  refine ⟨?_, ?_, ?_⟩
  · obtain ⟨d, rest, hcore⟩ := List.exists_cons_of_ne_nil h.nonempty
    have hd : digitChar d ≠ '0' := by
      rw [ne_eq, digitChar_eq_zero]
      exact h.head d (by simp [hcore])
    rw [hcore, List.append_assoc, List.map_append, List.map_replicate, hzero, List.cons_append,
      List.map_cons]
    exact findIdx?_replicate hd a _
  · have hlast : core.getLast h.nonempty ≠ 0 := h.last _ (by simp [List.getLast?_eq_getLast_of_ne_nil h.nonempty])
    have hd : digitChar (core.getLast h.nonempty) ≠ '0' := by
      rwa [ne_eq, digitChar_eq_zero]
    have hreverse : ((List.replicate a 0 ++ core ++ List.replicate z 0).map digitChar).reverse =
        List.replicate z '0' ++ digitChar (core.getLast h.nonempty) ::
          (core.dropLast.reverse.map digitChar ++ List.replicate a '0') := by
      conv_lhs => rw [← List.dropLast_append_getLast h.nonempty]
      simp [hzero]
    rw [rposition, hreverse, findIdx?_replicate hd, Option.map_some]
    congr 1
    simp only [List.length_map, List.length_append, List.length_replicate]
    omega
  · have hbetween := Bytes.between_append ((List.replicate a 0).map digitChar) (core.map digitChar)
      ((List.replicate z 0).map digitChar)
    simp only [List.length_map, List.length_replicate] at hbetween
    rw [Nat.sub_add_cancel (by omega), sliceOf_eq (by simp), List.map_append, List.map_append,
      List.append_assoc, hbetween]

theorem normalizeDigits_eq (negative : Bool) {integer fraction : List (Fin 10)}
    (hne : integer ++ fraction ≠ []) (hlength : integer.length + fraction.length ≤ 1024)
    {exponent : ℤ} (hexponent : |exponent| ≤ 1000) :
    ((∀ d ∈ integer ++ fraction, d = 0) ∧
        normalizeDigits negative (integer.map digitChar) (fraction.map digitChar) exponent =
          .ok ['0']) ∨
      ∃ a core z, ∃ h : Trimmed core,
        integer ++ fraction = List.replicate a 0 ++ core ++ List.replicate z 0 ∧
        normalizeDigits negative (integer.map digitChar) (fraction.map digitChar) exponent =
          .ok (Token.ofScaled negative h (integer.length + exponent - a)).render := by
  have hchecked : ¬ ((integer ++ fraction).map digitChar = [] ∨
      ¬ ((integer ++ fraction).map digitChar).all Char.isDigit) := by
    rw [List.map_eq_nil_iff]
    simp only [hne, false_or, not_not]
    simp [isDigit_digitChar]
  have hbounds := abs_le.mp hexponent
  unfold normalizeDigits
  simp only [← List.map_append]
  rw [refuseIf_neg _ hchecked]
  by_cases hzeros : ∀ d ∈ integer ++ fraction, d = 0
  · left
    have hnone : ((integer ++ fraction).map digitChar).findIdx? (· ≠ '0') = none := by
      rw [List.findIdx?_eq_none_iff]
      intro c hc
      obtain ⟨d, hd, rfl⟩ := List.mem_map.mp hc
      rw [hzeros d hd]
      rfl
    refine ⟨hzeros, ?_⟩
    simp only [bind, Except.bind, hnone]
    rfl
  · right
    push Not at hzeros
    obtain ⟨a, core, z, hdigits, hcore⟩ := exists_trimmed hzeros
    obtain ⟨hfirst, hlast, hslice⟩ := positions_eq hcore a z
    have hcount := congrArg List.length hdigits
    simp only [List.length_append, List.length_replicate] at hcount
    refine ⟨a, core, z, hcore, hdigits, ?_⟩
    rw [hdigits]
    simp only [bind, Except.bind, hfirst, hlast, okOr_some, hslice, List.length_map]
    rw [tryI64_of_le (by omega)]
    simp only
    rw [i64_of_abs_le (by rw [abs_le]; omega)]
    simp only
    rw [tryI64_of_le (by omega)]
    simp only
    rw [i64_of_abs_le (by rw [abs_le]; omega)]
    simp only
    rw [placePoint_eq hcore (by rw [abs_le]; omega)]
    rfl

end Steps

section Tokens

variable {t s : Token}

/-- The tokens that are within the limits of the code. -/
structure WithinLimits (t : Token) : Prop where
  length : t.render.length ≤ 1024
  exponent : |t.exponentValue| ≤ 1000

theorem length_utf8_of_numeric {text : List Char} (h : ∀ c ∈ text, isNumberChar c = true) :
    (utf8 text).length = text.length := by
  induction text with
  | nil => rfl
  | cons c text ih =>
    rw [List.forall_mem_cons] at h
    have hascii : c.toNat < 128 := by
      have hc := h.1
      simp only [isNumberChar, Bool.or_eq_true, beq_iff_eq] at hc
      rcases hc with ((((hc | rfl) | rfl) | rfl) | rfl) | rfl
      · simp only [Char.isDigit, ge_iff_le, Bool.and_eq_true, decide_eq_true_eq] at hc
        have hle : c.val.toNat ≤ 57 := hc.2
        exact Nat.lt_of_le_of_lt hle (by decide)
      all_goals decide
    rw [utf8, List.flatMap_cons, Utf8.encodeChar_of_ascii hascii, List.singleton_append,
      List.length_cons, List.length_cons]
    exact congrArg (· + 1) (ih h.2)

theorem splitExponent_unsigned (h : |t.exponentValue| ≤ 1000) :
    splitExponent t.unsigned = .ok (t.mantissa, t.exponentValue) := by
  unfold splitExponent
  rw [t.splitOnce_unsigned]
  cases he : t.exponent with
  | none =>
    simp only [Option.map_none]
    rw [Token.exponentValue, Token.unsigned, he]
    simp
  | some e =>
    have hvalue : t.exponentValue = e.value := by
      rw [Token.exponentValue, he]
      rfl
    rw [hvalue] at h ⊢
    have hbounds := abs_le.mp h
    have hparsed : parseI32 e.signed = some e.value := by
      rw [parseI32, signedDecimal_signed]
      simp only [Option.filter_some]
      rw [if_pos (by simp; omega)]
    simp only [Option.map_some, hparsed, okOr_some]
    have hsmall : ¬ 1000 < e.value.natAbs := by omega
    simp only [bind, Except.bind, refuseIf_neg _ hsmall]
    rfl

/-- A token is read as its parts. -/
theorem normalizeJsonNumber_render (h : WithinLimits t) : normalizeJsonNumber t.render =
    normalizeDigits t.negative (t.integer.map digitChar) (t.fraction.map digitChar)
      t.exponentValue := by
  have hlength : ¬ 1024 < (utf8 t.render).length := by
    rw [length_utf8_of_numeric t.render_numeric]
    exact Nat.not_lt.mpr h.length
  have hnegative : decide (t.render.head? = some '-') = t.negative := by
    unfold Token.render
    cases hn : t.negative with
    | true => simp
    | false => simpa using t.head?_unsigned
  have hunsigned : (if t.negative then t.render.tail else t.render) = t.unsigned := by
    unfold Token.render
    cases t.negative <;> rfl
  unfold normalizeJsonNumber
  simp only [bind, Except.bind, refuseIf_neg _ hlength, hnegative, hunsigned,
    splitExponent_unsigned h.exponent, t.splitOnce_mantissa]

/-- The result is the normal token of the number. -/
theorem normalizeJsonNumber_normal (h : WithinLimits t) :
    ∃ u : Token, u.IsNormal ∧ u.value = t.value ∧ normalizeJsonNumber t.render = .ok u.render := by
  have hcount : t.integer.length + t.fraction.length ≤ 1024 := by
    have hlength := h.length
    have hunsigned : t.unsigned.length ≤ t.render.length := by
      unfold Token.render
      split <;> simp
    have hparts : t.integer.length + t.fraction.length ≤ t.unsigned.length := by
      rw [Token.unsigned, Token.mantissa]
      split
      · next hnil => simp [hnil]
      · simp
        omega
    omega
  rw [normalizeJsonNumber_render h]
  rcases normalizeDigits_eq t.negative (List.append_ne_nil_of_left_ne_nil t.nonempty _) hcount
    h.exponent with ⟨hzeros, hresult⟩ | ⟨a, core, z, hcore, hdigits, hresult⟩
  · refine ⟨.zero, .zero, ?_, hresult⟩
    rw [Token.value_zero, Token.value, Token.magnitude_eq_zero hzeros]
    simp
  · refine ⟨Token.ofScaled t.negative hcore (t.integer.length + t.exponentValue - a),
      .scaled t.negative hcore _, ?_, hresult⟩
    rw [Token.value, Token.value, Token.magnitude_ofScaled, Token.magnitude_eq_scaled hdigits]
    rfl

/-- A token within the limits has a result, which is a plain text for the same number. -/
theorem normalizeJsonNumber_denotes (h : WithinLimits t) :
    ∃ text, normalizeJsonNumber t.render = .ok text ∧ DenotesPlainly text t.value := by
  obtain ⟨u, hnormal, hvalue, hresult⟩ := normalizeJsonNumber_normal h
  exact ⟨u.render, hresult, u, hnormal.plain, rfl, hvalue⟩

theorem normalizeJsonNumber_eq_iff (ht : WithinLimits t) (hs : WithinLimits s) :
    normalizeJsonNumber t.render = normalizeJsonNumber s.render ↔ t.value = s.value := by
  constructor
  · intro heq
    obtain ⟨text, htext, hdenotes⟩ := normalizeJsonNumber_denotes ht
    obtain ⟨text', htext', hdenotes'⟩ := normalizeJsonNumber_denotes hs
    rw [htext, htext', Except.ok.injEq] at heq
    rw [← heq] at hdenotes'
    exact hdenotes.denotes.unique hdenotes'.denotes
  · intro hvalue
    obtain ⟨u, hu, huvalue, hresult⟩ := normalizeJsonNumber_normal ht
    obtain ⟨u', hu', huvalue', hresult'⟩ := normalizeJsonNumber_normal hs
    have hsame : u = u' := hu.eq_of_value hu' (huvalue.trans (hvalue.trans huvalue'.symm))
    rw [hresult, hresult', hsame]

theorem normalizeJsonNumber_fixed (h : WithinLimits t) {text : List Char}
    (hresult : normalizeJsonNumber t.render = .ok text) (hlength : text.length ≤ 1024) :
    normalizeJsonNumber text = .ok text := by
  obtain ⟨text', htext', u, hplain, hrender, hvalue⟩ := normalizeJsonNumber_denotes h
  have hsame : text' = text := Except.ok.inj (htext'.symm.trans hresult)
  rw [hsame] at hrender
  have hu : WithinLimits u := by
    constructor
    · rw [hrender]
      exact hlength
    · rw [Token.exponentValue, hplain]
      simp
  rw [← hrender, (normalizeJsonNumber_eq_iff hu h).mpr hvalue, hresult, hrender]

end Tokens

section Panics

theorem exists_digits {text : List Char} (h : text.all Char.isDigit = true) :
    ∃ ds : List (Fin 10), text = ds.map digitChar := by
  induction text with
  | nil => exact ⟨[], rfl⟩
  | cons c text ih =>
    rw [List.all_cons, Bool.and_eq_true] at h
    obtain ⟨ds, hds⟩ := ih h.2
    have hdigit := h.1
    simp only [Char.isDigit, ge_iff_le, Bool.and_eq_true, decide_eq_true_eq] at hdigit
    have hlow : 48 ≤ c.toNat := hdigit.1
    have hhigh : c.toNat ≤ 57 := hdigit.2
    refine ⟨⟨c.toNat - 48, by omega⟩ :: ds, ?_⟩
    rw [List.map_cons, ← hds, digitChar, Nat.add_sub_cancel' hlow, Char.ofNat_toNat]

theorem normalizeDigits_ne_panic (negative : Bool) {integer fraction : List Char} {exponent : ℤ}
    (hlength : integer.length + fraction.length ≤ 1024) (hexponent : |exponent| ≤ 1000) :
    normalizeDigits negative integer fraction exponent ≠ .error .panic := by
  by_cases hbad : integer ++ fraction = [] ∨ ¬ (integer ++ fraction).all Char.isDigit
  · have hrefused : refuseIf (integer ++ fraction = [] ∨
        ¬ (integer ++ fraction).all Char.isDigit) exceedsLimit = .error exceedsLimit := if_pos hbad
    unfold normalizeDigits
    simp only [hrefused, bind, Except.bind]
    simp [exceedsLimit]
  · rw [not_or, not_not, List.all_append, Bool.and_eq_true] at hbad
    obtain ⟨ds, rfl⟩ := exists_digits hbad.2.1
    obtain ⟨es, rfl⟩ := exists_digits hbad.2.2
    have hne : ds ++ es ≠ [] := by
      intro hnil
      rw [← List.map_append, hnil] at hbad
      exact hbad.1 rfl
    rw [List.length_map, List.length_map] at hlength
    rcases normalizeDigits_eq negative hne hlength hexponent with
      ⟨_, hresult⟩ | ⟨_, _, _, _, _, hresult⟩
    · simp [hresult]
    · simp [hresult]

theorem splitOnce_length {p : Char → Bool} {text xs ys : List Char}
    (h : splitOnce p text = some (xs, ys)) : xs.length + ys.length < text.length := by
  have hwhole := congrArg List.length (List.takeWhile_append_dropWhile (p := (!p ·)) (l := text))
  unfold splitOnce at h
  cases hdrop : text.dropWhile (!p ·) with
  | nil => simp [hdrop] at h
  | cons c rest =>
    rw [hdrop] at h hwhole
    simp only [Option.some.injEq, Prod.mk.injEq] at h
    rw [← h.1, ← h.2]
    simp only [List.length_append, List.length_cons] at hwhole
    omega

/-- What the two splits give fits the limits, and what they refuse is an error. -/
theorem splitExponent_cases (unsigned : List Char) :
    (∃ message, splitExponent unsigned = .error (.error message)) ∨
      ∃ mantissa exponent, splitExponent unsigned = .ok (mantissa, exponent) ∧
        mantissa.length ≤ unsigned.length ∧ |exponent| ≤ 1000 := by
  unfold splitExponent
  cases hsplit : splitOnce isExponentMark unsigned with
  | none => exact .inr ⟨unsigned, 0, rfl, Nat.le_refl _, by norm_num⟩
  | some parts =>
    obtain ⟨mantissa, text⟩ := parts
    have hlength := splitOnce_length hsplit
    cases hparse : parseI32 text with
    | none =>
      left
      refine ⟨"invalid JSON number exponent", ?_⟩
      simp [hparse, bind, Except.bind]
    | some parsed =>
      by_cases hlarge : 1000 < parsed.natAbs
      · left
        refine ⟨"JSON number exponent exceeds canonicalization limit", ?_⟩
        simp [refuseIf, hlarge, hparse, bind, Except.bind]
      · right
        refine ⟨mantissa, parsed, ?_, by omega, by rw [abs_le]; omega⟩
        simp [refuseIf, hlarge, hparse, bind, Except.bind, pure, Except.pure]

theorem length_le_utf8 (text : List Char) : text.length ≤ (utf8 text).length := by
  induction text with
  | nil => simp
  | cons c text ih =>
    have hc := List.length_pos_iff.mpr (Utf8.encodeChar_ne_nil c)
    rw [utf8, List.flatMap_cons, List.length_append, List.length_cons]
    rw [utf8] at ih
    omega

/-- No text makes the code panic. -/
theorem normalizeJsonNumber_ne_panic (input : List Char) :
    normalizeJsonNumber input ≠ .error .panic := by
  unfold normalizeJsonNumber
  by_cases hlong : 1024 < (utf8 input).length
  · rw [refuseIf, if_pos hlong]
    simp [bind, Except.bind]
  · have hinput := length_le_utf8 input
    have hunsigned : (if decide (input.head? = some '-') then input.tail else input).length ≤
        1024 := by
      split
      · rw [List.length_tail]
        omega
      · omega
    simp only [bind, Except.bind, refuseIf_neg _ hlong]
    generalize (if decide (input.head? = some '-') then input.tail else input) = unsigned
      at hunsigned ⊢
    rcases splitExponent_cases unsigned with
      ⟨message, herror⟩ | ⟨mantissa, exponent, hok, hmantissa, hexponent⟩
    · simp [herror]
    · simp only [hok]
      apply normalizeDigits_ne_panic _ _ hexponent
      cases hsplit : splitOnce (· == '.') mantissa with
      | none =>
        simp only [Option.getD_none, List.length_nil]
        omega
      | some parts =>
        have hlength := splitOnce_length hsplit
        simp only [Option.getD_some]
        omega

end Panics

section Claim

/-- A result is normalised to itself exactly when it is within the limit on texts. -/
theorem normalizeJsonNumber_fixed_iff {t : Token} (h : WithinLimits t) {text : List Char}
    (hresult : normalizeJsonNumber t.render = .ok text) :
    normalizeJsonNumber text = .ok text ↔ text.length ≤ 1024 := by
  constructor
  · intro hfixed
    by_contra hlong
    have hutf8 := length_le_utf8 text
    have hrefused : normalizeJsonNumber text =
        .error (.error "JSON number token exceeds canonicalization limit") := by
      have hexceeds : 1024 < (utf8 text).length := by omega
      rw [normalizeJsonNumber, refuseIf, if_pos hexceeds]
      rfl
    rw [hrefused] at hfixed
    cases hfixed
  · exact normalizeJsonNumber_fixed h hresult

/-- Every token within the limits has a plain text for the same number, which is its own normal form
when it is within the limit on texts; tokens have one text exactly when they write one number; and
nothing makes the code panic. -/
theorem normalize_json_number :
    (∀ t, WithinLimits t → ∃ text, normalizeJsonNumber t.render = .ok text ∧
      DenotesPlainly text t.value ∧
      (normalizeJsonNumber text = .ok text ↔ text.length ≤ 1024)) ∧
    (∀ t s, WithinLimits t → WithinLimits s →
      (normalizeJsonNumber t.render = normalizeJsonNumber s.render ↔ t.value = s.value)) ∧
    ∀ input, normalizeJsonNumber input ≠ .error .panic := by
  refine ⟨?_, fun t s => normalizeJsonNumber_eq_iff, normalizeJsonNumber_ne_panic⟩
  intro t h
  obtain ⟨text, hresult, hdenotes⟩ := normalizeJsonNumber_denotes h
  exact ⟨text, hresult, hdenotes, normalizeJsonNumber_fixed_iff h hresult⟩

theorem thousand_ne_nil : [1, 0, 0, 0].map Token.digit ≠ [] := List.cons_ne_nil _ _

theorem longDigits_ne_nil : List.replicate 25 (Token.digit 1) ≠ [] := List.cons_ne_nil _ _

theorem longDigits_noLeadingZero (ds : List (Fin 10))
    (h : List.replicate 25 (Token.digit 1) = 0 :: ds) : ds = [] :=
  absurd (List.cons.inj h).1 (by decide)

/-- Twenty-five digits before a thousand zeros. -/
def longToken : Token where
  negative := false
  integer := List.replicate 25 (Token.digit 1)
  fraction := []
  exponent := some ⟨false, none, [1, 0, 0, 0].map Token.digit, thousand_ne_nil⟩
  nonempty := longDigits_ne_nil
  noLeadingZero := longDigits_noLeadingZero

/-- The text of a number may be too long to be normalised again. -/
theorem normalize_json_number_not_fixed :
    ¬ ∀ t text, WithinLimits t → normalizeJsonNumber t.render = .ok text →
      normalizeJsonNumber text = .ok text := by
  intro h
  have hlimits : WithinLimits longToken := ⟨by decide +kernel, by decide +kernel⟩
  have hresult : normalizeJsonNumber longToken.render =
      .ok (List.replicate 25 '1' ++ List.replicate 1000 '0') := by decide +kernel
  have hfixed := (normalizeJsonNumber_fixed_iff hlimits hresult).mp (h _ _ hlimits hresult)
  rw [List.length_append, List.length_replicate, List.length_replicate] at hfixed
  omega

end Claim

end FleetAgent
