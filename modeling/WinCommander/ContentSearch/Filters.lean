import Mathlib
import WinCommander.Library.AsciiText
import WinCommander.Library.Calendar
import WinCommander.Library.Json
import WinCommander.Library.Outcome

/-!
# Filters in a query

Words of a query such as `ext:pdf` or `after:2026-07` are taken out of it as filters.  The filters are
applied twice, as clauses of the index query and as a test of a hit.
-/

namespace ContentSearch

open Calendar Outcome
open Json.Value (decimal)

section Parser

structure QueryFilters where
  exts : List String
  after : Option UInt64
  before : Option UInt64
  sizeMin : Option UInt64
  sizeMax : Option UInt64
  deriving DecidableEq

def QueryFilters.default : QueryFilters := ⟨[], none, none, none, none⟩

def QueryFilters.isEmpty (f : QueryFilters) : Bool :=
  f.exts.isEmpty && f.after.isNone && f.before.isNone && f.sizeMin.isNone && f.sizeMax.isNone

/-- A result does not fit its machine integer. -/
structure Overflow where
  deriving DecidableEq

def i64 (x : ℤ) : Except Overflow ℤ := if -2 ^ 63 ≤ x ∧ x < 2 ^ 63 then .ok x else .error ⟨⟩

def u64 (x : ℤ) : Except Overflow UInt64 :=
  if 0 ≤ x ∧ x < 2 ^ 64 then .ok (UInt64.ofNat x.toNat) else .error ⟨⟩

def splitWhitespace (raw : List Char) : List (List Char) :=
  (raw.splitOnP AsciiText.isWhiteSpace).filter (· ≠ [])

def join (words : List (List Char)) : List Char := [' '].intercalate words

def stripKey (token : List Char) (key : String) : Option (List Char) :=
  if (token.take key.length).map Char.toLower = key.toList then some (token.drop key.length) else none

def parseExt (value : List Char) : Option (List String) :=
  if value = [] then none
  else (value.splitOn ',').mapM fun part =>
    let trimmed := part.dropWhile (· = '.')
    if trimmed = [] then none else some (String.ofList (trimmed.map Char.toLower))

/-- What stands before the first hyphen, and what stands after it. -/
def splitOnce (value : List Char) : List Char × Option (List Char) :=
  (value.takeWhile (· ≠ '-'), (value.dropWhile (· ≠ '-')).tail?)

def signedDecimal : List Char → Option ℤ
  | '-' :: digits => (decimal digits).map fun n => -Int.ofNat n
  | '+' :: digits => (decimal digits).map Int.ofNat
  | digits => (decimal digits).map Int.ofNat

def unsignedDecimal : List Char → Option ℕ
  | '+' :: digits => decimal digits
  | digits => decimal digits

def parseI64 (digits : List Char) : Option ℤ :=
  (signedDecimal digits).filter fun x => -2 ^ 63 ≤ x ∧ x < 2 ^ 63

def parseU32 (digits : List Char) : Option ℕ := (unsignedDecimal digits).filter (· < 2 ^ 32)

/-- The numbers of a year, a month and a day, of which the last two may be left out. -/
def dateParts (value : List Char) : Option (ℤ × ℕ × ℕ) := do
  let y ← parseI64 (splitOnce value).1
  match (splitOnce value).2 with
  | none => some (y, 1, 1)
  | some rest =>
    let m ← parseU32 (splitOnce rest).1
    match (splitOnce rest).2 with
    | none => some (y, m, 1)
    | some rest =>
      let d ← parseU32 rest
      some (y, m, d)

def isLeapYear (y : ℤ) : Bool := y.tmod 4 = 0 && (y.tmod 100 ≠ 0 || y.tmod 400 = 0)

def daysInMonth (y : ℤ) : ℕ → ℕ
  | 1 | 3 | 5 | 7 | 8 | 10 | 12 => 31
  | 4 | 6 | 9 | 11 => 30
  | 2 => if isLeapYear y then 29 else 28
  | _ => 0

/-- The year, where it begins in March. -/
def shiftedYear (y : ℤ) (m : ℕ) : Except Overflow ℤ := if m ≤ 2 then i64 (y - 1) else .ok y

def eraDividend (y : ℤ) : Except Overflow ℤ := if 0 ≤ y then .ok y else i64 (y - 399)

/-- The days since the first of January 1970. -/
def daysFromCivil (y : ℤ) (m d : ℕ) : Except Overflow ℤ := do
  let y ← shiftedYear y m
  let dividend ← eraDividend y
  let era := dividend.tdiv 400
  let eraYear ← i64 (era * 400)
  let yoe ← i64 (y - eraYear)
  let mp := ((m : ℤ) + 9).tmod 12
  let doy := (153 * mp + 2).tdiv 5 + d - 1
  let doe ← i64 (yoe * 365 + yoe.tdiv 4 - yoe.tdiv 100 + doy)
  let eraDay ← i64 (era * 146097)
  let day ← i64 (eraDay + doe)
  i64 (day - 719468)

/-- A day before 1970 is none. -/
def toSecond (days : ℤ) : Except Overflow (Option UInt64) :=
  if days < 0 then .ok none else (u64 (days * 86400)).map some

def parseDate (value : List Char) : Except Overflow (Option UInt64) :=
  match dateParts value with
  | none => .ok none
  | some (y, m, d) =>
    if ¬ (1 ≤ m ∧ m ≤ 12) then .ok none
    else if d < 1 ∨ daysInMonth y m < d then .ok none
    else daysFromCivil y m d >>= toSecond

/-- A sign, and what follows it. -/
def sign : List Char → Bool × List Char
  | '-' :: rest => (true, rest)
  | '+' :: rest => (false, rest)
  | rest => (false, rest)

def exponent : List Char → Option ℤ
  | [] => some 0
  | c :: rest =>
    if c = 'e' ∨ c = 'E' then
      (decimal (sign rest).2).map fun n => if (sign rest).1 then -(n : ℤ) else n
    else none

/-- A number is rounded once to the nearest that there is. -/
def parseDecimal (number : List Char) : Option Float :=
  let int := number.takeWhile Char.isDigit
  let rest := number.dropWhile Char.isDigit
  let frac := if rest.head? = some '.' then rest.tail.takeWhile Char.isDigit else []
  let rest := if rest.head? = some '.' then rest.tail.dropWhile Char.isDigit else rest
  do
    let digits ← decimal (int ++ frac)
    let e ← exponent rest
    let e := e - frac.length
    some (Float.ofScientific digits (e < 0) e.natAbs)

def parseF64 (value : List Char) : Option Float :=
  let number := (sign value).2.map Char.toLower
  let magnitude :=
    if number = "inf".toList ∨ number = "infinity".toList then some (1 / 0)
    else if number = "nan".toList then some (0 / 0)
    else parseDecimal number
  magnitude.map fun x => if (sign value).1 then -x else x

def stripSuffix (value : List Char) (suffix : String) : Option (List Char) :=
  if suffix.toList.isSuffixOf value then some (value.take (value.length - suffix.length)) else none

def parseBytes (value : List Char) : Option Float :=
  let lower := value.map Char.toLower
  let (number, mult) :=
    match stripSuffix lower "gb" with
    | some n => (n, Float.ofNat (1024 ^ 3))
    | none =>
      match stripSuffix lower "mb" with
      | some n => (n, Float.ofNat (1024 ^ 2))
      | none =>
        match stripSuffix lower "kb" with
        | some n => (n, Float.ofNat 1024)
        | none =>
          match stripSuffix lower "b" with
          | some n => (n, Float.ofNat 1)
          | none => (lower, Float.ofNat 1)
  (parseF64 number).bind fun n => if !n.isFinite || n < 0 then none else some (n * mult)

/-- Rounded half up and cut off at the largest integer, for what is not negative. -/
def roundToU64 (x : Float) : UInt64 :=
  let whole := x.toUInt64
  if x < Float.ofNat (2 ^ 52) && Float.ofScientific 5 true 1 ≤ x - whole.toFloat then whole + 1 else whole

def checkedSucc (n : UInt64) : Option UInt64 := if n.toNat + 1 < 2 ^ 64 then some (n + 1) else none

inductive SizeOp where
  | gt
  | ge
  | lt
  | le

def sizeOp : List Char → Option (SizeOp × List Char)
  | '>' :: '=' :: rest => some (.ge, rest)
  | '<' :: '=' :: rest => some (.le, rest)
  | '>' :: rest => some (.gt, rest)
  | '<' :: rest => some (.lt, rest)
  | _ => none

def parseSize (value : List Char) : Option (Option UInt64 × Option UInt64) := do
  let (op, rest) ← sizeOp value
  let bytes := roundToU64 (← parseBytes rest)
  match op with
  | .ge => some (some bytes, none)
  | .gt => (checkedSucc bytes).map fun n => (some n, none)
  | .le => (checkedSucc bytes).map fun n => (none, some n)
  | .lt => some (none, some bytes)

abbrev Parsed := List (List Char) × QueryFilters

/-- A word that is no filter stays in the text. -/
def Parsed.keep (p : Parsed) (token : List Char) : Parsed := (p.1 ++ [token], p.2)

def takeToken (p : Parsed) (token : List Char) : Except Overflow Parsed :=
  match stripKey token "ext:" with
  | some rest =>
    match parseExt rest with
    | some exts => .ok (p.1, { p.2 with exts := p.2.exts ++ exts })
    | none => .ok (p.keep token)
  | none =>
    match stripKey token "after:" with
    | some rest => do
      match ← parseDate rest with
      | some secs => .ok (p.1, { p.2 with after := some secs })
      | none => .ok (p.keep token)
    | none =>
      match stripKey token "before:" with
      | some rest => do
        match ← parseDate rest with
        | some secs => .ok (p.1, { p.2 with before := some secs })
        | none => .ok (p.keep token)
      | none =>
        match stripKey token "size:" with
        | some rest =>
          match parseSize rest with
          | some (min, max) =>
            .ok (p.1, { p.2 with sizeMin := min.or p.2.sizeMin, sizeMax := max.or p.2.sizeMax })
          | none => .ok (p.keep token)
        | none => .ok (p.keep token)

def parseFilters (raw : List Char) : Except Overflow (List Char × QueryFilters) := do
  let (remaining, filters) ← (splitWhitespace raw).foldlM takeToken ([], .default)
  .ok (join remaining, filters)

end Parser

section Search

/-- What the index has of a document for the filters, which is also what its hit has. -/
structure Document where
  ext : String
  mtime : UInt64
  size : UInt64

/-- A query is what it accepts. -/
abbrev Query := Document → Bool

inductive Occur where
  | should
  | must
  deriving DecidableEq

inductive Bound where
  | included (x : UInt64)
  | excluded (x : UInt64)

def allQuery : Query := fun _ => true

def termQuery (ext : String) : Query := fun doc => doc.ext = ext

def rangeQuery (field : Document → UInt64) (lower upper : Bound) : Query := fun doc =>
  (match lower with
    | .included x => x ≤ field doc
    | .excluded x => x < field doc) &&
  match upper with
    | .included x => field doc ≤ x
    | .excluded x => field doc < x

/-- All that must match do, and if there are none, one of the others does. -/
def booleanQuery (clauses : List (Occur × Query)) : Query := fun doc =>
  clauses.all (fun c => c.1 ≠ .must || c.2 doc) &&
    (clauses.any (fun c => c.1 = .must) || clauses.any fun c => c.2 doc)

def u64Max : UInt64 := UInt64.ofNat (2 ^ 64 - 1)

/-- The clauses have no part in the score. -/
def buildFilterClauses (filters : QueryFilters) : List (Occur × Query) :=
  (if filters.exts.isEmpty then []
    else [(.must, booleanQuery (filters.exts.map fun ext => (.should, termQuery ext)))]) ++
  (if filters.after.isSome || filters.before.isSome then
    [(.must, rangeQuery Document.mtime (.included (filters.after.getD 0))
      (.excluded (filters.before.getD u64Max)))]
    else []) ++
  (if filters.sizeMin.isSome || filters.sizeMax.isSome then
    [(.must, rangeQuery Document.size (.included (filters.sizeMin.getD 0))
      (.excluded (filters.sizeMax.getD u64Max)))]
    else [])

def filteredQuery (text : Query) (filters : QueryFilters) : Query :=
  if filters.isEmpty then text else booleanQuery ((.must, text) :: buildFilterClauses filters)

def hitPassesFilters (filters : QueryFilters) (ext : String) (mtime size : UInt64) : Bool :=
  if !filters.exts.isEmpty && !filters.exts.any (· = ext) then false
  else if filters.after.any (mtime < ·) then false
  else if filters.before.any (· ≤ mtime) then false
  else if filters.sizeMin.any (size < ·) then false
  else if filters.sizeMax.any (· ≤ size) then false
  else true

end Search

section Calendar

theorem isLeapYear_natCast (y : ℕ) : isLeapYear y = true ↔ IsLeap y := by
  simp only [isLeapYear, IsLeap, Bool.and_eq_true, Bool.or_eq_true, decide_eq_true_eq]
  rw [Int.tmod_eq_emod_of_nonneg (by omega), Int.tmod_eq_emod_of_nonneg (by omega),
    Int.tmod_eq_emod_of_nonneg (by omega)]
  omega

theorem daysInMonth_natCast {y m : ℕ} (hlow : 1 ≤ m) (hhigh : m ≤ 12) :
    daysInMonth y m = monthLength y m := by
  have hleap := isLeapYear_natCast y
  interval_cases m <;> simp [daysInMonth, monthLength, hleap]

theorem i64_ok {x y : ℤ} : i64 x = .ok y ↔ y = x ∧ -2 ^ 63 ≤ x ∧ x < 2 ^ 63 := by
  rw [i64]
  split
  · simp_all [eq_comm]
  · simp_all

def marchYear (y : ℤ) (m : ℕ) : ℤ := if m ≤ 2 then y - 1 else y

/-- The day of the year, in a year that begins in March. -/
def marchDay (m d : ℕ) : ℤ := (153 * ((m : ℤ) + 9).tmod 12 + 2).tdiv 5 + d - 1

/-- What the arithmetic comes to where nothing overflows. -/
def civilDay (y : ℤ) (m d : ℕ) : ℤ :=
  y / 400 * 146097 + (y % 400 * 365 + y % 400 / 4 - y % 400 / 100 + marchDay m d) - 719468

theorem era_eq (y : ℤ) : (if 0 ≤ y then y else y - 399).tdiv 400 = y / 400 := by
  split
  · exact Int.tdiv_eq_ediv_of_nonneg (by omega)
  · rename_i hneg
    rw [← Int.neg_neg (y - 399), Int.neg_tdiv, Int.tdiv_eq_ediv_of_nonneg (by omega)]
    omega

theorem shiftedYear_ok {y z : ℤ} {m : ℕ} (h : shiftedYear y m = .ok z) : z = marchYear y m := by
  rw [shiftedYear] at h
  rw [marchYear]
  split at h
  · rw [if_pos ‹_›]
    exact (i64_ok.mp h).1
  · rw [if_neg ‹_›]
    exact (Except.ok.inj h).symm

theorem eraDividend_ok {y z : ℤ} (h : eraDividend y = .ok z) : z.tdiv 400 = y / 400 := by
  rw [← era_eq]
  rw [eraDividend] at h
  split at h
  · rw [if_pos ‹_›, ← Except.ok.inj h]
  · rw [if_neg ‹_›, (i64_ok.mp h).1]

theorem yoe_eq (y : ℤ) : y - y / 400 * 400 = y % 400 := by omega

theorem tdiv_yoe (y : ℤ) : (y % 400).tdiv 4 = y % 400 / 4 ∧ (y % 400).tdiv 100 = y % 400 / 100 :=
  ⟨Int.tdiv_eq_ediv_of_nonneg (by omega), Int.tdiv_eq_ediv_of_nonneg (by omega)⟩

theorem daysFromCivil_ok {y n : ℤ} {m d : ℕ} (h : daysFromCivil y m d = .ok n) :
    n = civilDay (marchYear y m) m d := by
  simp only [daysFromCivil, bind_ok, i64_ok] at h
  obtain ⟨z, hz, dividend, hdividend, _, ⟨rfl, -⟩, _, ⟨rfl, -⟩, _, ⟨rfl, -⟩, _, ⟨rfl, -⟩, _,
    ⟨rfl, -⟩, hn, -⟩ := h
  rw [shiftedYear_ok hz] at hdividend hn
  rw [eraDividend_ok hdividend, yoe_eq, (tdiv_yoe _).1, (tdiv_yoe _).2] at hn
  rw [hn]
  rfl

theorem i64_of_fits {x : ℤ} (h : -2 ^ 63 ≤ x ∧ x < 2 ^ 63) : i64 x = .ok x := if_pos h

theorem daysFromCivil_of_lt {y : ℤ} {m d : ℕ} (hlow : 0 ≤ y) (hhigh : y < 2 ^ 54) (hd : d ≤ 31) :
    daysFromCivil y m d = .ok (civilDay (marchYear y m) m d) := by
  have hshift : shiftedYear y m = .ok (marchYear y m) := by
    rw [shiftedYear, marchYear]
    split
    · exact i64_of_fits (by omega)
    · rfl
  have hmarch : -1 ≤ marchYear y m ∧ marchYear y m < 2 ^ 54 := by
    rw [marchYear]
    split <;> omega
  have hmonth : -1 ≤ marchDay m d ∧ marchDay m d < 400 := by
    have hmod := Int.tmod_eq_emod_of_nonneg (a := (m : ℤ) + 9) (b := 12) (by omega)
    rw [marchDay, hmod, Int.tdiv_eq_ediv_of_nonneg (by omega)]
    omega
  generalize marchYear y m = z at *
  obtain ⟨dividend, hdividend⟩ : ∃ dividend, eraDividend z = .ok dividend := by
    rw [eraDividend]
    split
    · exact ⟨z, rfl⟩
    · exact ⟨z - 399, i64_of_fits (by omega)⟩
  have hera := eraDividend_ok hdividend
  simp only [daysFromCivil, bind_ok, i64_ok]
  refine ⟨z, hshift, dividend, hdividend, _, ⟨rfl, ?_⟩, _, ⟨rfl, ?_⟩, _, ⟨rfl, ?_⟩, _, ⟨rfl, ?_⟩, _,
    ⟨rfl, ?_⟩, ?_, ?_⟩
  all_goals rw [hera]
  all_goals try rw [yoe_eq, (tdiv_yoe _).1, (tdiv_yoe _).2]
  all_goals rw [marchDay] at hmonth
  · omega
  · omega
  · omega
  · omega
  · omega
  · rfl
  · omega

theorem marchDay_eq (m d : ℕ) :
    marchDay m d = ((153 * ((m + 9) % 12) + 2) / 5 : ℕ) + (d : ℤ) - 1 := by
  rw [marchDay, Int.tmod_eq_emod_of_nonneg (by omega), Int.tdiv_eq_ediv_of_nonneg (by omega)]
  omega

/-- An era of 400 years has 97 leap days. -/
theorem era_days (z : ℤ) : z / 400 * 146097 + (z % 400 * 365 + z % 400 / 4 - z % 400 / 100) =
    365 * z + z / 4 - z / 100 + z / 400 := by
  have hfour : z / 4 = 100 * (z / 400) + z % 400 / 4 := by omega
  have hcentury : z / 100 = 4 * (z / 400) + z % 400 / 100 := by omega
  rw [hfour, hcentury]
  generalize z % 400 / 4 = fours
  generalize z % 400 / 100 = centuries
  omega

theorem ceil_div_sub (y c : ℕ) (hc : 0 < c) :
    (((y + (c - 1)) / c : ℕ) : ℤ) = ((y : ℤ) - 1) / c + 1 := by
  have hpos : (0 : ℤ) < c := by omega
  rw [← Int.add_mul_ediv_right _ _ (by omega : (c : ℤ) ≠ 0)]
  push_cast
  congr 1
  omega

/-- What a year beginning in March has more of leap days than one beginning in January. -/
theorem leap_eq (y : ℕ) : (y / 4 : ℤ) - y / 100 + y / 400 =
    ((y : ℤ) - 1) / 4 - ((y : ℤ) - 1) / 100 + ((y : ℤ) - 1) / 400 + if IsLeap y then 1 else 0 := by
  have hfour : (y / 4 : ℤ) = ((y : ℤ) - 1) / 4 + if y % 4 = 0 then 1 else 0 := by split <;> omega
  have hcentury : (y / 100 : ℤ) = ((y : ℤ) - 1) / 100 + if y % 100 = 0 then 1 else 0 := by
    split <;> omega
  have hera : (y / 400 : ℤ) = ((y : ℤ) - 1) / 400 + if y % 400 = 0 then 1 else 0 := by
    split <;> omega
  have hlength := yearLength_add y
  rw [yearLength] at hlength
  rw [hfour, hcentury, hera]
  clear hfour hcentury hera
  generalize ((y : ℤ) - 1) / 4 = fours
  generalize ((y : ℤ) - 1) / 100 = centuries
  generalize ((y : ℤ) - 1) / 400 = eras
  by_cases h4 : y % 4 = 0 <;> by_cases h100 : y % 100 = 0 <;> by_cases h400 : y % 400 = 0 <;>
    by_cases hleap : IsLeap y <;> simp only [h4, h100, h400, hleap, if_true, if_false] at hlength ⊢ <;>
    omega

theorem daysBeforeYear_eq (y : ℕ) : (daysBeforeYear y : ℤ) =
    365 * y + ((y : ℤ) - 1) / 4 - ((y : ℤ) - 1) / 100 + ((y : ℤ) - 1) / 400 + 1 := by
  have hyears := daysBeforeYear_add y
  have hfour := ceil_div_sub y 4 (by omega)
  have hcentury := ceil_div_sub y 100 (by omega)
  have hera := ceil_div_sub y 400 (by omega)
  omega

/-- The arithmetic counts the days of the calendar. -/
theorem civilDay_eq {y m d : ℕ} (h : Possible y m d) :
    civilDay (marchYear y m) m d = (dayNumber y m d : ℤ) - unixEpoch := by
  obtain ⟨hlow, hhigh, hfirst, -⟩ := h
  have hyears := daysBeforeYear_eq y
  have hmonths := daysBeforeMonth_add (y := y) hlow hhigh
  have hleap := leap_eq y
  have hera := era_days (marchYear y m)
  have hcivil : civilDay (marchYear y m) m d = 365 * marchYear y m + marchYear y m / 4 -
      marchYear y m / 100 + marchYear y m / 400 + marchDay m d - 719468 := by
    rw [civilDay, ← hera]
    omega
  rw [hcivil, marchDay_eq, dayNumber, unixEpoch, marchYear]
  clear hera hcivil
  generalize (153 * ((m + 9) % 12) + 2) / 5 = months at *
  by_cases hmarch : m ≤ 2
  · simp only [if_pos hmarch] at hmonths ⊢
    omega
  · simp only [if_neg hmarch] at hmonths ⊢
    generalize (y : ℤ) / 4 = fours at *
    generalize (y : ℤ) / 100 = centuries at *
    generalize (y : ℤ) / 400 = eras at *
    generalize ((y : ℤ) - 1) / 4 = fours' at *
    generalize ((y : ℤ) - 1) / 100 = centuries' at *
    generalize ((y : ℤ) - 1) / 400 = eras' at *
    by_cases hyear : IsLeap y
    · simp only [if_pos hyear] at hmonths hleap
      omega
    · simp only [if_neg hyear] at hmonths hleap
      omega

end Calendar

section Meaning

/-- The second that a date of the calendar names, where it is not before 1970. -/
def dateSecond (value : List Char) : Option ℕ :=
  match dateParts value with
  | none => none
  | some (y, m, d) =>
    if Possible y.toNat m d ∧ unixEpoch ≤ dayNumber y.toNat m d then
      some ((dayNumber y.toNat m d - unixEpoch) * 86400)
    else none

/-- What a word says, by the calendar. -/
inductive Meaning where
  | ext (exts : List String)
  | after (second : ℕ)
  | before (second : ℕ)
  | size (min max : Option UInt64)
  | text
  deriving DecidableEq

def meaning (token : List Char) : Meaning :=
  match stripKey token "ext:" with
  | some rest => (parseExt rest).elim .text .ext
  | none =>
    match stripKey token "after:" with
    | some rest => (dateSecond rest).elim .text .after
    | none =>
      match stripKey token "before:" with
      | some rest => (dateSecond rest).elim .text .before
      | none =>
        match stripKey token "size:" with
        | some rest => (parseSize rest).elim .text fun size => .size size.1 size.2
        | none => .text

def Meaning.second? : Meaning → Option ℕ
  | .after second => some second
  | .before second => some second
  | _ => none

def Meaning.after? : Meaning → Option ℕ
  | .after second => some second
  | _ => none

def Meaning.before? : Meaning → Option ℕ
  | .before second => some second
  | _ => none

def record (p : Parsed) (token : List Char) : Parsed :=
  match meaning token with
  | .ext exts => (p.1, { p.2 with exts := p.2.exts ++ exts })
  | .after second => (p.1, { p.2 with after := some (UInt64.ofNat second) })
  | .before second => (p.1, { p.2 with before := some (UInt64.ofNat second) })
  | .size min max => (p.1, { p.2 with sizeMin := min.or p.2.sizeMin, sizeMax := max.or p.2.sizeMax })
  | .text => p.keep token

theorem parseI64_nonneg {digits : List Char} {y : ℤ} (h : parseI64 digits = some y)
    (hsign : digits.head? ≠ some '-') : 0 ≤ y ∧ y < 2 ^ 63 := by
  rw [parseI64, Option.filter_eq_some_iff] at h
  obtain ⟨hvalue, hfits⟩ := h
  have hlt := (of_decide_eq_true hfits).2
  have hnonneg : 0 ≤ y := by
    rw [signedDecimal.eq_def] at hvalue
    split at hvalue
    · simp at hsign
    · obtain ⟨n, -, rfl⟩ := Option.map_eq_some_iff.mp hvalue
      exact Int.natCast_nonneg n
    · obtain ⟨n, -, rfl⟩ := Option.map_eq_some_iff.mp hvalue
      exact Int.natCast_nonneg n
  exact ⟨hnonneg, hlt⟩

theorem head?_splitOnce (value : List Char) : (splitOnce value).1.head? ≠ some '-' := by
  cases value with
  | nil => simp [splitOnce]
  | cons c cs =>
    by_cases hc : c = '-' <;> simp [splitOnce, hc]

/-- A year is read without its sign. -/
theorem dateParts_year {value : List Char} {y : ℤ} {m d : ℕ} (h : dateParts value = some (y, m, d)) :
    0 ≤ y ∧ y < 2 ^ 63 := by
  rw [dateParts, Option.bind_eq_bind, Option.bind_eq_some_iff] at h
  obtain ⟨z, hz, h⟩ := h
  have heq : z = y := by
    split at h
    · exact congrArg Prod.fst (Option.some.inj h)
    · obtain ⟨_, -, h⟩ := Option.bind_eq_some_iff.mp h
      split at h
      · exact congrArg Prod.fst (Option.some.inj h)
      · obtain ⟨_, -, h⟩ := Option.bind_eq_some_iff.mp h
        exact congrArg Prod.fst (Option.some.inj h)
  rw [← heq]
  exact parseI64_nonneg hz (head?_splitOnce value)

theorem toSecond_eq (day : ℕ) : toSecond ((day : ℤ) - unixEpoch) =
    if unixEpoch ≤ day then
      if (day - unixEpoch) * 86400 < 2 ^ 64 then
        .ok (some (UInt64.ofNat ((day - unixEpoch) * 86400)))
      else .error ⟨⟩
    else .ok none := by
  rw [toSecond]
  by_cases hday : unixEpoch ≤ day
  · have hcast : ((day : ℤ) - unixEpoch) * 86400 = ((day - unixEpoch) * 86400 : ℕ) := by
      rw [Nat.cast_mul, Nat.cast_sub hday]
      rfl
    rw [if_neg (by omega), if_pos hday, hcast, u64]
    by_cases hfits : (day - unixEpoch) * 86400 < 2 ^ 64
    · rw [if_pos (by omega), if_pos hfits, Int.toNat_natCast]
      rfl
    · rw [if_neg (by omega), if_neg hfits]
      rfl
  · rw [if_pos (by omega), if_neg hday]

/-- The second of a date of the calendar, where it fits. -/
theorem daysFromCivil_toSecond {y m d : ℕ} (h : Possible y m d) :
    (daysFromCivil y m d >>= toSecond) = toSecond ((dayNumber y m d : ℤ) - unixEpoch) := by
  have hday : d ≤ 31 := by
    have hlast := h.2.2.2
    rw [monthLength] at hlast
    split_ifs at hlast <;> omega
  by_cases hyear : y < 2 ^ 54
  · rw [daysFromCivil_of_lt (by omega) (by omega) hday, civilDay_eq h]
    rfl
  · have hlate := le_dayNumber y m d
    rw [toSecond_eq, if_pos (by rw [unixEpoch]; omega), if_neg (by rw [unixEpoch]; omega)]
    cases hdays : daysFromCivil y m d with
    | error e => rfl
    | ok days =>
      rw [daysFromCivil_ok hdays, civilDay_eq h]
      show toSecond _ = _
      rw [toSecond_eq, if_pos (by rw [unixEpoch]; omega), if_neg (by rw [unixEpoch]; omega)]

/-- A date is read as the second it names, unless that is too late for the machine. -/
theorem parseDate_eq (value : List Char) : parseDate value =
    match dateSecond value with
    | none => .ok none
    | some second => if second < 2 ^ 64 then .ok (some (UInt64.ofNat second)) else .error ⟨⟩ := by
  cases hparts : dateParts value with
  | none => simp only [parseDate, dateSecond, hparts]
  | some parts =>
    obtain ⟨y, m, d⟩ := parts
    obtain ⟨hlow, hhigh⟩ := dateParts_year hparts
    obtain ⟨n, rfl⟩ := Int.eq_ofNat_of_zero_le hlow
    simp only [parseDate, dateSecond, hparts, Int.toNat_natCast]
    by_cases hmonth : 1 ≤ m ∧ m ≤ 12
    · have hlength := daysInMonth_natCast (y := n) hmonth.1 hmonth.2
      rw [if_neg (not_not.mpr hmonth), hlength]
      by_cases hday : d < 1 ∨ monthLength n m < d
      · have himpossible : ¬ Possible n m d := by
          rintro ⟨-, -, hfirst, hlast⟩
          omega
        rw [if_pos hday, if_neg (fun h => himpossible h.1)]
      · have hpossible : Possible n m d := ⟨hmonth.1, hmonth.2, by omega, by omega⟩
        rw [if_neg hday, daysFromCivil_toSecond hpossible, toSecond_eq]
        by_cases hepoch : unixEpoch ≤ dayNumber n m d
        · rw [if_pos hepoch, if_pos (show Possible n m d ∧ unixEpoch ≤ dayNumber n m d from ⟨hpossible, hepoch⟩)]
        · rw [if_neg hepoch, if_neg (fun h => hepoch h.2)]
    · have himpossible : ¬ Possible n m d := fun h => hmonth ⟨h.1, h.2.1⟩
      rw [if_pos hmonth, if_neg (fun h => himpossible h.1)]

/-- The date of a word is too late for the machine. -/
def Late (token : List Char) : Prop := ∃ second, (meaning token).second? = some second ∧ 2 ^ 64 ≤ second

theorem takeToken_eq (p : Parsed) (token : List Char) [Decidable (Late token)] :
    takeToken p token = if Late token then .error ⟨⟩ else .ok (record p token) := by
  cases hext : stripKey token "ext:" with
  | some rest =>
    cases hexts : parseExt rest <;>
      simp [takeToken, record, meaning, Late, Meaning.second?, hext, hexts]
  | none =>
    cases hafter : stripKey token "after:" with
    | some rest =>
      simp only [takeToken, record, meaning, Late, hext, hafter, parseDate_eq]
      cases hsecond : dateSecond rest with
      | none => simp [Meaning.second?, bind, Except.bind]
      | some second =>
        by_cases hlt : second < 18446744073709551616
        · simp [Meaning.second?, bind, Except.bind, hlt, Nat.not_le.mpr hlt]
        · simp [Meaning.second?, bind, Except.bind, hlt, Nat.not_lt.mp hlt]
    | none =>
      cases hbefore : stripKey token "before:" with
      | some rest =>
        simp only [takeToken, record, meaning, Late, hext, hafter, hbefore, parseDate_eq]
        cases hsecond : dateSecond rest with
        | none => simp [Meaning.second?, bind, Except.bind]
        | some second =>
          by_cases hlt : second < 18446744073709551616
          · simp [Meaning.second?, bind, Except.bind, hlt, Nat.not_le.mpr hlt]
          · simp [Meaning.second?, bind, Except.bind, hlt, Nat.not_lt.mp hlt]
      | none =>
        cases hsize : stripKey token "size:" with
        | some rest =>
          cases hsizes : parseSize rest <;>
            simp [takeToken, record, meaning, Late, Meaning.second?, hext, hafter, hbefore, hsize, hsizes]
        | none =>
          simp [takeToken, record, meaning, Late, Meaning.second?, hext, hafter, hbefore, hsize]

end Meaning

section Query

theorem parse_fold {tokens : List (List Char)} (h : ∀ t ∈ tokens, ¬ Late t) (p : Parsed) :
    tokens.foldlM takeToken p = .ok (tokens.foldl record p) := by
  classical
  induction tokens generalizing p with
  | nil => rfl
  | cons t tokens ih =>
    rw [List.forall_mem_cons] at h
    rw [List.foldlM_cons, takeToken_eq, if_neg h.1, List.foldl_cons, ← ih h.2]
    rfl

theorem parse_fold_late {tokens : List (List Char)} (h : ∃ t ∈ tokens, Late t) (p : Parsed) :
    tokens.foldlM takeToken p = .error ⟨⟩ := by
  classical
  induction tokens generalizing p with
  | nil => simp at h
  | cons t tokens ih =>
    rw [List.foldlM_cons, takeToken_eq]
    by_cases hlate : Late t
    · rw [if_pos hlate]
      rfl
    · rw [if_neg hlate]
      apply ih
      simpa [hlate] using h

/-- What the words of a query come to. -/
structure Exact (tokens : List (List Char)) (p : Parsed) : Prop where
  text : p.1 = tokens.filter fun t => meaning t = .text
  after : p.2.after.map UInt64.toNat = (tokens.filterMap fun t => (meaning t).after?).getLast?
  before : p.2.before.map UInt64.toNat = (tokens.filterMap fun t => (meaning t).before?).getLast?

theorem Exact.record {tokens : List (List Char)} {p : Parsed} {t : List Char} (h : Exact tokens p)
    (hlate : ¬ Late t) : Exact (tokens ++ [t]) (record p t) := by
  have hfits : ∀ second, (meaning t).second? = some second → second < 2 ^ 64 := by
    intro second hsecond
    by_contra hnot
    exact hlate ⟨second, hsecond, by omega⟩
  obtain ⟨htext, hafter, hbefore⟩ := h
  rw [ContentSearch.record]
  cases hmeaning : meaning t with
  | ext exts => constructor <;> simp [*, Meaning.after?, Meaning.before?]
  | size min max => constructor <;> simp [*, Meaning.after?, Meaning.before?]
  | text => constructor <;> simp [*, Meaning.after?, Meaning.before?, Parsed.keep]
  | after second =>
    have hlt : second < 18446744073709551616 := hfits second (by rw [hmeaning]; rfl)
    constructor <;> simp [*, Meaning.after?, Meaning.before?]
  | before second =>
    have hlt : second < 18446744073709551616 := hfits second (by rw [hmeaning]; rfl)
    constructor <;> simp [*, Meaning.after?, Meaning.before?]

theorem exact_fold {tokens : List (List Char)} (hlate : ∀ t ∈ tokens, ¬ Late t) :
    ∀ {done : List (List Char)} {p : Parsed}, Exact done p →
      Exact (done ++ tokens) (tokens.foldl ContentSearch.record p) := by
  induction tokens with
  | nil =>
    intro done p h
    simpa using h
  | cons t tokens ih =>
    intro done p h
    rw [List.forall_mem_cons] at hlate
    have hrest := ih hlate.2 (h.record hlate.1)
    rwa [List.append_assoc] at hrest

theorem exact_nil : Exact [] ([], .default) := by
  constructor <;> rfl

/-- A query is parsed exactly where none of its dates is too late for the machine. -/
theorem parseFilters_exact_iff (raw : List Char) :
    (∃ p : Parsed, parseFilters raw = .ok (join p.1, p.2) ∧ Exact (splitWhitespace raw) p) ↔
      ∀ t ∈ splitWhitespace raw, ¬ Late t := by
  constructor
  · rintro ⟨p, hp, -⟩ t ht hlate
    rw [parseFilters, parse_fold_late ⟨t, ht, hlate⟩] at hp
    exact absurd hp (by simp [bind, Except.bind])
  · intro hlate
    refine ⟨_, ?_, exact_fold hlate exact_nil⟩
    rw [parseFilters, parse_fold hlate]
    rfl

/-- What the filters ask of a document. -/
structure Admits (filters : QueryFilters) (doc : Document) : Prop where
  ext : filters.exts ≠ [] → doc.ext ∈ filters.exts
  after : ∀ second, filters.after = some second → second ≤ doc.mtime
  before : ∀ second, filters.before = some second → doc.mtime < second
  sizeMin : ∀ size, filters.sizeMin = some size → size ≤ doc.size
  sizeMax : ∀ size, filters.sizeMax = some size → doc.size < size

/-- A bound from below alone leaves out the largest integer. -/
structure BelowMax (filters : QueryFilters) (doc : Document) : Prop where
  mtime : filters.after.isSome = true → filters.before = none → doc.mtime ≠ u64Max
  size : filters.sizeMin.isSome = true → filters.sizeMax = none → doc.size ≠ u64Max

theorem any_eq_false_iff {o : Option UInt64} {p : UInt64 → Bool} :
    o.any p = false ↔ ∀ x, o = some x → p x = false := by
  cases o <;> simp

theorem hitPassesFilters_iff {filters : QueryFilters} {doc : Document} :
    hitPassesFilters filters doc.ext doc.mtime doc.size = true ↔ Admits filters doc := by
  have hext : ¬ (filters.exts.isEmpty = false ∧ (filters.exts.any fun e => decide (e = doc.ext)) = false) ↔
      (filters.exts ≠ [] → doc.ext ∈ filters.exts) := by
    rw [not_and, Bool.not_eq_false, List.any_eq_true]
    simp
  simp only [hitPassesFilters, Bool.if_false_left, Bool.and_eq_true, Bool.not_eq_true',
    decide_eq_false_iff_not, Bool.not_eq_true, any_eq_false_iff, hext, UInt64.not_lt, UInt64.not_le,
    and_true]
  constructor
  · rintro ⟨hexts, hafter, hbefore, hmin, hmax⟩
    exact ⟨hexts, hafter, hbefore, hmin, hmax⟩
  · intro h
    exact ⟨h.ext, h.after, h.before, h.sizeMin, h.sizeMax⟩

theorem lt_u64Max_iff {x : UInt64} : x < u64Max ↔ x ≠ u64Max := by
  rw [UInt64.lt_iff_toNat_lt, ne_eq, ← UInt64.toNat_inj]
  have hlt := x.toNat_lt
  have hmax : u64Max.toNat = 2 ^ 64 - 1 := by decide
  omega

/-- A clause with a missing bound takes the largest integer for it and leaves it out. -/
theorem range_clause_iff (lower upper : Option UInt64) (x : UInt64) :
    ((lower.isSome || upper.isSome) = true → lower.getD 0 ≤ x ∧ x < upper.getD u64Max) ↔
      (∀ l, lower = some l → l ≤ x) ∧ (∀ u, upper = some u → x < u) ∧
        (lower.isSome = true → upper = none → x ≠ u64Max) := by
  have hmax := lt_u64Max_iff (x := x)
  have hzero : (0 : UInt64) ≤ x := UInt64.zero_le
  cases lower with
  | none =>
    cases upper with
    | none => simp
    | some u => simp [hzero]
  | some l =>
    cases upper with
    | none => simp only [Option.isSome_some, Option.isSome_none, Bool.or_false, Option.getD_some,
        Option.getD_none, hmax, Option.some.injEq, forall_eq', forall_const, reduceCtorEq,
        IsEmpty.forall_iff, true_and]
    | some u => simp

theorem booleanQuery_must_cons {q : Query} {clauses : List (Occur × Query)} {doc : Document} :
    booleanQuery ((.must, q) :: clauses) doc = true ↔
      q doc = true ∧ ∀ c ∈ clauses, c.1 = .must → c.2 doc = true := by
  have hall : (clauses.all fun c => c.1 ≠ .must || c.2 doc) = true ↔
      ∀ c ∈ clauses, c.1 = .must → c.2 doc = true := by
    simp only [List.all_eq_true, Bool.or_eq_true, decide_eq_true_eq, ne_eq, ← imp_iff_not_or]
  rw [booleanQuery, List.all_cons, List.any_cons, Bool.and_eq_true, Bool.and_eq_true, hall]
  simp

theorem booleanQuery_should_iff {exts : List String} {doc : Document} :
    booleanQuery (exts.map fun ext => (.should, termQuery ext)) doc = true ↔ doc.ext ∈ exts := by
  simp [booleanQuery, termQuery]

theorem filteredQuery_eq (q : Query) (filters : QueryFilters) (doc : Document) :
    filteredQuery q filters doc = booleanQuery ((.must, q) :: buildFilterClauses filters) doc := by
  rw [filteredQuery]
  split
  · have hempty : filters.exts = [] ∧ filters.after = none ∧ filters.before = none ∧
        filters.sizeMin = none ∧ filters.sizeMax = none := by
      simp_all [QueryFilters.isEmpty]
    simp [buildFilterClauses, hempty, booleanQuery]
  · rfl

theorem filteredQuery_iff {filters : QueryFilters} {doc : Document} :
    filteredQuery allQuery filters doc = true ↔ Admits filters doc ∧ BelowMax filters doc := by
  have hclauses : (∀ c ∈ buildFilterClauses filters, c.1 = .must → c.2 doc = true) ↔
      (filters.exts ≠ [] → doc.ext ∈ filters.exts) ∧
      ((filters.after.isSome || filters.before.isSome) = true →
        filters.after.getD 0 ≤ doc.mtime ∧ doc.mtime < filters.before.getD u64Max) ∧
      ((filters.sizeMin.isSome || filters.sizeMax.isSome) = true →
        filters.sizeMin.getD 0 ≤ doc.size ∧ doc.size < filters.sizeMax.getD u64Max) := by
    simp only [buildFilterClauses, List.mem_append, or_imp, forall_and]
    refine and_assoc.trans (and_congr ?_ (and_congr ?_ ?_))
    · split <;> simp_all [booleanQuery_should_iff]
    · split <;> simp_all [rangeQuery]
    · split <;> simp_all [rangeQuery]
  rw [filteredQuery_eq, booleanQuery_must_cons, hclauses, range_clause_iff, range_clause_iff]
  constructor
  · rintro ⟨-, hext, ⟨hafter, hbefore, hmtime⟩, hmin, hmax, hsize⟩
    exact ⟨⟨hext, hafter, hbefore, hmin, hmax⟩, ⟨hmtime, hsize⟩⟩
  · rintro ⟨h, hmax⟩
    exact ⟨rfl, h.ext, ⟨h.after, h.before, hmax.mtime⟩, h.sizeMin, h.sizeMax, hmax.size⟩

/-- Queries are parsed exactly and both forms of the filters agree, but for dates that are too late for
the machine, and for the largest integer where it is bounded from below alone. -/
theorem filters_exact_iff (raw : List Char) (filters : QueryFilters) (doc : Document) :
    ((∃ p : Parsed, parseFilters raw = .ok (join p.1, p.2) ∧ Exact (splitWhitespace raw) p) ↔
      ∀ t ∈ splitWhitespace raw, ¬ Late t) ∧
    ((filteredQuery allQuery filters doc = true ↔
        hitPassesFilters filters doc.ext doc.mtime doc.size = true) ↔
      (Admits filters doc → BelowMax filters doc)) := by
  refine ⟨parseFilters_exact_iff raw, ?_⟩
  rw [filteredQuery_iff, hitPassesFilters_iff]
  exact and_iff_left_iff_imp

/-- The year 600000000000 is parsed and overflows. -/
theorem farAfter_overflows : ¬ ∀ raw, ∃ p : Parsed,
    parseFilters raw = .ok (join p.1, p.2) ∧ Exact (splitWhitespace raw) p := by
  intro h
  obtain ⟨p, hp, -⟩ := h "after:600000000000".toList
  have hoverflow : parseFilters "after:600000000000".toList = .error ⟨⟩ := by rfl
  rw [hoverflow] at hp
  exact absurd hp (by simp)

end Query

end ContentSearch
