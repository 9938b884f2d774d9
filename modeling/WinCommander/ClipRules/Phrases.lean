import WinCommander.Library.LetterCase
import WinCommander.Library.Occurrences

/-!
# Phrase rules

A phrase that is compared without regard to case is lower-cased as a whole.  The text is lower-cased
character by character, and a map takes every byte of the result to the character that it comes from.
-/

namespace ClipPhrases

open Json (size)
open LetterCase Occurrences TextBytes

section Definitions

structure CompileLimits where
  maxPatternBytes : ℕ

inductive CompileError where
  | patternTooLong (index limit actual : ℕ)
  deriving DecidableEq

structure CompiledPhrase where
  needle : List Char
  caseSensitive : Bool
  deriving DecidableEq

structure Candidate where
  secret : ℕ × ℕ
  full : ℕ × ℕ
  deriving DecidableEq

def Candidate.ofRange (range : ℕ × ℕ) : Candidate := ⟨range, range⟩

def maxSpans : ℕ := 4096

variable (unicode : LetterCase)

def compilePhrase (limits : CompileLimits) (index : ℕ) (value : List Char) (caseSensitive : Bool) :
    Except CompileError CompiledPhrase :=
  if limits.maxPatternBytes < size value then
    .error (.patternTooLong index limits.maxPatternBytes (size value))
  else .ok ⟨if caseSensitive then value else unicode.toLowercase value, caseSensitive⟩

/-- For each byte of the lower-cased text the range of the character that it comes from. -/
def mappingFrom : ℕ → List Char → List (ℕ × ℕ)
  | _, [] => []
  | index, c :: text =>
    List.replicate (size (unicode.charToLowercase c)) (index, index + c.utf8Size) ++
      mappingFrom (index + c.utf8Size) text

/-- The range of the characters under a match in the lower-cased text. -/
def spanOf (mapping : List (ℕ × ℕ)) (needle : List Char) (start : ℕ) : Option (ℕ × ℕ) := do
  let first ← mapping[start]?
  let last ← mapping[start + size needle - 1]?
  return (first.1, last.2)

def candidates (phrase : CompiledPhrase) (text : List Char) : List Candidate :=
  if phrase.needle = [] then []
  else if phrase.caseSensitive then
    ((matchIndices phrase.needle text).take maxSpans).map fun start =>
      Candidate.ofRange (start, start + size phrase.needle)
  else
    ((matchIndices phrase.needle (unicode.charsToLowercase text)).take maxSpans).filterMap
      fun start => (spanOf (mappingFrom unicode 0 text) phrase.needle start).map Candidate.ofRange

/-- The characters of a text, lower-cased one by one, are a string with less than the first of them
before it and less than the last of them behind it. -/
structure FilledWith (p needle s text : List Char) : Prop where
  chars : unicode.charsToLowercase text = p ++ needle ++ s
  first : ∀ c ∈ text.head?, size p < size (unicode.charToLowercase c)
  last : ∀ c ∈ text.getLast?, size s < size (unicode.charToLowercase c)

/-- The string reaches from the first character of the text to the last. -/
def FilledBy (needle text : List Char) : Prop := ∃ p s, FilledWith unicode p needle s text

/-- A range of the text between characters, whose lower-casing contains that of the phrase. -/
def CutsOut (value text : List Char) (candidate : Candidate) : Prop :=
  ∃ a m b, text = a ++ m ++ b ∧ candidate.full = (size a, size a + size m) ∧
    candidate.secret = candidate.full ∧ unicode.toLowercase value <:+: unicode.toLowercase m

/-- No capital sigma ends a word of a string with the lower-casing of the phrase, nor of one that this
lower-casing fills. -/
def SigmaClear (value : List Char) : Prop :=
  ∀ w, (unicode.toLowercase w = unicode.toLowercase value ∨
    FilledBy unicode (unicode.toLowercase value) w) → unicode.NoFinalSigma w

/-- A text with a string that is the phrase or equal to it in lower case has a candidate, and every
candidate cuts out such a string. -/
def FindsPhrase (value : List Char) (phrase : CompiledPhrase) : Prop :=
  ∀ text, (∃ w, w <:+: text ∧ (w = value ∨ unicode.toLowercase w = unicode.toLowercase value)) →
    candidates unicode phrase text ≠ [] ∧
      ∀ candidate ∈ candidates unicode phrase text, CutsOut unicode value text candidate

end Definitions

section Mapping

variable {unicode : LetterCase}

theorem charToLowercase_size_pos (c : Char) : 0 < size (unicode.charToLowercase c) := by
  obtain ⟨d, ds, hds⟩ := List.exists_cons_of_ne_nil (@charToLowercase_ne_nil unicode c)
  have hpos := d.utf8Size_pos
  rw [hds, Json.size_cons]
  omega

/-- A byte of a character's lower-casing is mapped to that character. -/
theorem mappingFrom_getElem? {index k : ℕ} {a r : List Char} {c : Char}
    (hlow : size (unicode.charsToLowercase a) ≤ k)
    (hhigh : k < size (unicode.charsToLowercase a) + size (unicode.charToLowercase c)) :
    (mappingFrom unicode index (a ++ c :: r))[k]? =
      some (index + size a, index + size a + c.utf8Size) := by
  induction a generalizing index k with
  | nil =>
    have hk : k < size (unicode.charToLowercase c) := by
      change k < 0 + _ at hhigh
      omega
    rw [List.nil_append, mappingFrom, List.getElem?_append_left (by simpa using hk),
      List.getElem?_replicate_of_lt hk]
    rfl
  | cons d a ih =>
    rw [charsToLowercase_cons, Json.size_append] at hlow hhigh
    have hbehind : size (unicode.charToLowercase d) ≤ k := by omega
    have hrest := @ih (index + d.utf8Size) (k - size (unicode.charToLowercase d)) (by omega) (by omega)
    rw [List.cons_append, mappingFrom, List.getElem?_append_right (by simpa using hbehind),
      List.length_replicate, hrest, Json.size_cons, Nat.add_assoc index]

/-- Every byte of the lower-cased text comes from a character. -/
theorem exists_char_of_lt {k : ℕ} {text : List Char}
    (hk : k < size (unicode.charsToLowercase text)) :
    ∃ a c r, text = a ++ c :: r ∧ size (unicode.charsToLowercase a) ≤ k ∧
      k < size (unicode.charsToLowercase a) + size (unicode.charToLowercase c) := by
  induction text generalizing k with
  | nil => exact absurd hk (Nat.not_lt_zero k)
  | cons c text ih =>
    rw [charsToLowercase_cons, Json.size_append] at hk
    by_cases hfirst : k < size (unicode.charToLowercase c)
    · exact ⟨[], c, text, rfl, Nat.zero_le k, by
        change k < 0 + _
        omega⟩
    · obtain ⟨a, d, r, htext, hlow, hhigh⟩ := ih (k := k - size (unicode.charToLowercase c))
        (by omega)
      refine ⟨c :: a, d, r, by rw [htext]; rfl, ?_, ?_⟩
      · rw [charsToLowercase_cons, Json.size_append]
        omega
      · rw [charsToLowercase_cons, Json.size_append]
        omega

variable {needle p s text : List Char}

theorem FilledWith.exists_head (h : FilledWith unicode p needle s text) (hneedle : needle ≠ []) :
    ∃ c r, text = c :: r ∧ size p < size (unicode.charToLowercase c) := by
  cases text with
  | nil =>
    have hnil := h.chars
    rw [List.append_assoc] at hnil
    have hempty := List.append_eq_nil_iff.mp (List.append_eq_nil_iff.mp hnil.symm).2
    exact absurd hempty.1 hneedle
  | cons c r => exact ⟨c, r, rfl, h.first c rfl⟩

theorem FilledWith.exists_last (h : FilledWith unicode p needle s text) (hneedle : needle ≠ []) :
    ∃ r c, text = r ++ [c] ∧ size s < size (unicode.charToLowercase c) := by
  obtain ⟨d, r, htext, _⟩ := h.exists_head hneedle
  have hne : text ≠ [] := by
    rw [htext]
    exact List.cons_ne_nil d r
  refine ⟨text.dropLast, text.getLast hne, (List.dropLast_append_getLast hne).symm, ?_⟩
  exact h.last _ (List.getLast?_eq_some_getLast hne)

/-- The range of a match that fills a part of the text is that part. -/
theorem spanOf_filled (h : FilledWith unicode p needle s text) (hneedle : needle ≠ [])
    (a b : List Char) :
    spanOf (mappingFrom unicode 0 (a ++ text ++ b)) needle
      (size (unicode.charsToLowercase a) + size p) = some (size a, size a + size text) := by
  obtain ⟨c, r, hfirst, hp⟩ := h.exists_head hneedle
  obtain ⟨r', d, hlast, hs⟩ := h.exists_last hneedle
  have hpos : 0 < size needle := size_pos hneedle
  have hsize := congrArg size h.chars
  rw [hlast, charsToLowercase_append, charsToLowercase_cons] at hsize
  simp only [charsToLowercase, List.flatMap_nil, List.append_nil, Json.size_append] at hsize
  have hstart := @mappingFrom_getElem? unicode 0 (size (unicode.charsToLowercase a) + size p) a (r ++ b) c
    (by omega) (by omega)
  have hend := @mappingFrom_getElem? unicode 0
    (size (unicode.charsToLowercase a) + size p + size needle - 1) (a ++ r') b d
    (by rw [charsToLowercase_append, Json.size_append]; simp only [charsToLowercase]; omega)
    (by rw [charsToLowercase_append, Json.size_append]; simp only [charsToLowercase]; omega)
  have htext : a ++ text ++ b = a ++ c :: (r ++ b) := by
    rw [hfirst, List.append_assoc]
    rfl
  have htext' : a ++ text ++ b = (a ++ r') ++ d :: b := by
    rw [hlast]
    simp
  have hwhole : size a + size text = size (a ++ r') + d.utf8Size := by
    rw [hlast, Json.size_append, Json.size_append, Json.size_cons, Json.size_nil]
    omega
  rw [← htext] at hstart
  rw [← htext'] at hend
  simp only [spanOf, hstart, hend, hwhole, Nat.zero_add]
  rfl

/-- A match in the lower-cased text fills a part of the text. -/
theorem exists_filled {x y : List Char} (hneedle : needle ≠ [])
    (h : unicode.charsToLowercase text = x ++ needle ++ y) :
    ∃ a m b p s, text = a ++ m ++ b ∧ FilledWith unicode p needle s m ∧
      size x = size (unicode.charsToLowercase a) + size p := by
  have hpos : 0 < size needle := size_pos hneedle
  have hsize := congrArg size h
  rw [Json.size_append, Json.size_append] at hsize
  obtain ⟨a, c, r, htext, hlow, hhigh⟩ :=
    @exists_char_of_lt unicode (size x) text (by omega)
  obtain ⟨a', c', b, htext', hlow', hhigh'⟩ :=
    @exists_char_of_lt unicode (size x + size needle - 1) text (by omega)
  obtain ⟨m, hm⟩ : ∃ m, a' ++ [c'] = a ++ c :: m := by
    have hprefix : a ++ [c] <+: text := ⟨r, by rw [htext]; simp⟩
    have hprefix' : a' ++ [c'] <+: text := ⟨b, by rw [htext']; simp⟩
    cases List.prefix_or_prefix_of_prefix hprefix hprefix' with
    | inl hle =>
      obtain ⟨m, hm⟩ := hle
      exact ⟨m, by rw [← hm]; simp⟩
    | inr hle =>
      cases List.prefix_concat_iff.mp hle with
      | inl heq => exact ⟨[], heq⟩
      | inr hle =>
        obtain ⟨t, ht⟩ := hle
        rw [← ht, charsToLowercase_append, charsToLowercase_append, charsToLowercase_cons] at hlow
        simp only [Json.size_append] at hlow
        omega
  have hparts : text = a ++ (c :: m) ++ b := by
    rw [← hm, htext']
    simp
  have hlower := h
  rw [hparts, charsToLowercase_append, charsToLowercase_append, List.append_assoc,
    List.append_assoc] at hlower
  obtain ⟨p, hx, hbehind⟩ := exists_append_of_size_le hlower hlow
  have hend := congrArg (fun t => size (unicode.charsToLowercase t)) hm
  simp only [charsToLowercase_append, Json.size_append] at hend
  have hxsize := congrArg size hx
  rw [Json.size_append] at hxsize
  have hsingle : unicode.charsToLowercase [c'] = unicode.charToLowercase c' :=
    List.flatMap_singleton _ _
  rw [hsingle] at hend
  rw [← List.append_assoc] at hbehind
  obtain ⟨s, hs, _⟩ := exists_append_of_size_le hbehind.symm (by rw [Json.size_append]; omega)
  have hssize := congrArg size hs
  rw [Json.size_append, Json.size_append] at hssize
  refine ⟨a, c :: m, b, p, s, hparts, ⟨hs, ?_, ?_⟩, hxsize⟩
  · intro d hd
    rw [← Option.some.inj hd]
    omega
  · intro d hd
    have hgetLast : (c :: m).getLast? = some c' := by
      have hwhole := congrArg List.getLast? hm
      rw [List.getLast?_append_of_ne_nil _ (List.cons_ne_nil c m), List.getLast?_concat] at hwhole
      exact hwhole.symm
    rw [hgetLast] at hd
    rw [← Option.some.inj hd]
    omega

end Mapping
section Candidates

variable {unicode : LetterCase} {needle text : List Char} {candidate : Candidate}

/-- Every match in the lower-cased text has its range. -/
theorem exists_spanOf {start : ℕ} (hneedle : needle ≠ [])
    (h : start ∈ matchIndices needle (unicode.charsToLowercase text)) :
    ∃ a m b, text = a ++ m ++ b ∧ FilledBy unicode needle m ∧
      spanOf (mappingFrom unicode 0 text) needle start = some (size a, size a + size m) := by
  obtain ⟨x, y, hchars, hstart⟩ := matchIndices_sound h
  obtain ⟨a, m, b, p, s, htext, hfilled, hx⟩ := exists_filled hneedle hchars
  refine ⟨a, m, b, htext, ⟨p, s, hfilled⟩, ?_⟩
  rw [htext, hstart, hx]
  exact spanOf_filled hfilled hneedle a b

theorem candidates_eq (hneedle : needle ≠ []) :
    candidates unicode ⟨needle, false⟩ text =
      ((matchIndices needle (unicode.charsToLowercase text)).take maxSpans).filterMap fun start =>
        (spanOf (mappingFrom unicode 0 text) needle start).map Candidate.ofRange := by
  rw [candidates, if_neg hneedle]
  rfl

theorem mem_candidates (hneedle : needle ≠ []) :
    candidate ∈ candidates unicode ⟨needle, false⟩ text ↔
      ∃ start ∈ (matchIndices needle (unicode.charsToLowercase text)).take maxSpans,
        ∃ range, spanOf (mappingFrom unicode 0 text) needle start = some range ∧
          Candidate.ofRange range = candidate := by
  rw [candidates_eq hneedle, List.mem_filterMap]
  simp only [Option.map_eq_some_iff]

/-- A candidate is the range of a part of the text that the phrase fills. -/
theorem candidates_sound (hneedle : needle ≠ [])
    (h : candidate ∈ candidates unicode ⟨needle, false⟩ text) :
    ∃ a m b, text = a ++ m ++ b ∧ FilledBy unicode needle m ∧
      candidate = Candidate.ofRange (size a, size a + size m) := by
  obtain ⟨start, hmem, range, hrange, hcandidate⟩ := (mem_candidates hneedle).mp h
  obtain ⟨a, m, b, htext, hfilled, hspan⟩ := exists_spanOf hneedle (List.mem_of_mem_take hmem)
  rw [hspan] at hrange
  refine ⟨a, m, b, htext, hfilled, ?_⟩
  rw [← hcandidate, ← Option.some.inj hrange]

/-- There is a candidate where the phrase occurs in the lower-cased text. -/
theorem candidates_ne_nil_iff (hneedle : needle ≠ []) :
    candidates unicode ⟨needle, false⟩ text ≠ [] ↔
      needle <:+: unicode.charsToLowercase text := by
  constructor
  · intro hne
    obtain ⟨candidate, hmem⟩ := List.exists_mem_of_ne_nil _ hne
    obtain ⟨start, hstart, _⟩ := (mem_candidates hneedle).mp hmem
    obtain ⟨x, y, hchars, _⟩ := matchIndices_sound (List.mem_of_mem_take hstart)
    exact ⟨x, y, hchars.symm⟩
  · intro hinfix hnil
    have hmatches : matchIndices needle (unicode.charsToLowercase text) ≠ [] :=
      matchIndicesFrom_ne_nil hneedle hinfix
    obtain ⟨start, starts, hstarts⟩ := List.exists_cons_of_ne_nil hmatches
    obtain ⟨a, m, b, _, _, hspan⟩ := exists_spanOf hneedle (by rw [hstarts]; exact List.mem_cons_self)
    have hmem : Candidate.ofRange (size a, size a + size m) ∈
        candidates unicode ⟨needle, false⟩ text := by
      apply (mem_candidates hneedle).mpr
      refine ⟨start, ?_, _, hspan, rfl⟩
      rw [hstarts]
      exact List.mem_cons_self
    rw [hnil] at hmem
    exact absurd hmem List.not_mem_nil

end Candidates

section SecondMatch

variable {unicode : LetterCase} {needle p s t text : List Char}

/-- Only the capital I with a dot is lower-cased to more than one character. -/
theorem charToLowercase_split {c : Char} (h : unicode.charToLowercase c = p ++ t) (hp : p ≠ [])
    (ht : t ≠ []) : p = ['i'] ∧ t = ['\u0307'] := by
  unfold charToLowercase at h
  obtain ⟨d, p', hd⟩ := List.exists_cons_of_ne_nil hp
  obtain ⟨e, t', he⟩ := List.exists_cons_of_ne_nil ht
  rw [hd, he] at h ⊢
  split at h
  · have hlength := congrArg List.length h
    simp only [List.length_cons, List.length_append, List.length_nil] at hlength
    have hp' : p' = [] := List.eq_nil_of_length_eq_zero (by omega)
    have ht' : t' = [] := List.eq_nil_of_length_eq_zero (by omega)
    rw [hp', ht'] at h ⊢
    obtain ⟨hi, hdot⟩ := List.cons.inj h
    exact ⟨by rw [hi], hdot.symm⟩
  · have hlength := congrArg List.length h
    simp only [List.length_cons, List.length_append, List.length_nil] at hlength
    omega

theorem FilledWith.before_cases (h : FilledWith unicode p needle s text) (hneedle : needle ≠ []) :
    p = [] ∨ p = ['i'] ∧ needle.head? = some '\u0307' := by
  obtain ⟨c, r, htext, hp⟩ := h.exists_head hneedle
  have hchars := h.chars
  rw [htext, charsToLowercase_cons, List.append_assoc] at hchars
  obtain ⟨t, hsplit, hrest⟩ := exists_append_of_size_le hchars.symm (Nat.le_of_lt hp)
  by_cases hempty : p = []
  · exact Or.inl hempty
  · have ht : t ≠ [] := by
      intro hnil
      rw [hsplit, hnil, List.append_nil] at hp
      exact Nat.lt_irrefl _ hp
    obtain ⟨hi, hdot⟩ := charToLowercase_split hsplit hempty ht
    refine Or.inr ⟨hi, ?_⟩
    obtain ⟨d, n, hn⟩ := List.exists_cons_of_ne_nil hneedle
    rw [hdot, hn, List.cons_append, List.singleton_append] at hrest
    rw [hn, (List.cons.inj hrest).1]
    rfl

theorem FilledWith.behind_cases (h : FilledWith unicode p needle s text) (hneedle : needle ≠ []) :
    s = [] ∨ s = ['\u0307'] := by
  obtain ⟨r, c, htext, hs⟩ := h.exists_last hneedle
  have hchars := h.chars
  have hsize := congrArg size h.chars
  rw [htext, charsToLowercase_append, charsToLowercase_cons] at hchars hsize
  simp only [charsToLowercase, List.flatMap_nil, List.append_nil, Json.size_append] at hchars hsize
  obtain ⟨t, _, hsplit⟩ := exists_append_of_size_le hchars
    (by rw [Json.size_append]; omega)
  by_cases hempty : s = []
  · exact Or.inl hempty
  · have ht : t ≠ [] := by
      intro hnil
      rw [hsplit, hnil, List.nil_append] at hs
      exact Nat.lt_irrefl _ hs
    exact Or.inr (charToLowercase_split hsplit ht hempty).2

/-- What stands beside the phrase in the characters has no sigma. -/
theorem FilledWith.count_sigma (h : FilledWith unicode p needle s text) (hneedle : needle ≠ []) :
    (unicode.charsToLowercase text).count 'σ' = needle.count 'σ' := by
  have hbefore : p.count 'σ' = 0 := by
    cases h.before_cases hneedle with
    | inl hempty =>
      rw [hempty]
      rfl
    | inr hi =>
      rw [hi.1]
      decide
  have hbehind : s.count 'σ' = 0 := by
    cases h.behind_cases hneedle with
    | inl hempty =>
      rw [hempty]
      rfl
    | inr hdot =>
      rw [hdot]
      decide
  rw [h.chars, List.count_append, List.count_append, hbefore, hbehind, Nat.zero_add, Nat.add_zero]

/-- The match in a text that the phrase fills is the first one there. -/
theorem FilledWith.matchIndicesFrom_eq (h : FilledWith unicode p needle s text)
    (hneedle : needle ≠ []) (index : ℕ) :
    matchIndicesFrom needle 0 index (p ++ needle ++ s) =
      (index + size p) :: matchIndicesFrom needle 0 (index + size p + size needle) s := by
  cases h.before_cases hneedle with
  | inl hempty =>
    rw [hempty, List.nil_append, matchIndicesFrom_append hneedle]
    rfl
  | inr hi =>
    have hprefix : ¬ needle <+: 'i' :: (needle ++ s) := by
      intro hprefix
      obtain ⟨d, n, hn⟩ := List.exists_cons_of_ne_nil hneedle
      have hd := hi.2
      rw [hn] at hprefix hd
      have hdi := (List.cons_prefix_cons.mp hprefix).1
      rw [hdi] at hd
      exact absurd (Option.some.inj hd) (by decide)
    have hsize : size p = Char.utf8Size 'i' := by
      rw [hi.1]
      rfl
    have htext : p ++ needle ++ s = 'i' :: (needle ++ s) := by
      rw [hi.1]
      rfl
    rw [htext, matchIndicesFrom_cons hprefix, matchIndicesFrom_append hneedle, hsize]

/-- Behind the phrase itself a text that the phrase fills is a candidate. -/
theorem second_candidate {value : List Char} (hvalue : unicode.charsToLowercase value = needle)
    (hneedle : needle ≠ []) (h : FilledBy unicode needle text) :
    Candidate.ofRange (size value, size value + size text) ∈
      candidates unicode ⟨needle, false⟩ (value ++ text) := by
  obtain ⟨p, s, hfilled⟩ := h
  have hmatches : matchIndices needle (unicode.charsToLowercase (value ++ text)) =
      0 :: (size needle + size p) ::
        matchIndicesFrom needle 0 (size needle + size p + size needle) s := by
    rw [charsToLowercase_append, hvalue, hfilled.chars, matchIndices,
      matchIndicesFrom_append hneedle, Nat.zero_add, hfilled.matchIndicesFrom_eq hneedle]
  apply (mem_candidates hneedle).mpr
  refine ⟨size needle + size p, ?_, (size value, size value + size text), ?_, rfl⟩
  · rw [hmatches]
    exact List.mem_cons_of_mem _ List.mem_cons_self
  · have hspan := spanOf_filled hfilled hneedle value []
    rw [List.append_nil, hvalue] at hspan
    exact hspan

end SecondMatch

section FinalSigma

variable {unicode : LetterCase} {value : List Char} {phrase : CompiledPhrase}

theorem toLowercase_ne_nil (h : value ≠ []) : unicode.toLowercase value ≠ [] := by
  intro hnil
  obtain ⟨c, r, hcr⟩ := List.exists_cons_of_ne_nil h
  have hlength := congrArg List.length hnil
  have hpos := List.length_pos_iff.mpr (@charToLowercase_ne_nil unicode c)
  rw [length_toLowercase, hcr, charsToLowercase_cons, List.length_append, List.length_nil] at hlength
  omega

/-- A string with the phrase's lower-casing that is found in itself has no capital sigma at the end of
a word. -/
theorem noFinalSigma_of_infix {w : List Char}
    (h : unicode.toLowercase w <:+: unicode.charsToLowercase w) : unicode.NoFinalSigma w :=
  toLowercase_eq_iff.mp (h.eq_of_length (length_toLowercase w))

/-- A filled text whose lower-casing contains that of the phrase has none either. -/
theorem noFinalSigma_of_filled {needle w : List Char} (hneedle : needle ≠ [])
    (hfilled : FilledBy unicode needle w) (h : needle <:+: unicode.toLowercase w) :
    unicode.NoFinalSigma w := by
  obtain ⟨p, s, hfilled⟩ := hfilled
  apply toLowercase_eq_iff.mp
  apply toLowercase_eq_of_count_le
  rw [hfilled.count_sigma hneedle]
  exact h.sublist.count_le 'σ'

theorem findsPhrase_of_sigmaClear (hvalue : value ≠ []) (h : SigmaClear unicode value) :
    FindsPhrase unicode value ⟨unicode.toLowercase value, false⟩ := by
  have hneedle := @toLowercase_ne_nil unicode _ hvalue
  intro text hfound
  obtain ⟨w, hinfix, hw⟩ := hfound
  have hlower : unicode.toLowercase w = unicode.toLowercase value := by
    cases hw with
    | inl hsame => rw [hsame]
    | inr hequal => exact hequal
  constructor
  · apply (candidates_ne_nil_iff hneedle).mpr
    rw [← hlower, toLowercase_eq_iff.mpr (h w (Or.inl hlower))]
    obtain ⟨a, b, htext⟩ := hinfix
    rw [← htext, charsToLowercase_append, charsToLowercase_append]
    exact List.infix_append _ _ _
  · intro candidate hmem
    obtain ⟨a, m, b, htext, hfilled, hcandidate⟩ := candidates_sound hneedle hmem
    refine ⟨a, m, b, htext, by rw [hcandidate]; rfl, by rw [hcandidate]; rfl, ?_⟩
    rw [toLowercase_eq_iff.mpr (h m (Or.inr hfilled))]
    obtain ⟨p, s, hfilled⟩ := hfilled
    exact ⟨p, s, hfilled.chars.symm⟩

theorem sigmaClear_of_findsPhrase (hvalue : value ≠ [])
    (h : FindsPhrase unicode value ⟨unicode.toLowercase value, false⟩) :
    SigmaClear unicode value := by
  have hneedle := @toLowercase_ne_nil unicode _ hvalue
  have hequal : ∀ w, unicode.toLowercase w = unicode.toLowercase value →
      unicode.NoFinalSigma w := by
    intro w hw
    have hne := (h w ⟨w, List.infix_refl w, Or.inr hw⟩).1
    have hinfix := (candidates_ne_nil_iff hneedle).mp hne
    rw [← hw] at hinfix
    exact noFinalSigma_of_infix hinfix
  intro w hw
  cases hw with
  | inl hlower => exact hequal w hlower
  | inr hfilled =>
    have hchars : unicode.charsToLowercase value = unicode.toLowercase value :=
      (toLowercase_eq_iff.mpr (hequal value rfl)).symm
    have hfound : ∃ x, x <:+: value ++ w ∧
        (x = value ∨ unicode.toLowercase x = unicode.toLowercase value) :=
      ⟨value, (List.prefix_append value w).isInfix, Or.inl rfl⟩
    obtain ⟨a, m, b, htext, hrange, _, hinfix⟩ :=
      (h (value ++ w) hfound).2 _ (second_candidate hchars hneedle hfilled)
    obtain ⟨hstart, hstop⟩ := Prod.mk.inj hrange
    rw [List.append_assoc] at htext
    have ⟨hvaluea, hbehind⟩ := append_inj_of_size htext hstart
    rw [← List.append_nil w] at hbehind
    have ⟨hwm, _⟩ := append_inj_of_size hbehind (by omega)
    rw [← hwm] at hinfix
    exact noFinalSigma_of_filled hneedle hfilled hinfix

theorem compilePhrase_ok {limits : CompileLimits} {index : ℕ}
    (h : compilePhrase unicode limits index value false = .ok phrase) :
    phrase = ⟨unicode.toLowercase value, false⟩ := by
  unfold compilePhrase at h
  split at h
  · cases h
  · exact (Except.ok.inj h).symm

/-- A phrase is found wherever it occurs in one case or another, and only there, exactly if no capital
sigma at the end of a word can stand in its way. -/
theorem phrase_found_iff {unicode : LetterCase} {limits : CompileLimits} {index : ℕ}
    {value : List Char} {phrase : CompiledPhrase} (hvalue : value ≠ [])
    (hcompile : compilePhrase unicode limits index value false = .ok phrase) :
    FindsPhrase unicode value phrase ↔ SigmaClear unicode value := by
  rw [compilePhrase_ok hcompile]
  exact ⟨sigmaClear_of_findsPhrase hvalue, findsPhrase_of_sigmaClear hvalue⟩

/-- The letters alpha and sigma. -/
def twoLetters : LetterCase where
  simple c := if c = 'Α' then 'α' else if c = 'Σ' then 'σ' else c
  cased c := "ΑΣασς".toList.contains c
  caseIgnorable _ := false
  simple_sigma := rfl

theorem phrase_found_alpha_sigma :
    FindsPhrase twoLetters ['Α', 'Σ'] ⟨['α', 'ς'], false⟩ ↔ SigmaClear twoLetters ['Α', 'Σ'] :=
  @phrase_found_iff twoLetters ⟨4096⟩ 0 ['Α', 'Σ'] ⟨['α', 'ς'], false⟩ (by decide) (by decide)

/-- A phrase that ends in a capital sigma is not found in itself. -/
theorem phrase_in_capitals_not_found :
    ¬ ∀ (unicode : LetterCase) (limits : CompileLimits) (index : ℕ) (value : List Char)
      (phrase : CompiledPhrase), value ≠ [] →
        compilePhrase unicode limits index value false = .ok phrase →
          FindsPhrase unicode value phrase := by
  intro h
  have hfinds := h twoLetters ⟨4096⟩ 0 ['Α', 'Σ'] ⟨['α', 'ς'], false⟩ (by decide) (by decide)
  have hne := (hfinds ['Α', 'Σ'] ⟨_, List.infix_refl _, Or.inl rfl⟩).1
  exact hne (by decide)

end FinalSigma

end ClipPhrases
