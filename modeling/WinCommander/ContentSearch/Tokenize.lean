import Mathlib
import WinCommander.Library.ClassRuns
import WinCommander.Library.JsonSize
import WinCommander.Library.PullStream

/-!
# The tokens of a text

A text is cut into runs of letters and runs of digits.  A long run of digits is followed by its
prefixes, so that the start of a long number finds it.
-/

namespace ContentSearch

open ClassRuns PullStream Json

section Tokenizer

/-- The two properties of characters that are asked for, and what they say of the digits 0 to 9. -/
structure Unicode where
  isAlphabetic : Char → Bool
  isNumeric : Char → Bool
  digit : ∀ c, c.isDigit = true → isAlphabetic c = false ∧ isNumeric c = true

inductive CharClass where
  | alpha
  | digit
  deriving DecidableEq

/-- Offsets are in bytes. -/
structure Token where
  offsetFrom : ℕ
  offsetTo : ℕ
  position : UInt64
  text : List Char
  deriving DecidableEq

def Token.default : Token := ⟨0, 0, 0, []⟩

variable (u : Unicode)

def classify (c : Char) : Option CharClass :=
  if u.isAlphabetic c then some .alpha else if u.isNumeric c then some .digit else none

/-- The characters of a text between two offsets, where the text starts at an offset. -/
@[grind =] def slice (start stop : ℕ) : ℕ → List Char → List Char
  | _, [] => []
  | offset, c :: cs =>
      if start ≤ offset ∧ offset < stop then c :: slice start stop (offset + c.utf8Size) cs
      else slice start stop (offset + c.utf8Size) cs

/-- A text that was read up to an offset. -/
structure CodeTokenStream where
  text : List Char
  offset : ℕ
  chars : List Char
  token : Token

/-- The end of a run that has begun, and what follows it. -/
def runEnd (k : CharClass) : ℕ → List Char → ℕ × List Char
  | stop, [] => (stop, [])
  | stop, c :: cs =>
      if classify u c = some k then runEnd k (stop + c.utf8Size) cs else (stop, c :: cs)

def advanceFrom (text : List Char) (token : Token) : ℕ → List Char → Bool × CodeTokenStream
  | offset, [] => (false, ⟨text, offset, [], token⟩)
  | start, c :: cs =>
      match classify u c with
      | none => advanceFrom text token (start + c.utf8Size) cs
      | some k =>
          let (stop, chars) := runEnd u k (start + c.utf8Size) cs
          (true, ⟨text, stop, chars,
            { token with offsetFrom := start, offsetTo := stop, text := slice start stop 0 text }⟩)

def CodeTokenStream.advance (s : CodeTokenStream) : Bool × CodeTokenStream :=
  advanceFrom u s.text { s.token with text := [], position := s.token.position + 1 } s.offset s.chars

/-- The first step adds one to the greatest position. -/
def tokenStream (text : List Char) : CodeTokenStream :=
  ⟨text, 0, text, { Token.default with position := -1 }⟩

def codeTokenizer : Source CodeTokenStream Token where
  advance := CodeTokenStream.advance u
  token := CodeTokenStream.token

end Tokenizer

section Filter

def minExpandLen : ℕ := 5

def minPrefixLen : ℕ := 4

def maxExpandLen : ℕ := 32

def isDigits (text : List Char) : Bool := text.all Char.isDigit

def expands (text : List Char) : Bool :=
  isDigits text && minExpandLen ≤ size text && size text ≤ maxExpandLen

/-- The prefixes are pushed from the longest on, and are taken off the other way. -/
def prefixes (base : Token) : List Token :=
  if expands base.text then
    (List.range' minPrefixLen (size base.text - minPrefixLen)).reverse.foldl
      (fun queue plen => { base with text := base.text.take plen } :: queue) []
  else []

variable (u : Unicode)

def digitPrefixFilter : Source (Owing CodeTokenStream Token) Token :=
  expanded (codeTokenizer u) prefixes

def filteredStream (text : List Char) : Owing CodeTokenStream Token :=
  ⟨tokenStream text, [], Token.default⟩

end Filter

section Scan

variable {u : Unicode}

def classAt (u : Unicode) (text : List Char) (m : ℕ) : Option CharClass :=
  (text[m]?).bind (classify u)

/-- The token of the characters from `i` on and before `j`. -/
def tokenAt (text : List Char) (position : UInt64) (i j : ℕ) : Token :=
  ⟨size (text.take i), size (text.take j), position, (text.take j).drop i⟩

theorem slice_of_le {start stop offset : ℕ} (h : stop ≤ offset) (cs : List Char) :
    slice start stop offset cs = [] := by
  induction cs generalizing offset with
  | nil => rfl
  | cons c cs ih =>
    rw [slice, if_neg (by omega)]
    exact ih (by omega)

theorem slice_inside {start offset : ℕ} (h : start ≤ offset) (run post : List Char) :
    slice start (offset + size run) offset (run ++ post) = run := by
  induction run generalizing offset with
  | nil => simpa using slice_of_le (Nat.le_refl offset) post
  | cons c run ih =>
    have hpos : 0 < c.utf8Size := c.utf8Size_pos
    have hstop : offset + size (c :: run) = offset + c.utf8Size + size run := by
      rw [size_cons]
      omega
    rw [List.cons_append, slice, hstop, if_pos ⟨h, by omega⟩, ih (by omega)]

theorem slice_append {start stop offset : ℕ} (pre cs : List Char) (h : offset + size pre ≤ start) :
    slice start stop offset (pre ++ cs) = slice start stop (offset + size pre) cs := by
  induction pre generalizing offset with
  | nil => rfl
  | cons c pre ih =>
    have hpos : 0 < c.utf8Size := c.utf8Size_pos
    rw [size_cons] at h
    rw [List.cons_append, slice, if_neg (by omega), ih (by omega), size_cons, Nat.add_assoc]

theorem slice_eq (pre run post : List Char) :
    slice (size pre) (size pre + size run) 0 (pre ++ (run ++ post)) = run := by
  rw [slice_append pre _ (by omega), Nat.zero_add]
  exact slice_inside (Nat.le_refl _) run post

theorem runEnd_eq (k : CharClass) (stop : ℕ) (cs : List Char) :
    runEnd u k stop cs = (stop + size (cs.takeWhile (classify u · = some k)),
      cs.dropWhile (classify u · = some k)) := by
  induction cs generalizing stop with
  | nil => rfl
  | cons c cs ih =>
    by_cases h : classify u c = some k
    · rw [runEnd, if_pos h, ih]
      simp [h, Nat.add_assoc]
    · rw [runEnd, if_neg h]
      simp [h]

theorem classAt_of_drop {text cs : List Char} {a : ℕ} (hrest : text.drop a = cs) (i : ℕ) :
    classAt u text (a + i) = (cs[i]?).bind (classify u) := by
  rw [classAt, ← hrest, List.getElem?_drop]

theorem getElem?_length_append {α : Type} (run rest : List α) :
    (run ++ rest)[run.length]? = rest.head? := by
  rw [List.getElem?_append_right (Nat.le_refl _), Nat.sub_self, List.head?_eq_getElem?]

/-- The classes along a stretch that was cut out by its class. -/
theorem classAt_takeWhile (u : Unicode) {text cs : List Char} {a : ℕ} (k : CharClass) (hrest : text.drop a = cs) :
    (∀ m, a ≤ m → m < a + (cs.takeWhile (classify u · = some k)).length →
        classAt u text m = some k) ∧
      classAt u text (a + (cs.takeWhile (classify u · = some k)).length) ≠ some k := by
  have hsplit : cs.takeWhile (classify u · = some k) ++ cs.dropWhile (classify u · = some k) = cs :=
    List.takeWhile_append_dropWhile
  constructor
  · intro m hle hlt
    obtain ⟨i, rfl⟩ : ∃ i, m = a + i := ⟨m - a, by omega⟩
    have hi : i < (cs.takeWhile (classify u · = some k)).length := by omega
    have hget : cs[i]? = some (cs.takeWhile (classify u · = some k))[i] := by
      rw [← List.getElem?_eq_getElem hi, ← List.getElem?_append_left hi, hsplit]
    rw [classAt_of_drop hrest, hget, Option.bind_some]
    simpa using List.mem_takeWhile_imp (List.getElem_mem hi)
  · have hget : cs[(cs.takeWhile (classify u · = some k)).length]? =
        (cs.dropWhile (classify u · = some k)).head? := by
      have hlast := getElem?_length_append (cs.takeWhile (classify u · = some k))
        (cs.dropWhile (classify u · = some k))
      rwa [hsplit] at hlast
    have hhead := List.head?_dropWhile_not (classify u · = some k) cs
    rw [classAt_of_drop hrest, hget]
    cases hrest' : (cs.dropWhile (classify u · = some k)).head? with
    | none => simp
    | some c =>
      rw [hrest'] at hhead
      simpa using hhead

/-- What a stretch adds to what was read. -/
theorem take_drop_of_append {text w rest : List Char} {a : ℕ} (h : text.drop a = w ++ rest) :
    text.take (a + w.length) = text.take a ++ w ∧ text.drop (a + w.length) = rest := by
  constructor
  · rw [List.take_add, h, List.take_left]
  · rw [← List.drop_drop, h, List.drop_left]

theorem advance_skip {text cs : List Char} {a : ℕ} {c : Char} (hrest : text.drop a = c :: cs)
    (hnone : classify u c = none) (token : Token) :
    (codeTokenizer u).advance ⟨text, size (text.take a), text.drop a, token⟩ =
      (codeTokenizer u).advance ⟨text, size (text.take (a + 1)), text.drop (a + 1), token⟩ := by
  have hrest' : text.drop a = [c] ++ cs := hrest
  obtain ⟨htake, hdrop⟩ := take_drop_of_append hrest'
  simp only [List.length_singleton] at htake hdrop
  simp only [codeTokenizer, CodeTokenStream.advance, hrest, htake, hdrop, advanceFrom, hnone,
    size_append, size_cons, size_nil, Nat.add_zero]

/-- The place where the run that starts at `a` ends. -/
def runStop (u : Unicode) (k : CharClass) (a : ℕ) (cs : List Char) : ℕ :=
  a + (1 + (cs.takeWhile (classify u · = some k)).length)

theorem isRun_runStop {text cs : List Char} {a : ℕ} {c : Char} {k : CharClass}
    (hrest : text.drop a = c :: cs) (hclass : classify u c = some k)
    (hstart : Boundary (classAt u text) a) : IsRun (classAt u text) a (runStop u k a cs) := by
  obtain ⟨-, hdrop⟩ := take_drop_of_append (show text.drop a = [c] ++ cs from hrest)
  obtain ⟨hinside, hend⟩ := classAt_takeWhile u k hdrop
  have hfirst : classAt u text (a + 0) = some k := by
    rw [classAt_of_drop hrest]
    exact hclass
  rw [List.length_singleton, Nat.add_assoc] at hinside hend
  apply isRun_of_boundary (by unfold runStop; omega) hstart
  · intro m hle hlt
    by_cases hm : m = a
    · exact hm ▸ hfirst
    · exact hinside m (by omega) hlt
  · exact hend

theorem advance_run {text cs : List Char} {a : ℕ} {c : Char} {k : CharClass}
    (hrest : text.drop a = c :: cs) (hclass : classify u c = some k) (token : Token) :
    (codeTokenizer u).advance ⟨text, size (text.take a), text.drop a, token⟩ =
      (true, ⟨text, size (text.take (runStop u k a cs)), text.drop (runStop u k a cs),
        tokenAt text (token.position + 1) a (runStop u k a cs)⟩) := by
  have hsplit : text.drop a = (c :: cs.takeWhile (classify u · = some k)) ++
      cs.dropWhile (classify u · = some k) := by
    rw [hrest, List.cons_append, List.takeWhile_append_dropWhile]
  generalize hrun : c :: cs.takeWhile (classify u · = some k) = run at hsplit
  generalize hpost : cs.dropWhile (classify u · = some k) = post at hsplit
  have hstop : runStop u k a cs = a + run.length := by
    rw [← hrun, runStop, List.length_cons, Nat.add_comm 1]
  have hsize : size run = c.utf8Size + size (cs.takeWhile (classify u · = some k)) := by
    rw [← hrun, size_cons]
  obtain ⟨htake, hdrop⟩ := take_drop_of_append hsplit
  have hslice : slice (size (text.take a)) (size (text.take a) + size run) 0 text = run := by
    have htext : text = text.take a ++ (run ++ post) := by rw [← hsplit, List.take_append_drop]
    have heq := slice_eq (text.take a) run post
    rwa [← htext] at heq
  have hdropped : (text.take (a + run.length)).drop a = run := by
    rw [List.drop_take, hsplit, Nat.add_sub_cancel_left, List.take_left]
  simp only [codeTokenizer, CodeTokenStream.advance, hrest, advanceFrom, hclass, runEnd_eq, hstop,
    htake, hdrop, hpost, tokenAt, Nat.add_assoc, ← hsize, hslice, size_append]
  rw [htake] at hdropped
  rw [hdropped]

/-- From a place where no run goes on the stream gives the runs that are left, in order. -/
theorem emits_from (text : List Char) (n : ℕ) : ∀ (a : ℕ) (token : Token), text.length ≤ a + n →
    Boundary (classAt u text) a →
    ∃ runs : List (ℕ × ℕ), runs.Pairwise (fun r s => r.2 ≤ s.1) ∧
      (∀ i j, (i, j) ∈ runs ↔ a ≤ i ∧ IsRun (classAt u text) i j) ∧
      Emits (codeTokenizer u) ⟨text, size (text.take a), text.drop a, token⟩
        (runs.mapIdx fun m r => tokenAt text (token.position + 1 + UInt64.ofNat m) r.1 r.2) := by
  induction n with
  | zero =>
    intro a token hlength _
    have hend : text.drop a = [] := List.drop_eq_nil_of_le (by omega)
    refine ⟨[], List.Pairwise.nil, ?_, ?_⟩
    · intro i j
      have hnone : ∀ i, a ≤ i → classAt u text i = none := by
        intro i hi
        rw [classAt, List.getElem?_eq_none (by omega)]
        rfl
      simp only [List.not_mem_nil, false_iff, not_and]
      intro hi hrun
      exact hrun.start_ne (hnone i hi) rfl
    · rw [hend]
      exact Emits.done rfl
  | succ n ih =>
    intro a token hlength hstart
    cases hrest : text.drop a with
    | nil =>
      have hle : text.length ≤ a := List.drop_eq_nil_iff.mp hrest
      obtain ⟨runs, hpairs, hruns, hemits⟩ := ih a token (by omega) hstart
      exact ⟨runs, hpairs, hruns, hrest ▸ hemits⟩
    | cons c cs =>
      cases hclass : classify u c with
      | none =>
        have hnone : classAt u text (a + 0) = none := by
          rw [classAt_of_drop hrest]
          exact hclass
        obtain ⟨runs, hpairs, hruns, hemits⟩ := ih (a + 1) token (by omega) (boundary_succ hnone)
        refine ⟨runs, hpairs, ?_, ?_⟩
        · intro i j
          rw [hruns]
          apply and_congr_left
          intro hrun
          have hne := hrun.start_ne hnone
          omega
        · rw [← hrest]
          exact hemits.congr (advance_skip hrest hclass token)
      | some k =>
        have hrun := isRun_runStop hrest hclass hstart
        have hstep := advance_run hrest hclass token
        generalize runStop u k a cs = b at hrun hstep
        have hlt : a < b := hrun.1
        obtain ⟨runs, hpairs, hruns, hemits⟩ :=
          ih b (tokenAt text (token.position + 1) a b) (by omega) hrun.boundary
        refine ⟨(a, b) :: runs, ?_, ?_, ?_⟩
        · rw [List.pairwise_cons]
          refine ⟨?_, hpairs⟩
          rintro ⟨i, j⟩ hmem
          exact ((hruns i j).mp hmem).1
        · intro i j
          rw [List.mem_cons, hruns, Prod.mk.injEq]
          constructor
          · rintro (⟨rfl, rfl⟩ | ⟨hle, hother⟩)
            · exact ⟨Nat.le_refl _, hrun⟩
            · exact ⟨by omega, hother⟩
          · rintro ⟨hle, hother⟩
            rcases hrun.eq_or_after hother hle with hsame | hafter
            · exact .inl hsame
            · exact .inr ⟨hafter, hother⟩
        · rw [← hrest]
          have hposition : ∀ m : ℕ, token.position + 1 + 1 + UInt64.ofNat m =
              token.position + 1 + UInt64.ofNat (m + 1) := by
            intro m
            rw [UInt64.ofNat_add, UInt64.add_assoc _ 1, UInt64.add_comm 1]
            rfl
          have hlist : ((a, b) :: runs).mapIdx
              (fun m r => tokenAt text (token.position + 1 + UInt64.ofNat m) r.1 r.2) =
              tokenAt text (token.position + 1) a b :: runs.mapIdx fun m r =>
                tokenAt text (token.position + 1 + 1 + UInt64.ofNat m) r.1 r.2 := by
            rw [List.mapIdx_cons]
            simp only [hposition]
            congr 1
            simp
          rw [hlist]
          exact Emits.of_advance hstep hemits

end Scan

section Lossless

variable {u : Unicode} {text : List Char}

/-- The characters of a run. -/
def runText (text : List Char) (i j : ℕ) : List Char := (text.take j).drop i

/-- Digits that are not too few and not too many. -/
def LongDigits (run : List Char) : Prop :=
  isDigits run = true ∧ minExpandLen ≤ run.length ∧ run.length ≤ maxExpandLen

/-- What a run is found by: itself, and the prefixes of long digits. -/
def Form (run w : List Char) : Prop :=
  w = run ∨ LongDigits run ∧ ∃ n, minPrefixLen ≤ n ∧ n < run.length ∧ w = run.take n

theorem size_of_isDigits {run : List Char} (h : isDigits run = true) : size run = run.length := by
  apply size_eq_length
  intro c hc
  have hdigit : c.isDigit = true := List.all_eq_true.mp h c hc
  rw [Char.utf8Size_eq_one_iff]
  simp only [Char.isDigit, Bool.and_eq_true, decide_eq_true_eq] at hdigit
  exact UInt32.le_trans hdigit.2 (by decide)

theorem expands_iff {run : List Char} : expands run = true ↔ LongDigits run := by
  simp only [expands, LongDigits, Bool.and_eq_true, decide_eq_true_eq, and_assoc]
  apply and_congr_right
  intro h
  rw [size_of_isDigits h]

theorem prefixes_eq (base : Token) : prefixes base = if expands base.text then
    (List.range' minPrefixLen (size base.text - minPrefixLen)).map
      fun plen => { base with text := base.text.take plen } else [] := by
  unfold prefixes
  rw [List.foldl_reverse, List.map_eq_foldr]

/-- A token gives the forms of its text, at its own place. -/
theorem mem_expanded {base t : Token} :
    t ∈ base :: prefixes base ↔ Form base.text t.text ∧ t = { base with text := t.text } := by
  rw [List.mem_cons, prefixes_eq]
  by_cases h : expands base.text = true
  · have hlong := expands_iff.mp h
    rw [if_pos h, size_of_isDigits hlong.1]
    simp only [List.mem_map, List.mem_range'_1]
    constructor
    · rintro (rfl | ⟨n, hn, rfl⟩)
      · exact ⟨.inl rfl, rfl⟩
      · exact ⟨.inr ⟨hlong, n, hn.1, by omega, rfl⟩, rfl⟩
    · rintro ⟨hsame | ⟨-, n, hle, hlt, htake⟩, heq⟩
      · exact .inl (by rw [heq, hsame])
      · exact .inr ⟨n, ⟨hle, by omega⟩, by rw [heq, htake]⟩
  · have hshort : ¬ LongDigits base.text := mt expands_iff.mpr h
    rw [if_neg h]
    simp only [List.not_mem_nil, or_false]
    constructor
    · rintro rfl
      exact ⟨.inl rfl, rfl⟩
    · rintro ⟨hsame | ⟨hlong, -⟩, heq⟩
      · rw [heq, hsame]
      · exact absurd hlong hshort

/-- No form of one token is given twice. -/
theorem pairwise_expanded (base : Token) :
    (base :: prefixes base).Pairwise fun a b => a.text ≠ b.text := by
  rw [prefixes_eq]
  by_cases h : expands base.text = true
  · have hlong := expands_iff.mp h
    rw [if_pos h, size_of_isDigits hlong.1, List.pairwise_cons]
    constructor
    · intro t ht heq
      obtain ⟨n, hn, rfl⟩ := List.mem_map.mp ht
      have hlength := congrArg List.length heq
      have hrange := List.mem_range'_1.mp hn
      simp only [List.length_take] at hlength
      omega
    · rw [List.pairwise_map]
      apply List.Pairwise.imp_of_mem _ List.pairwise_lt_range'
      intro m n hm hn hlt heq
      have hlength := congrArg List.length heq
      have hrange := List.mem_range'_1.mp hn
      have hrange' := List.mem_range'_1.mp hm
      simp only [List.length_take] at hlength
      omega
  · rw [if_neg h]
    exact List.pairwise_singleton _ _

/-- What the tokens and the filtered tokens of a text are. -/
structure Lossless (u : Unicode) (text : List Char) (tokens filtered : List Token) : Prop where
  runs : ∃ runs : List (ℕ × ℕ), runs.Pairwise (fun r s => r.2 ≤ s.1) ∧
    (∀ i j, (i, j) ∈ runs ↔ IsRun (classAt u text) i j) ∧
    tokens = runs.mapIdx fun m r => tokenAt text (UInt64.ofNat m) r.1 r.2
  forms : ∀ t, t ∈ filtered ↔
    ∃ base ∈ tokens, Form base.text t.text ∧ t = { base with text := t.text }
  once : filtered.Pairwise fun a b => a.offsetFrom ≠ b.offsetFrom ∨ a.text ≠ b.text

theorem size_take_lt {i j : ℕ} (hlt : i < j) (hlength : i < text.length) :
    size (text.take i) < size (text.take j) := by
  obtain ⟨d, rfl⟩ : ∃ d, j = i + (d + 1) := ⟨j - i - 1, by omega⟩
  have hdrop : text.drop i = text[i] :: text.drop (i + 1) := List.drop_eq_getElem_cons hlength
  have hpos : 0 < (text[i]).utf8Size := Char.utf8Size_pos _
  rw [List.take_add, hdrop, List.take_succ_cons, size_append, size_cons]
  omega

theorem start_lt_length {i j : ℕ} (h : IsRun (classAt u text) i j) : i < text.length := by
  obtain ⟨hlt, k, hall, -, -⟩ := h
  have hclass := hall i (Nat.le_refl i) hlt
  by_contra hout
  rw [classAt, List.getElem?_eq_none (by omega)] at hclass
  exact absurd hclass (by simp)

theorem mem_mapIdx_tokenAt {runs : List (ℕ × ℕ)} {t : Token}
    (h : t ∈ runs.mapIdx fun m r => tokenAt text (UInt64.ofNat m) r.1 r.2) :
    ∃ r ∈ runs, t.offsetFrom = size (text.take r.1) ∧ t.offsetTo = size (text.take r.2) ∧
      t.text = runText text r.1 r.2 := by
  obtain ⟨m, hm, rfl⟩ := List.mem_mapIdx.mp h
  exact ⟨runs[m], List.getElem_mem hm, rfl, rfl, rfl⟩

theorem lossless_of_runs {runs : List (ℕ × ℕ)} (hpairs : runs.Pairwise fun r s => r.2 ≤ s.1)
    (hruns : ∀ i j, (i, j) ∈ runs ↔ IsRun (classAt u text) i j) {tokens : List Token}
    (htokens : tokens = runs.mapIdx fun m r => tokenAt text (UInt64.ofNat m) r.1 r.2) :
    Lossless u text tokens (tokens.flatMap fun t => t :: prefixes t) where
  runs := ⟨runs, hpairs, hruns, htokens⟩
  forms := by
    intro t
    rw [List.mem_flatMap]
    constructor
    · rintro ⟨base, hbase, ht⟩
      exact ⟨base, hbase, mem_expanded.mp ht⟩
    · rintro ⟨base, hbase, ht⟩
      exact ⟨base, hbase, mem_expanded.mpr ht⟩
  once := by
    rw [List.pairwise_flatMap]
    constructor
    · intro base _
      exact (pairwise_expanded base).imp fun h => .inr h
    · rw [htokens, List.pairwise_iff_getElem]
      intro m n hm hn hlt a ha b hb
      left
      rw [(mem_expanded.mp ha).2, (mem_expanded.mp hb).2]
      simp only [List.getElem_mapIdx, tokenAt, List.length_mapIdx] at hm hn ⊢
      have hafter : runs[m].2 ≤ runs[n].1 := List.pairwise_iff_getElem.mp hpairs m n hm hn hlt
      have hfirst : IsRun (classAt u text) runs[m].1 runs[m].2 :=
        (hruns _ _).mp (List.getElem_mem hm)
      have hstart : runs[m].1 < runs[n].1 := by
        have hlonger := hfirst.1
        omega
      exact (size_take_lt hstart (start_lt_length hfirst)).ne

/-- The tokenizer ends on every text, and so does the filter. -/
theorem exists_lossless (u : Unicode) (text : List Char) : ∃ tokens filtered,
    Emits (codeTokenizer u) (tokenStream text) tokens ∧
    Emits (digitPrefixFilter u) (filteredStream text) filtered ∧ Lossless u text tokens filtered := by
  obtain ⟨runs, hpairs, hruns, hemits⟩ := emits_from (u := u) text text.length 0
    { Token.default with position := -1 } (by omega) boundary_zero
  have hpositions : (runs.mapIdx fun m r => tokenAt text
      (({ Token.default with position := -1 } : Token).position + 1 + UInt64.ofNat m) r.1 r.2) =
      runs.mapIdx fun m r => tokenAt text (UInt64.ofNat m) r.1 r.2 := by
    have hfirst : ∀ m : ℕ, (-1 : UInt64) + 1 + UInt64.ofNat m = UInt64.ofNat m := by
      intro m
      have hzero : (-1 : UInt64) + 1 = 0 := by decide
      rw [hzero, UInt64.zero_add]
    simp only [hfirst]
  rw [hpositions] at hemits
  refine ⟨_, _, hemits, emits_expanded hemits prefixes Token.default, ?_⟩
  exact lossless_of_runs hpairs (by simpa using hruns) rfl

theorem classAt_isDigits {w : List Char} (h : isDigits w = true) {m : ℕ} (hm : m < w.length) :
    classAt u w m = some .digit := by
  have hdigit : w[m].isDigit = true := List.all_eq_true.mp h _ (List.getElem_mem hm)
  obtain ⟨halpha, hnumeric⟩ := u.digit _ hdigit
  rw [classAt, List.getElem?_eq_getElem hm, Option.bind_some, classify, halpha, hnumeric]
  rfl

/-- Digits alone are one run. -/
theorem runText_isDigits {w : List Char} (h : isDigits w = true) {i j : ℕ}
    (hrun : IsRun (classAt u w) i j) : runText w i j = w := by
  have hlength := start_lt_length hrun
  obtain ⟨hlt, k, hall, hstart, hend⟩ := hrun
  obtain rfl : CharClass.digit = k :=
    Option.some.inj ((classAt_isDigits h hlength).symm.trans (hall i (Nat.le_refl i) hlt))
  have hfirst : i = 0 := by
    by_contra hne
    exact hstart (i - 1) (by omega) (classAt_isDigits h (by omega))
  have hlast : w.length ≤ j := by
    by_contra hshort
    exact hend (classAt_isDigits h (by omega))
  rw [runText, hfirst, List.drop_zero, List.take_of_length_le hlast]

theorem isDigits_form {run w : List Char} (hdigits : isDigits run = true) (h : Form run w) :
    isDigits w = true := by
  rcases h with rfl | ⟨-, n, -, -, rfl⟩
  · exact hdigits
  · exact List.all_eq_true.mpr fun c hc =>
      List.all_eq_true.mp hdigits c (List.mem_of_mem_take hc)

/-- A form of a form is a form. -/
theorem Form.trans {run w v : List Char} (h : Form run w) (h' : Form w v) : Form run v := by
  rcases h with rfl | ⟨hlong, n, hle, hlt, rfl⟩
  · exact h'
  · rcases h' with rfl | ⟨-, m, hle', hlt', rfl⟩
    · exact .inr ⟨hlong, n, hle, hlt, rfl⟩
    · rw [List.length_take] at hlt'
      refine .inr ⟨hlong, m, hle', by omega, ?_⟩
      rw [List.take_take, Nat.min_eq_left (by omega)]

theorem Lossless.form_of_run {tokens filtered : List Token} (h : Lossless u text tokens filtered)
    {i j : ℕ} (hrun : IsRun (classAt u text) i j) {w : List Char} (hform : Form (runText text i j) w) :
    ∃ t ∈ filtered, t.text = w ∧ t.offsetFrom = size (text.take i) ∧
      t.offsetTo = size (text.take j) := by
  obtain ⟨runs, hpairs, hruns, htokens⟩ := h.runs
  obtain ⟨m, hm, hget⟩ := List.mem_iff_getElem.mp ((hruns i j).mpr hrun)
  have hbase : tokenAt text (UInt64.ofNat m) i j ∈ tokens := by
    rw [htokens]
    exact List.mem_mapIdx.mpr ⟨m, hm, by rw [hget]⟩
  refine ⟨{ tokenAt text (UInt64.ofNat m) i j with text := w }, ?_, rfl, rfl, rfl⟩
  exact (h.forms _).mpr ⟨_, hbase, hform, rfl⟩

/-- What is asked for with digits is what a form of the digits gives. -/
theorem Lossless.text_of_digits {w : List Char} (hdigits : isDigits w = true)
    {tokens filtered : List Token} (h : Lossless u w tokens filtered) {t : Token}
    (ht : t ∈ filtered) : Form w t.text := by
  obtain ⟨runs, -, hruns, htokens⟩ := h.runs
  obtain ⟨base, hbase, hform, -⟩ := (h.forms t).mp ht
  rw [htokens] at hbase
  obtain ⟨r, hr, -, -, htext⟩ := mem_mapIdx_tokenAt hbase
  rw [htext, runText_isDigits hdigits ((hruns r.1 r.2).mp hr)] at hform
  exact hform

/-- A text gives its runs, each once, with its place; long digits are given once in full and once for
each prefix, at the place of the run; and whoever asks for such digits finds the text. -/
theorem tokenization_lossless (u : Unicode) (text : List Char) : ∃ tokens filtered,
    Emits (codeTokenizer u) (tokenStream text) tokens ∧
    Emits (digitPrefixFilter u) (filteredStream text) filtered ∧
    Lossless u text tokens filtered ∧
    ∀ i j, IsRun (classAt u text) i j → ∀ w, Form (runText text i j) w →
      (∃ t ∈ filtered, t.text = w ∧ t.offsetFrom = size (text.take i) ∧
        t.offsetTo = size (text.take j)) ∧
      (isDigits (runText text i j) = true → ∀ asked,
        Emits (digitPrefixFilter u) (filteredStream w) asked →
        ∀ a ∈ asked, ∃ t ∈ filtered, t.text = a.text) := by
  obtain ⟨tokens, filtered, htokens, hfiltered, hlossless⟩ := exists_lossless u text
  refine ⟨tokens, filtered, htokens, hfiltered, hlossless, ?_⟩
  intro i j hrun w hform
  refine ⟨hlossless.form_of_run hrun hform, ?_⟩
  intro hdigits asked hasked a ha
  obtain ⟨_, given, -, hgiven, hquery⟩ := exists_lossless u w
  obtain rfl : asked = given := hasked.unique hgiven
  have hshorter := hquery.text_of_digits (isDigits_form hdigits hform) ha
  obtain ⟨t, ht, htext, -⟩ := hlossless.form_of_run hrun (hform.trans hshorter)
  exact ⟨t, ht, htext⟩

/-- The properties of the characters up to 127. -/
def Unicode.ascii : Unicode where
  isAlphabetic := Char.isAlpha
  isNumeric := Char.isDigit
  digit := by
    intro c h
    have hcode := h
    simp only [Char.isDigit, Bool.and_eq_true, decide_eq_true_eq] at hcode
    have hupper : c.isUpper = false := by
      simp only [Char.isUpper, decide_eq_false_iff_not]
      intro hletter
      exact absurd (UInt32.le_trans hletter.1 hcode.2) (by decide)
    have hlower : c.isLower = false := by
      simp only [Char.isLower, Bool.and_eq_false_iff, decide_eq_false_iff_not]
      left
      intro hle
      exact absurd (UInt32.le_trans hle hcode.2) (by decide)
    exact ⟨by rw [Char.isAlpha, hupper, hlower]; rfl, h⟩

theorem tokenization_lossless_invoice : ∃ tokens filtered,
    Emits (codeTokenizer .ascii) (tokenStream "INV-20267".toList) tokens ∧
    Emits (digitPrefixFilter .ascii) (filteredStream "INV-20267".toList) filtered ∧
    Lossless .ascii "INV-20267".toList tokens filtered ∧
    ∀ i j, IsRun (classAt .ascii "INV-20267".toList) i j → ∀ w,
      Form (runText "INV-20267".toList i j) w →
      (∃ t ∈ filtered, t.text = w ∧ t.offsetFrom = size ("INV-20267".toList.take i) ∧
        t.offsetTo = size ("INV-20267".toList.take j)) ∧
      (isDigits (runText "INV-20267".toList i j) = true → ∀ asked,
        Emits (digitPrefixFilter .ascii) (filteredStream w) asked →
        ∀ a ∈ asked, ∃ t ∈ filtered, t.text = a.text) :=
  tokenization_lossless .ascii "INV-20267".toList

end Lossless
end ContentSearch
