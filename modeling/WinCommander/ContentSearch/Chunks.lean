import WinCommander.Library.Outcome
import WinCommander.Library.TextBytes

/-!
# Chunks of a document

The body of a document is cut into pieces of at most 512 bytes.  A cut that would fall inside a
character is moved back to the last place before it that does not.
-/

namespace ContentSearch

open Json (size)
open TextBytes hiding slice slice_append

section Definitions

structure FileMeta where
  docId : UInt64
  name : List Char

structure ExtractedDoc where
  info : FileMeta
  title : List Char
  body : List Char

inductive ChunkField where
  | title
  | body
  deriving DecidableEq

structure Chunk where
  docId : UInt64
  field : ChunkField
  ordinal : UInt32
  text : List Char
  deriving DecidableEq

/-- How cutting goes wrong. -/
inductive ChunkFault where
  /-- A slice is asked for that starts or ends inside a character. -/
  | slice
  | outOfFuel
  deriving DecidableEq

def chunkSize : ℕ := 512

def maxBodyBytes : ℕ := 4 * 1024 * 1024

/-- The body that extraction keeps of a text. -/
def capBody (body : List Char) : Except ChunkFault (List Char) :=
  if size body > maxBodyBytes then
    Outcome.okOr (TextBytes.slice body 0 (floorBoundary body maxBodyBytes)) .slice
  else .ok body

/-- The last part of extraction: what is made of the text that a format's reader returns. -/
def extractText (info : FileMeta) (body : List Char) : Except ChunkFault ExtractedDoc := do
  let body ← capBody body
  .ok ⟨info, info.name, body⟩

def titleChunk (doc : ExtractedDoc) : Chunk := ⟨doc.info.docId, .title, 0, doc.title⟩

/-- The loop over the body, from the byte `start` on. -/
def bodyChunks (docId : UInt64) (body : List Char) :
    ℕ → ℕ → UInt32 → Except ChunkFault (List Chunk)
  | 0, _, _ => .error .outOfFuel
  | fuel + 1, start, ordinal =>
    if start < size body then do
      let stop := floorBoundary body (min (start + chunkSize) (size body))
      let text ← Outcome.okOr (TextBytes.slice body start stop) .slice
      -- the ordinal is a machine integer that wraps
      let rest ← bodyChunks docId body fuel stop (ordinal + 1)
      .ok (⟨docId, .body, ordinal, text⟩ :: rest)
    else .ok []

def chunkDoc (fuel : ℕ) (doc : ExtractedDoc) : Except ChunkFault (List Chunk) := do
  let bodies ← bodyChunks doc.info.docId doc.body fuel 0 1
  .ok (titleChunk doc :: bodies)

/-- Every chunk is numbered by its place. -/
def Consecutive (chunks : List Chunk) : Prop :=
  ∀ i (h : i < chunks.length), chunks[i].ordinal.toNat = i

/-- A text cut into chunks that are numbered from `ordinal` on. -/
structure Cut (docId : UInt64) (text : List Char) (ordinal : UInt32) (chunks : List Chunk) :
    Prop where
  flatten : (chunks.map Chunk.text).flatten = text
  each : ∀ chunk ∈ chunks, chunk.docId = docId ∧ chunk.field = .body ∧ chunk.text ≠ [] ∧
    size chunk.text ≤ chunkSize
  ordinals : ∀ i (h : i < chunks.length), chunks[i].ordinal = ordinal + UInt32.ofNat i

end Definitions

section Body

/-- One iteration cuts off a beginning of what is left. -/
theorem exists_cut (before : List Char) {rest : List Char} (hrest : rest ≠ []) :
    ∃ m b, rest = m ++ b ∧ m ≠ [] ∧ size m ≤ chunkSize ∧
      floorBoundary (before ++ rest) (min (size before + chunkSize) (size (before ++ rest))) =
        size before + size m := by
  have hpos : 0 < size rest := by
    obtain ⟨c, text, rfl⟩ := List.exists_cons_of_ne_nil hrest
    rw [Json.size_cons]
    exact Nat.add_pos_left c.utf8Size_pos _
  have hsize : size (before ++ rest) = size before + size rest := Json.size_append _ _
  let i := min (size before + chunkSize) (size (before ++ rest))
  have hi : i ≤ size (before ++ rest) := Nat.min_le_right _ _
  have hle : floorBoundary (before ++ rest) i ≤ size before + chunkSize :=
    (floorBoundary_le _ i).trans (Nat.min_le_left _ _)
  -- a character is much shorter than a chunk, so the cut stays after the start
  have hprogress : size before < floorBoundary (before ++ rest) i := by
    by_cases hlast : i = size (before ++ rest)
    · rw [hlast, floorBoundary_size]
      omega
    · have hnear := lt_floorBoundary_add (before ++ rest) hi
      have hmin : i = size before + chunkSize := by omega
      simp only [chunkSize] at hmin
      omega
  obtain ⟨m, b, hmb, hm⟩ :=
    exists_of_isCharBoundary (isCharBoundary_floorBoundary (before ++ rest) i) hprogress.le
  refine ⟨m, b, hmb, ?_, by omega, hm.symm⟩
  intro hnil
  rw [hnil, Json.size_nil] at hm
  omega

theorem Cut.nil (docId : UInt64) (ordinal : UInt32) : Cut docId [] ordinal [] :=
  ⟨rfl, by simp, by simp⟩

theorem Cut.cons {docId : UInt64} {m b : List Char} {ordinal : UInt32} {chunks : List Chunk}
    (hm : m ≠ []) (hsize : size m ≤ chunkSize) (h : Cut docId b (ordinal + 1) chunks) :
    Cut docId (m ++ b) ordinal (⟨docId, .body, ordinal, m⟩ :: chunks) where
  flatten := by simp [h.flatten]
  each := by
    intro chunk hmem
    rcases List.mem_cons.mp hmem with rfl | htail
    · exact ⟨rfl, rfl, hm, hsize⟩
    · exact h.each chunk htail
  ordinals := by
    intro i hi
    cases i with
    | zero => simp
    | succ i =>
      have htail := h.ordinals i (by simpa using hi)
      rw [List.getElem_cons_succ, htail, UInt32.ofNat_add, UInt32.add_assoc]
      congr 1
      exact UInt32.add_comm _ _

/-- The loop ends for every body and cuts all of it. -/
theorem bodyChunks_cut (docId : UInt64) (before rest : List Char) (ordinal : UInt32) :
    ∃ chunks, (∀ fuel, size rest < fuel →
        bodyChunks docId (before ++ rest) fuel (size before) ordinal = .ok chunks) ∧
      Cut docId rest ordinal chunks := by
  induction hn : size rest using Nat.strong_induction_on generalizing before rest ordinal with
  | _ n ih =>
    subst hn
    by_cases hrest : rest = []
    · refine ⟨[], ?_, hrest ▸ Cut.nil docId ordinal⟩
      intro fuel hfuel
      cases fuel with
      | zero => omega
      | succ fuel => simp [bodyChunks, hrest]
    · obtain ⟨m, b, rfl, hm, hsize, hstop⟩ := exists_cut before hrest
      have hpos : 0 < size m := by
        obtain ⟨c, text, rfl⟩ := List.exists_cons_of_ne_nil hm
        rw [Json.size_cons]
        exact Nat.add_pos_left c.utf8Size_pos _
      have hshorter : size b < size (m ++ b) := by rw [Json.size_append]; omega
      obtain ⟨chunks, hrun, hcut⟩ := ih _ hshorter (before ++ m) b (ordinal + 1) rfl
      refine ⟨⟨docId, .body, ordinal, m⟩ :: chunks, ?_, hcut.cons hm hsize⟩
      intro fuel hfuel
      cases fuel with
      | zero => omega
      | succ fuel =>
        have htail := hrun fuel (by omega)
        rw [List.append_assoc, Json.size_append] at htail
        have hlt : size before < size (before ++ (m ++ b)) := by
          rw [Json.size_append, Json.size_append]
          omega
        rw [bodyChunks, if_pos hlt, hstop]
        dsimp only
        rw [TextBytes.slice_append, Outcome.okOr_some, htail]
        rfl

end Body

section Lengths

theorem Cut.size_le {docId : UInt64} {text : List Char} {ordinal : UInt32} {chunks : List Chunk}
    (h : Cut docId text ordinal chunks) : size text ≤ chunkSize * chunks.length := by
  obtain ⟨rfl, heach, -⟩ := h
  induction chunks with
  | nil => simp
  | cons chunk chunks ih =>
    have hhead := (heach chunk List.mem_cons_self).2.2.2
    have htail := ih fun c hc => heach c (List.mem_cons_of_mem _ hc)
    simp only [List.map_cons, List.flatten_cons, Json.size_append, List.length_cons]
    rw [Nat.mul_succ]
    omega

theorem Cut.length_le {docId : UInt64} {text : List Char} {ordinal : UInt32} {chunks : List Chunk}
    (h : Cut docId text ordinal chunks) : chunks.length ≤ size text := by
  obtain ⟨rfl, heach, -⟩ := h
  induction chunks with
  | nil => simp
  | cons chunk chunks ih =>
    have hhead := (heach chunk List.mem_cons_self).2.2.1
    have htail := ih fun c hc => heach c (List.mem_cons_of_mem _ hc)
    obtain ⟨c, text, hc⟩ := List.exists_cons_of_ne_nil hhead
    have hpos : 0 < c.utf8Size := c.utf8Size_pos
    simp only [List.map_cons, List.flatten_cons, Json.size_append, List.length_cons, hc,
      Json.size_cons]
    omega

theorem capBody_size {text body : List Char} (h : capBody text = .ok body) :
    size body ≤ maxBodyBytes := by
  unfold capBody at h
  by_cases hlong : size text > maxBodyBytes
  · rw [if_pos hlong] at h
    have hslice := Outcome.okOr_ok.mp h
    simp only [TextBytes.slice, Nat.zero_le, if_true, splitBytes_zero, Option.bind_some,
      Nat.sub_zero] at hslice
    obtain ⟨⟨a, b⟩, hsplit, rfl⟩ := Option.map_eq_some_iff.mp hslice
    rw [(splitBytes_sound hsplit).2]
    exact floorBoundary_le _ _
  · rw [if_neg hlong] at h
    cases h
    exact Nat.le_of_not_lt hlong

/-- Cutting a long text short never fails. -/
theorem capBody_ok (text : List Char) : ∃ body, capBody text = .ok body ∧ body <+: text := by
  unfold capBody
  by_cases hlong : size text > maxBodyBytes
  · have hbound := isCharBoundary_floorBoundary text maxBodyBytes
    obtain ⟨a, b, htext, hsize⟩ := isCharBoundary_iff.mp hbound
    refine ⟨a, ?_, ⟨b, htext.symm⟩⟩
    have hslice := TextBytes.slice_append [] a b
    simp only [List.nil_append, Json.size_nil, Nat.zero_add] at hslice
    rw [if_pos hlong, ← hsize, htext, hslice]
    rfl
  · exact ⟨text, if_neg hlong, List.prefix_rfl⟩

end Lengths

section Documents

/-- Where a chunk starts and where the one before it ends. -/
theorem Cut.boundary {docId : UInt64} {text : List Char} {ordinal : UInt32} {chunks : List Chunk}
    (h : Cut docId text ordinal chunks) (i : ℕ) :
    isCharBoundary text (size ((chunks.take i).map Chunk.text).flatten) = true := by
  have hsplit : text = ((chunks.take i).map Chunk.text).flatten ++
      ((chunks.drop i).map Chunk.text).flatten := by
    rw [← List.flatten_append, ← List.map_append, List.take_append_drop, h.flatten]
  rw [hsplit]
  exact isCharBoundary_append _ _

/-- The title and the chunks of a body are numbered in one sequence. -/
theorem ordinal_getElem {doc : ExtractedDoc} {bodies : List Chunk}
    (h : Cut doc.info.docId doc.body 1 bodies) (i : ℕ)
    (hi : i < (titleChunk doc :: bodies).length) :
    (titleChunk doc :: bodies)[i].ordinal = UInt32.ofNat i := by
  cases i with
  | zero => rfl
  | succ i =>
    rw [List.getElem_cons_succ, h.ordinals i (by simpa using hi), Nat.add_comm i 1,
      UInt32.ofNat_add]
    rfl

theorem consecutive_iff {doc : ExtractedDoc} {bodies : List Chunk}
    (h : Cut doc.info.docId doc.body 1 bodies) :
    Consecutive (titleChunk doc :: bodies) ↔ bodies.length < 2 ^ 32 := by
  constructor
  · intro hcons
    have hlast := hcons bodies.length (by simp)
    rw [ordinal_getElem h] at hlast
    rw [← hlast]
    exact UInt32.toNat_lt _
  · intro hlen i hi
    rw [ordinal_getElem h, UInt32.toNat_ofNat_of_lt']
    rw [List.length_cons] at hi
    exact Nat.lt_of_le_of_lt (Nat.le_of_lt_succ hi) hlen

/-- Cutting a document ends, whatever its body is, and cuts all of it. -/
theorem chunkDoc_cut (doc : ExtractedDoc) :
    ∃ bodies, (∀ fuel, size doc.body < fuel →
        chunkDoc fuel doc = .ok (titleChunk doc :: bodies)) ∧
      Cut doc.info.docId doc.body 1 bodies := by
  obtain ⟨bodies, hrun, hcut⟩ := bodyChunks_cut doc.info.docId [] doc.body 1
  refine ⟨bodies, ?_, hcut⟩
  intro fuel hfuel
  have hloop := hrun fuel hfuel
  rw [List.nil_append, Json.size_nil] at hloop
  rw [chunkDoc, hloop]
  rfl

/-- A document is cut into its title and nonempty pieces of its body of at most a chunk's size, none
of which splits a character.  Their numbers are their places as long as these fit the number's type, as
they do for every document that extraction makes. -/
theorem chunkDoc_sound (doc : ExtractedDoc) :
    ∃ bodies, (∀ fuel, size doc.body < fuel →
        chunkDoc fuel doc = .ok (titleChunk doc :: bodies)) ∧
      (bodies.map Chunk.text).flatten = doc.body ∧
      (∀ chunk ∈ bodies, chunk.docId = doc.info.docId ∧ chunk.field = .body ∧ chunk.text ≠ [] ∧
        size chunk.text ≤ chunkSize) ∧
      (∀ i, isCharBoundary doc.body (size ((bodies.take i).map Chunk.text).flatten) = true) ∧
      (∀ i (h : i < (titleChunk doc :: bodies).length),
        (titleChunk doc :: bodies)[i].ordinal = UInt32.ofNat i) ∧
      (Consecutive (titleChunk doc :: bodies) ↔ bodies.length < 2 ^ 32) ∧
      ∀ info text, extractText info text = .ok doc → Consecutive (titleChunk doc :: bodies) := by
  obtain ⟨bodies, hrun, hcut⟩ := chunkDoc_cut doc
  refine ⟨bodies, hrun, hcut.flatten, hcut.each, hcut.boundary, ordinal_getElem hcut,
    consecutive_iff hcut, ?_⟩
  intro info text htext
  obtain ⟨body, hbody, hdoc⟩ := Outcome.bind_ok.mp htext
  cases hdoc
  apply (consecutive_iff hcut).mpr
  have hlen : bodies.length ≤ size body := hcut.length_le
  have hsize := capBody_size hbody
  simp only [maxBodyBytes] at hsize
  omega

/-- A document whose body is one letter many times. -/
def plainDoc (n : ℕ) : ExtractedDoc := ⟨⟨0, []⟩, [], List.replicate n 'a'⟩

theorem plainDoc_wraps (n : ℕ) (hn : 2 ^ 41 ≤ n) :
    ∃ chunks, chunkDoc (n + 1) (plainDoc n) = .ok chunks ∧ ¬ Consecutive chunks := by
  have hsize : size (plainDoc n).body = n := by
    rw [plainDoc, Json.size_eq_length, List.length_replicate]
    intro c hc
    rw [List.eq_of_mem_replicate hc]
    rfl
  obtain ⟨bodies, hrun, hcut⟩ := chunkDoc_cut (plainDoc n)
  refine ⟨_, hrun (n + 1) (by rw [hsize]; exact Nat.lt_succ_self n), ?_⟩
  rw [consecutive_iff hcut]
  have hlen := hcut.size_le
  rw [hsize, chunkSize] at hlen
  omega

/-- Two tebibytes of text have more chunks than there are numbers. -/
theorem two_tebibytes_not_consecutive :
    ∃ chunks, chunkDoc (2 ^ 41 + 1) (plainDoc (2 ^ 41)) = .ok chunks ∧ ¬ Consecutive chunks :=
  plainDoc_wraps (2 ^ 41) (Nat.le_refl _)

end Documents

end ContentSearch
