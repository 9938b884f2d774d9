import Mathlib.Data.List.Basic
import WinCommander.Library.Bytes

/-!
# Byte streams

A stream arrives in pieces, which may be cut anywhere, and ends.  What is read from it does not
depend on how it was cut.
-/

namespace ByteStream

structure Chunk where
  bytes : List UInt8
  nonempty : bytes ≠ []

/-- The pieces that are still to come, and what reading gives once there are no more. -/
structure Pipe (ε : Type) where
  chunks : List Chunk
  ending : ε

variable {ε : Type}

def content (chunks : List Chunk) : List UInt8 := chunks.flatMap Chunk.bytes

def Pipe.bytes (pipe : Pipe ε) : List UInt8 := content pipe.chunks

/-- Read from the pieces until a number of bytes is there. -/
@[grind =] def take : ℕ → List Chunk → Option (List UInt8 × List Chunk)
  | 0, chunks => some ([], chunks)
  | _ + 1, [] => none
  | n + 1, c :: chunks =>
    if h : c.bytes.length ≤ n + 1 then
      (take (n + 1 - c.bytes.length) chunks).map fun r => (c.bytes ++ r.1, r.2)
    else some (c.bytes.take (n + 1), ⟨c.bytes.drop (n + 1), by simpa using h⟩ :: chunks)

def Pipe.readExact (n : ℕ) (pipe : Pipe ε) : Except ε (List UInt8 × Pipe ε) :=
  match take n pipe.chunks with
  | some (bytes, chunks) => .ok (bytes, { pipe with chunks })
  | none => .error pipe.ending

theorem content_cons (c : Chunk) (chunks : List Chunk) :
    content (c :: chunks) = c.bytes ++ content chunks := List.flatMap_cons

theorem take_of_le {n : ℕ} {chunks : List Chunk} (h : n ≤ (content chunks).length) :
    ∃ rest, take n chunks = some ((content chunks).take n, rest) ∧
      content rest = (content chunks).drop n := by
  induction chunks generalizing n with
  | nil =>
    have hn : n = 0 := by simpa [content] using h
    subst hn
    exact ⟨[], rfl, rfl⟩
  | cons c chunks ih =>
    cases n with
    | zero => exact ⟨c :: chunks, rfl, rfl⟩
    | succ n =>
      rw [content_cons, List.length_append] at h
      rw [content_cons, take]
      by_cases hc : c.bytes.length ≤ n + 1
      · obtain ⟨rest, htake, hrest⟩ := @ih (n + 1 - c.bytes.length) (by omega)
        refine ⟨rest, ?_, ?_⟩
        · rw [dif_pos hc, htake, Option.map_some, List.take_append, List.take_of_length_le hc]
        · rw [hrest, List.drop_append, List.drop_of_length_le hc, List.nil_append]
      · refine ⟨⟨c.bytes.drop (n + 1), by simpa using hc⟩ :: chunks, ?_, ?_⟩
        · rw [dif_neg hc, List.take_append_of_le_length (by omega)]
        · rw [content_cons, List.drop_append_of_le_length (by omega)]

theorem take_of_lt {n : ℕ} {chunks : List Chunk} (h : (content chunks).length < n) :
    take n chunks = none := by
  induction chunks generalizing n with
  | nil =>
    cases n with
    | zero => exact absurd h (Nat.not_lt_zero _)
    | succ n => rfl
  | cons c chunks ih =>
    cases n with
    | zero => exact absurd h (Nat.not_lt_zero _)
    | succ n =>
      rw [content_cons, List.length_append] at h
      rw [take, dif_pos (by omega), ih (by omega), Option.map_none]

namespace Pipe

variable {pipe pipe' : Pipe ε} {n : ℕ} {front rest bytes : List UInt8}

/-- Reading as many bytes as a text has from a stream that starts with the text. -/
theorem readExact_append (h : pipe.bytes = front ++ rest) :
    ∃ pipe' : Pipe ε, pipe.readExact front.length = .ok (front, pipe') ∧ pipe'.bytes = rest ∧
      pipe'.ending = pipe.ending := by
  have hcontent : content pipe.chunks = front ++ rest := h
  have hle : front.length ≤ (content pipe.chunks).length := by
    rw [hcontent, List.length_append]
    omega
  obtain ⟨chunks, htake, hchunks⟩ := take_of_le hle
  rw [hcontent, List.take_left] at htake
  rw [hcontent, List.drop_left] at hchunks
  refine ⟨{ pipe with chunks }, ?_, hchunks, rfl⟩
  rw [readExact, htake]

theorem readExact_short (h : pipe.bytes.length < n) : pipe.readExact n = .error pipe.ending := by
  rw [readExact, take_of_lt h]

/-- What was read stood at the front of the stream. -/
theorem readExact_ok (h : pipe.readExact n = .ok (bytes, pipe')) :
    pipe.bytes = bytes ++ pipe'.bytes ∧ bytes.length = n := by
  by_cases hshort : pipe.bytes.length < n
  · rw [readExact_short hshort] at h
    cases h
  · have hle : n ≤ (content pipe.chunks).length := Nat.le_of_not_lt hshort
    obtain ⟨chunks, htake, hchunks⟩ := take_of_le hle
    rw [readExact, htake] at h
    simp only [Except.ok.injEq, Prod.mk.injEq] at h
    obtain ⟨hbytes, hpipe⟩ := h
    rw [← hpipe, ← hbytes]
    constructor
    · show content pipe.chunks = (content pipe.chunks).take n ++ content chunks
      rw [hchunks, List.take_append_drop]
    · rw [List.length_take]
      omega

end Pipe

end ByteStream
