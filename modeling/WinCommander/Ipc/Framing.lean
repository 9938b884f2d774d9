import Mathlib
import WinCommander.Ipc.Envelope
import WinCommander.Library.ByteStream
import WinCommander.Library.Outcome
import WinCommander.Library.Utf8

/-!
# Frames

A frame is the length of a message, in four bytes of which the least significant one comes first,
and the message.  A frame may arrive in pieces.
-/

namespace Ipc

open Json Outcome ByteStream

section Code

inductive IoError where
  | unexpectedEof
  | invalidData (message : String)
  | other (message : String)
  deriving DecidableEq

abbrev Reader := Pipe IoError

@[irreducible] def maxPayloadBytes : ℕ := 16 * 1024 * 1024

def writeU32Le (n : ℕ) : List UInt8 := (Bytes.toBe 4 n).reverse

def readU32Le (bytes : List UInt8) : ℕ := Bytes.ofBe bytes.reverse

def readEnvelopeLimited (serde : SerdeJson) (limit : ℕ) (reader : Reader) :
    Except IoError (Envelope × Reader) := do
  let limit := min limit maxPayloadBytes
  let (header, reader) ← reader.readExact 4
  let len := readU32Le header
  refuseIf (len = 0 ∨ limit < len) (IoError.invalidData
    s!"IPC frame payload {len} bytes is outside the allowed nonzero cap of {limit} bytes")
  let (buf, reader) ← reader.readExact len
  let envelope ← (serde.fromSlice buf).mapError fun e =>
    IoError.invalidData s!"IPC frame JSON decode failed: {e}"
  pure (envelope, reader)

def readEnvelope (serde : SerdeJson) (reader : Reader) : Except IoError (Envelope × Reader) :=
  readEnvelopeLimited serde maxPayloadBytes reader

/-- The bytes of a frame. -/
def writeEnvelope (env : Envelope) : Except IoError (List UInt8) := do
  let body := env.toVec
  refuseIf (2 ^ 32 ≤ body.length) (IoError.invalidData
    "IPC envelope larger than u32::MAX (impossible in practice)")
  refuseIf (maxPayloadBytes < body.length) (IoError.invalidData
    s!"IPC envelope {body.length} bytes exceeds cap of {maxPayloadBytes} bytes")
  pure (writeU32Le body.length ++ body)

/-- A number of frames, read one after another. -/
def readMany (serde : SerdeJson) : ℕ → Reader → Except IoError (List Envelope × Reader)
  | 0, reader => .ok ([], reader)
  | n + 1, reader => do
    let (e, reader) ← readEnvelope serde reader
    let (es, reader) ← readMany serde n reader
    pure (e :: es, reader)

end Code

section Headers

variable {n : ℕ}

theorem maxPayloadBytes_lt : maxPayloadBytes < 2 ^ 32 := by
  unfold maxPayloadBytes
  decide

theorem length_writeU32Le (n : ℕ) : (writeU32Le n).length = 4 := by
  rw [writeU32Le, List.length_reverse, Bytes.length_toBe]

theorem readU32Le_writeU32Le (h : n < 2 ^ 32) : readU32Le (writeU32Le n) = n := by
  rw [readU32Le, writeU32Le, List.reverse_reverse]
  exact Bytes.ofBe_toBe_of_lt (by omega)

/-- Four bytes are those of the number that they write. -/
theorem writeU32Le_readU32Le {bytes : List UInt8} (h : bytes.length = 4) :
    writeU32Le (readU32Le bytes) = bytes := by
  have hback := Bytes.toBe_ofBe bytes.reverse
  rw [List.length_reverse, h] at hback
  rw [writeU32Le, readU32Le, hback, List.reverse_reverse]

end Headers

section Steps

variable {ε α β : Type} {x : Except ε α} {a : α} {err : ε}

theorem bind_of_ok (h : x = .ok a) (f : α → Except ε β) : (x >>= f) = f a := by
  rw [h]
  rfl

theorem bind_of_error (h : x = .error err) (f : α → Except ε β) : (x >>= f) = .error err := by
  rw [h]
  rfl

end Steps

section Frames

variable {serde : SerdeJson} {e : Envelope} {reader reader' : Reader} {frame body rest : List UInt8}
  {n : ℕ}

/-- A message that its reader gives back. -/
structure Readable (serde : SerdeJson) (e : Envelope) : Prop where
  depth : e.toValue.depth ≤ 127
  numbers : e.toValue.AllNumbers serde.keeps

theorem toVec_pos (e : Envelope) : 0 < e.toVec.length := by
  have hobject : ∃ ms, e.toValue = .object ms := by
    cases e <;> exact ⟨_, rfl⟩
  obtain ⟨ms, hms⟩ := hobject
  rw [Envelope.toVec, Envelope.toText, hms, Value.write]
  simp only [List.cons_append, utf8, List.flatMap_cons, List.length_append]
  have hbrace := List.length_pos_iff.mpr (Utf8.encodeChar_ne_nil '{')
  omega

/-- A message that is within the cap has a frame. -/
theorem writeEnvelope_ok : writeEnvelope e = .ok frame ↔
    e.toVec.length ≤ maxPayloadBytes ∧ writeU32Le e.toVec.length ++ e.toVec = frame := by
  unfold writeEnvelope
  simp only [Outcome.bind_ok, Outcome.refuseIf_ok, Outcome.pure_ok, Nat.not_le, Nat.not_lt]
  constructor
  · intro h
    obtain ⟨_, _, _, hlength, hframe⟩ := h
    exact ⟨hlength, hframe⟩
  · intro h
    exact ⟨(), Nat.lt_of_le_of_lt h.1 maxPayloadBytes_lt, (), h.1, h.2⟩

/-- What is read is the message behind its length. -/
theorem readEnvelope_ok (h : readEnvelope serde reader = .ok (e, reader')) :
    ∃ body, 0 < body.length ∧ body.length ≤ maxPayloadBytes ∧
      reader.bytes = writeU32Le body.length ++ body ++ reader'.bytes ∧
      serde.fromSlice body = .ok e := by
  unfold readEnvelope readEnvelopeLimited at h
  obtain ⟨⟨header, reader₁⟩, hheader, h⟩ := Outcome.bind_ok.mp h
  obtain ⟨_, hlength, h⟩ := Outcome.bind_ok.mp h
  obtain ⟨⟨buf, reader₂⟩, hbuf, h⟩ := Outcome.bind_ok.mp h
  obtain ⟨envelope, henvelope, h⟩ := Outcome.bind_ok.mp h
  rw [refuseIf_ok, not_or, min_self, Nat.not_lt] at hlength
  rw [Outcome.mapError_ok] at henvelope
  simp only [Outcome.pure_ok, Prod.mk.injEq] at h
  obtain ⟨hfront, hfour⟩ := Pipe.readExact_ok hheader
  obtain ⟨hrest, hlen⟩ := Pipe.readExact_ok hbuf
  refine ⟨buf, ?_, ?_, ?_, ?_⟩
  · rw [hlen]
    omega
  · rw [hlen]
    exact hlength.2
  · rw [hfront, hrest, hlen, writeU32Le_readU32Le hfour, ← h.2, List.append_assoc]
  · rw [← h.1]
    exact henvelope

/-- A message that its reader gives back is read from its frame, however the frame is cut. -/
theorem readEnvelope_body (hpos : 0 < body.length) (hcap : body.length ≤ maxPayloadBytes)
    (hbytes : reader.bytes = writeU32Le body.length ++ (body ++ rest))
    (hread : serde.fromSlice body = .ok e) :
    ∃ reader' : Reader, readEnvelope serde reader = .ok (e, reader') ∧ reader'.bytes = rest ∧
      reader'.ending = reader.ending := by
  have hword : body.length < 2 ^ 32 := Nat.lt_of_le_of_lt hcap maxPayloadBytes_lt
  obtain ⟨reader₁, hheader, hafter, hending⟩ := Pipe.readExact_append hbytes
  obtain ⟨reader₂, hbody, hrest, hending'⟩ := Pipe.readExact_append hafter
  refine ⟨reader₂, ?_, hrest, hending'.trans hending⟩
  rw [length_writeU32Le] at hheader
  have hlength : ¬ (body.length = 0 ∨ min maxPayloadBytes maxPayloadBytes < body.length) := by
    rw [min_self]
    omega
  unfold readEnvelope readEnvelopeLimited
  refine Outcome.bind_ok.mpr ⟨_, hheader, ?_⟩
  dsimp only
  rw [readU32Le_writeU32Le hword]
  refine Outcome.bind_ok.mpr ⟨(), refuseIf_neg _ hlength, ?_⟩
  refine Outcome.bind_ok.mpr ⟨_, hbody, ?_⟩
  refine Outcome.bind_ok.mpr ⟨e, Outcome.mapError_ok.mpr hread, ?_⟩
  rfl

theorem readEnvelope_frame (he : Readable serde e) (hframe : writeEnvelope e = .ok frame)
    (hbytes : reader.bytes = frame ++ rest) :
    ∃ reader' : Reader, readEnvelope serde reader = .ok (e, reader') ∧ reader'.bytes = rest ∧
      reader'.ending = reader.ending := by
  obtain ⟨hcap, hbody⟩ := writeEnvelope_ok.mp hframe
  rw [← hbody, List.append_assoc] at hbytes
  exact readEnvelope_body (toVec_pos e) hcap hbytes
    (serde.fromSlice_toVec e he.depth he.numbers)

/-- The frames of a list of messages give the list. -/
theorem readMany_frames {es : List Envelope} {frames : List (List UInt8)}
    (hes : ∀ e ∈ es, Readable serde e) (hframes : es.mapM writeEnvelope = .ok frames)
    (hbytes : reader.bytes = frames.flatten ++ rest) :
    ∃ reader' : Reader, readMany serde es.length reader = .ok (es, reader') ∧
      reader'.bytes = rest ∧ reader'.ending = reader.ending := by
  rw [Outcome.mapM_ok] at hframes
  induction hframes generalizing reader with
  | nil => exact ⟨reader, rfl, hbytes, rfl⟩
  | @cons e frame es frames hframe _ ih =>
    rw [List.forall_mem_cons] at hes
    rw [List.flatten_cons, List.append_assoc] at hbytes
    obtain ⟨reader₁, hread, hafter, hending⟩ := readEnvelope_frame hes.1 hframe hbytes
    obtain ⟨reader₂, hmany, hrest, hending'⟩ := ih hes.2 hafter
    refine ⟨reader₂, ?_, hrest, hending'.trans hending⟩
    rw [List.length_cons, readMany, bind_of_ok hread]
    dsimp only
    rw [bind_of_ok hmany]
    rfl

/-- A frame that breaks off gives what the stream ends with. -/
theorem readEnvelope_truncated (hcap : body.length ≤ maxPayloadBytes) (hpos : 0 < body.length)
    {k : ℕ} (hk : k < (writeU32Le body.length ++ body).length)
    (hbytes : reader.bytes = (writeU32Le body.length ++ body).take k) :
    readEnvelope serde reader = .error reader.ending := by
  have hword : body.length < 2 ^ 32 := Nat.lt_of_le_of_lt hcap maxPayloadBytes_lt
  have hcount := congrArg List.length hbytes
  rw [List.length_take, List.length_append, length_writeU32Le] at hcount
  rw [List.length_append, length_writeU32Le] at hk
  unfold readEnvelope readEnvelopeLimited
  by_cases hheader : k < 4
  · exact bind_of_error (Pipe.readExact_short (by omega)) _
  · have hsplit : reader.bytes = writeU32Le body.length ++ body.take (k - 4) := by
      rw [hbytes, List.take_append, length_writeU32Le, List.take_of_length_le]
      rw [length_writeU32Le]
      omega
    obtain ⟨reader₁, hread, hafter, hending⟩ := Pipe.readExact_append hsplit
    rw [length_writeU32Le] at hread
    have hlength : ¬ (body.length = 0 ∨ min maxPayloadBytes maxPayloadBytes < body.length) := by
      rw [min_self]
      omega
    have hshort : reader₁.bytes.length < body.length := by
      rw [hafter, List.length_take]
      omega
    refine (bind_of_ok hread _).trans ?_
    dsimp only
    rw [readU32Le_writeU32Le hword]
    refine (bind_of_ok (refuseIf_neg _ hlength) _).trans ?_
    rw [← hending]
    exact bind_of_error (Pipe.readExact_short hshort) _

/-- A length of zero or beyond the cap is refused before anything else is read. -/
theorem readEnvelope_refused (hn : n < 2 ^ 32) (hbad : n = 0 ∨ maxPayloadBytes < n)
    (hbytes : reader.bytes = writeU32Le n ++ rest) :
    ∃ message, readEnvelope serde reader = .error (.invalidData message) := by
  obtain ⟨reader₁, hread, _, _⟩ := Pipe.readExact_append hbytes
  rw [length_writeU32Le] at hread
  let cap := min maxPayloadBytes maxPayloadBytes
  have hrefused : n = 0 ∨ min maxPayloadBytes maxPayloadBytes < n := by
    rwa [min_self]
  refine ⟨s!"IPC frame payload {n} bytes is outside the allowed nonzero cap of {cap} bytes", ?_⟩
  unfold readEnvelope readEnvelopeLimited
  refine (bind_of_ok hread _).trans ?_
  dsimp only
  rw [readU32Le_writeU32Le hn]
  exact bind_of_error (if_pos hrefused) _

end Frames

section Signing

variable {serde : SerdeJson} {hmac : Hmac} {token : String} {e e' : Envelope}

theorem ofString_ofList (text : List Char) : Bytes.ofString (String.ofList text) = utf8 text := by
  rw [Utf8.ofString_eq, String.toList_ofList]
  rfl

theorem verifyBody_iff {body : List UInt8} {tag : String} :
    verifyBody hmac token body tag = true ↔ signBody hmac token body = tag := by
  unfold verifyBody
  constructor
  · intro h
    dsimp only at h
    split at h
    · exact absurd h (by simp)
    · exact Utf8.ofString_injective (of_decide_eq_true h)
  · intro h
    simp [h]

/-- The bodies that one tag stands for have one hash. -/
theorem hmac_eq_of_signBody {body body' : List UInt8}
    (h : signBody hmac token body = signBody hmac token body') :
    hmac (Bytes.ofString token) body = hmac (Bytes.ofString token) body' :=
  Hex.encode_injective (String.ofList_injective h)

/-- A message that is not signed yet. -/
def Envelope.Unsigned (e : Envelope) : Prop := ∀ m, e ≠ .signed m

theorem sign_unsigned (h : e.Unsigned) : e.sign hmac token =
    .signed ⟨signBody hmac token e.toVec, String.ofList e.toText⟩ := by
  have hbody : Bytes.ofString (String.ofList e.toText) = e.toVec := ofString_ofList e.toText
  rw [← hbody]
  cases e with
  | signed m => exact absurd rfl (h m)
  | _ => rfl

theorem sign_sign (e : Envelope) (token token' : String) :
    (e.sign hmac token).sign hmac token' = e.sign hmac token := by
  cases e <;> rfl

theorem readable_signed (m : SignedEnvelope) : Readable serde (.signed m) where
  depth := by
    have hdepth : (Envelope.signed m).toValue.depth ≤ 0 + 1 := by
      apply Value.depth_object_le.mpr
      intro member hmember
      simp only [List.mem_cons, List.not_mem_nil, or_false] at hmember
      rcases hmember with rfl | rfl | rfl <;> simp
    omega
  numbers := by
    apply Value.AllNumbers.object
    intro member hmember
    simp only [List.mem_cons, List.not_mem_nil, or_false] at hmember
    rcases hmember with rfl | rfl | rfl <;> exact .string _

theorem verifyAndUnwrap_signed (m : SignedEnvelope) :
    (Envelope.signed m).verifyAndUnwrap serde hmac token = .ok e' ↔
      signBody hmac token (Bytes.ofString m.inner) = m.tag ∧
        serde.fromSlice (Bytes.ofString m.inner) = .ok e' := by
  unfold Envelope.verifyAndUnwrap
  dsimp only
  by_cases hverify : verifyBody hmac token (Bytes.ofString m.inner) m.tag = true
  · rw [if_pos hverify, Outcome.mapError_ok]
    exact (and_iff_right (verifyBody_iff.mp hverify)).symm
  · rw [if_neg hverify]
    constructor
    · intro h
      cases h
    · intro h
      exact absurd (verifyBody_iff.mpr h.1) hverify

theorem verifyAndUnwrap_sign (h : e.Unsigned) (he : Readable serde e) :
    (e.sign hmac token).verifyAndUnwrap serde hmac token = .ok e := by
  have hbody : Bytes.ofString (String.ofList e.toText) = e.toVec := ofString_ofList e.toText
  rw [sign_unsigned h, verifyAndUnwrap_signed]
  simp only [hbody]
  exact ⟨trivial, serde.fromSlice_toVec e he.depth he.numbers⟩

/-- What is accepted under the tag of a message is the message, or another text of the same hash. -/
theorem eq_of_verifyAndUnwrap (he : Readable serde e) {inner : String}
    (h : (Envelope.signed ⟨signBody hmac token e.toVec, inner⟩).verifyAndUnwrap serde hmac token =
      .ok e') :
    e' = e ∨ Bytes.ofString inner ≠ e.toVec ∧
      hmac (Bytes.ofString token) (Bytes.ofString inner) =
        hmac (Bytes.ofString token) e.toVec := by
  obtain ⟨htag, hread⟩ := (verifyAndUnwrap_signed _).mp h
  by_cases hsame : Bytes.ofString inner = e.toVec
  · left
    simp only [hsame] at hread
    rw [serde.fromSlice_toVec e he.depth he.numbers] at hread
    exact (Except.ok.inj hread).symm
  · exact .inr ⟨hsame, hmac_eq_of_signBody htag⟩

end Signing

section Claim

/-- What the frames and the signatures of the messages between the processes promise. -/
structure FaithfulCodec (serde : SerdeJson) (hmac : Hmac) : Prop where
  /-- The frames of messages within the cap, read one after another however they are cut, give the
  messages. -/
  frames : ∀ es : List Envelope,
    (∀ e ∈ es, Readable serde e ∧ e.toVec.length ≤ maxPayloadBytes) →
      ∃ frames, es.mapM writeEnvelope = .ok frames ∧
        ∀ (reader : Reader) rest, reader.bytes = frames.flatten ++ rest →
          ∃ reader' : Reader, readMany serde es.length reader = .ok (es, reader') ∧
            reader'.bytes = rest ∧ reader'.ending = reader.ending
  truncated : ∀ (e : Envelope) frame (reader : Reader) k, writeEnvelope e = .ok frame →
    k < frame.length → reader.bytes = frame.take k →
      readEnvelope serde reader = .error reader.ending
  refused : ∀ (reader : Reader) n rest, n < 2 ^ 32 → n = 0 ∨ maxPayloadBytes < n →
    reader.bytes = writeU32Le n ++ rest →
      ∃ message, readEnvelope serde reader = .error (.invalidData message)
  /-- A message is read from the bytes behind their length only. -/
  sound : ∀ (reader reader' : Reader) e, readEnvelope serde reader = .ok (e, reader') →
    ∃ body, 0 < body.length ∧ body.length ≤ maxPayloadBytes ∧
      reader.bytes = writeU32Le body.length ++ body ++ reader'.bytes ∧
      serde.fromSlice body = .ok e
  signed : ∀ (e : Envelope) token frame (reader : Reader), e.Unsigned → Readable serde e →
    writeEnvelope (e.sign hmac token) = .ok frame → reader.bytes = frame →
      ∃ s reader', readEnvelope serde reader = .ok (s, reader') ∧
        s.verifyAndUnwrap serde hmac token = .ok e
  signedTwice : ∀ (e : Envelope) token token',
    (e.sign hmac token).sign hmac token' = e.sign hmac token
  /-- Under the tag of a message only the message is accepted, unless another text has its hash. -/
  tampered : ∀ (e e' : Envelope) token inner, Readable serde e →
    (Envelope.signed ⟨signBody hmac token e.toVec, inner⟩).verifyAndUnwrap serde hmac token =
      .ok e' →
      e' = e ∨ Bytes.ofString inner ≠ e.toVec ∧
        hmac (Bytes.ofString token) (Bytes.ofString inner) =
          hmac (Bytes.ofString token) e.toVec

/-- For the messages that the reader of their texts gives back, the frames and the signatures keep
their promises. -/
theorem ipc_framing (serde : SerdeJson) (hmac : Hmac) : FaithfulCodec serde hmac where
  frames := by
    intro es hes
    have hframes : es.mapM writeEnvelope =
        .ok (es.map fun e => writeU32Le e.toVec.length ++ e.toVec) := by
      rw [Outcome.mapM_ok, List.forall₂_map_right_iff]
      apply List.forall₂_same.mpr
      intro e he
      exact writeEnvelope_ok.mpr ⟨(hes e he).2, rfl⟩
    refine ⟨_, hframes, ?_⟩
    intro reader rest hbytes
    exact readMany_frames (fun e he => (hes e he).1) hframes hbytes
  truncated := by
    intro e frame reader k hframe hk hbytes
    obtain ⟨hcap, hbody⟩ := writeEnvelope_ok.mp hframe
    rw [← hbody] at hk hbytes
    exact readEnvelope_truncated hcap (toVec_pos e) hk hbytes
  refused := by
    intro reader n rest hn hbad hbytes
    exact readEnvelope_refused hn hbad hbytes
  sound := by
    intro reader reader' e h
    exact readEnvelope_ok h
  signed := by
    intro e token frame reader hunsigned he hframe hbytes
    rw [sign_unsigned hunsigned] at hframe
    rw [← List.append_nil frame] at hbytes
    obtain ⟨reader', hread, _, _⟩ := readEnvelope_frame (readable_signed _) hframe hbytes
    refine ⟨_, reader', hread, ?_⟩
    rw [← sign_unsigned hunsigned]
    exact verifyAndUnwrap_sign hunsigned he
  signedTwice := sign_sign
  tampered := by
    intro e e' token inner he h
    exact eq_of_verifyAndUnwrap he h

/-- A reader that keeps all numbers and gives back every message that is not too deep. -/
noncomputable def idealSerde : SerdeJson where
  keeps _ := True
  keeps_integer _ _ := trivial
  fromSlice bytes :=
    open Classical in
    if h : ∃ e : Envelope, e.toValue.depth ≤ 127 ∧ e.toVec = bytes then .ok h.choose
    else .error "recursion limit exceeded"
  fromSlice_toVec := by
    intro e hdepth _
    have hex : ∃ f : Envelope, f.toValue.depth ≤ 127 ∧ f.toVec = e.toVec := ⟨e, hdepth, rfl⟩
    rw [dif_pos hex, toVec_injective hex.choose_spec.2]
  fromSlice_deep := by
    intro e hdeep
    refine ⟨"recursion limit exceeded", dif_neg ?_⟩
    intro hex
    obtain ⟨f, hdepth, hf⟩ := hex
    rw [toVec_injective hf] at hdepth
    omega

theorem depth_of_idealSerde {bytes : List UInt8} {e : Envelope}
    (h : idealSerde.fromSlice bytes = .ok e) : e.toValue.depth ≤ 127 := by
  unfold idealSerde at h
  dsimp only at h
  split at h
  · next hex =>
    rw [← Except.ok.inj h]
    exact hex.choose_spec.1
  · cases h

/-- Arrays inside one another. -/
def nested : ℕ → Value
  | 0 => .null
  | n + 1 => .array [nested n]

def nestedValue (n : ℕ) : JsonValue where
  value := nested n
  uniqueKeys := by
    induction n with
    | zero => exact .null
    | succ n ih =>
      apply Value.UniqueKeys.array
      intro v hv
      rw [List.mem_singleton.mp hv]
      exact ih
  tokens := by
    induction n with
    | zero => exact .null
    | succ n ih =>
      apply Value.AllNumbers.array
      intro v hv
      rw [List.mem_singleton.mp hv]
      exact ih

/-- A result of 127 arrays inside one another is written and not read back. -/
theorem ipc_framing_deep : ¬ ∀ (serde : SerdeJson) (es : List Envelope),
    (∀ e ∈ es, e.toVec.length ≤ maxPayloadBytes) →
      ∃ frames, es.mapM writeEnvelope = .ok frames ∧
        ∀ (reader : Reader) rest, reader.bytes = frames.flatten ++ rest →
          ∃ reader' : Reader, readMany serde es.length reader = .ok (es, reader') := by
  intro h
  have hlength : (Envelope.response ⟨1, nestedValue 127⟩).toVec.length ≤ maxPayloadBytes := by
    unfold maxPayloadBytes
    decide +kernel
  have hdeep : 127 < (Envelope.response ⟨1, nestedValue 127⟩).toValue.depth := by
    decide +kernel
  generalize Envelope.response ⟨1, nestedValue 127⟩ = e at hlength hdeep
  have hcap : ∀ f ∈ [e], f.toVec.length ≤ maxPayloadBytes := by
    intro f hf
    rw [List.mem_singleton.mp hf]
    exact hlength
  obtain ⟨frames, _, hread⟩ := h idealSerde [e] hcap
  have hchunk : frames.flatten ++ [0] ≠ [] := by simp
  obtain ⟨reader', hmany⟩ := hread ⟨[⟨frames.flatten ++ [0], hchunk⟩], .unexpectedEof⟩ [0]
    (List.append_nil _)
  obtain ⟨⟨f, reader₁⟩, hone, hmany⟩ := Outcome.bind_ok.mp hmany
  obtain ⟨⟨fs, reader₂⟩, _, hmany⟩ := Outcome.bind_ok.mp hmany
  have hfirst : f = e := (List.cons.inj (Prod.mk.inj (Outcome.pure_ok.mp hmany)).1).1
  obtain ⟨body, _, _, _, hbody⟩ := readEnvelope_ok hone
  have hdepth := depth_of_idealSerde hbody
  rw [hfirst] at hdepth
  omega

end Claim

end Ipc
