import Mathlib
import WinCommander.Library.Base64Url
import WinCommander.Library.Codec
import WinCommander.Library.Outcome

/-!
# The retry state of a device release

A release request is sealed into an anchor before it is sent, and the sealed state is replaced when
the server has confirmed the release and when it has confirmed its acknowledgement.
-/

namespace DeviceRelease

open Outcome

/-- Every failure has one text, except that a busy server asks for a later try. -/
inductive Fault where
  | invalid
  | retryLater
  deriving DecidableEq

def limit : ℕ := 64 * 1024

def requestLimit : ℕ := 16 * 1024

def responseLimit : ℕ := 4096

def maxSafeInteger : ℕ := 9007199254740991

abbrev Fixed := { bytes : List UInt8 // bytes.length = 32 }

structure Binding where
  licenceId : String
  deviceHash : String
  issuerOrigin : String

structure ConfirmedCredential where
  id : Fixed
  secret : Fixed

/-- What an operation on the anchor finds current: the binding, the device credential and the body
of the verified licence. -/
structure Context where
  binding : Binding
  credential : ConfirmedCredential
  body : List UInt8

structure Record where
  version : UInt8
  sealed : String
  deriving DecidableEq

structure ConfirmedRecord where
  phase : String
  request : String
  deriving DecidableEq

structure StoredReleaseRequest where
  oldRequest : String
  credentialId : String
  nonce : String
  requestDigest : String
  expiresAt : UInt64
  proof : String
  deriving DecidableEq

structure ChallengeResponse where
  ok : Bool
  credentialId : String
  nonce : String
  requestDigest : String
  expiresAt : UInt64

/-- A challenge of a release.  The operation it is for is always a deactivation. -/
structure Challenge where
  credentialId : Fixed
  nonce : Fixed
  requestDigest : Fixed
  expiresAt : UInt64

structure SavedRelease where
  request : List UInt8
  confirmed : Bool
  acknowledged : Bool
  deriving DecidableEq

/-- Hashing, sealing, device proofs and the JSON forms.  The hash is free of collisions, and sealing
is authenticated and bound to its entropy. -/
structure Custody where
  digest : List UInt8 → Fixed
  digest_injective : Function.Injective digest
  entropyWire : Binding → Fixed → Fixed → List UInt8
  protect : List UInt8 → Fixed → Option (List UInt8)
  unprotect : List UInt8 → Fixed → Option (List UInt8)
  unprotect_protect : ∀ {plaintext entropy sealed},
    protect plaintext entropy = some sealed → unprotect sealed entropy = some plaintext
  unprotect_bound : ∀ {sealed entropy entropy' plaintext plaintext'},
    unprotect sealed entropy = some plaintext → unprotect sealed entropy' = some plaintext' →
      plaintext = plaintext'
  sign : Fixed → Challenge → Fixed
  signReleaseAcknowledgement : Fixed → Challenge → Fixed
  record : Codec Record
  confirmedRecord : Codec ConfirmedRecord
  storedRequest : Codec StoredReleaseRequest
  challengeResponse : List UInt8 → Option ChallengeResponse
  releaseResponse : List UInt8 → Option Bool

variable (custody : Custody)

section Wire

def encodeText (bytes : List UInt8) : String := String.ofList (Base64Url.encode bytes)

/-- Text that is exactly the encoding of its bytes. -/
def decodeExact (text : String) : Except Fault (List UInt8) := do
  let bytes ← okOr (Base64Url.decode text.toList) .invalid
  refuseIf (encodeText bytes ≠ text) .invalid
  pure bytes

def fixed (text : String) : Except Fault Fixed := do
  refuseIf (text.utf8ByteSize ≠ 43) .invalid
  let bytes ← okOr (Base64Url.decode text.toList) .invalid
  if h : bytes.length = 32 then do
    refuseIf (encodeText bytes ≠ text) .invalid
    pure ⟨bytes, h⟩
  else .error .invalid

/-- The challenge that a stored request answers. -/
def requestChallenge (value : StoredReleaseRequest) : Except Fault (Challenge × Fixed) := do
  let id ← fixed value.credentialId
  let nonce ← fixed value.nonce
  let digest ← fixed value.requestDigest
  let proof ← fixed value.proof
  pure (⟨id, nonce, digest, value.expiresAt⟩, proof)

/-- The parsed form of a request that stands in its canonical bytes. -/
def canonicalRequest (request : List UInt8) : Except Fault StoredReleaseRequest := do
  let value ← okOr (custody.storedRequest.fromSlice request) .invalid
  let canonical ← okOr (custody.storedRequest.toVec value) .invalid
  refuseIf (maxSafeInteger < value.expiresAt.toNat ∨ canonical ≠ request) .invalid
  pure value

/-- The challenge of a stored request need not be live any more. -/
def verifyStoredReleaseRequest (credential : ConfirmedCredential) (expectedBody request : List UInt8) :
    Except Fault Unit := do
  refuseIf (expectedBody = [] ∨ requestLimit < expectedBody.length ∨ request = [] ∨
    32 * 1024 < request.length) .invalid
  let value ← canonicalRequest custody request
  let body ← decodeExact value.oldRequest
  refuseIf (body ≠ expectedBody) .invalid
  let parts ← requestChallenge value
  refuseIf (parts.1.credentialId ≠ credential.id ∨
    custody.digest expectedBody ≠ parts.1.requestDigest) .invalid
  refuseIf (custody.sign credential.secret parts.1 ≠ parts.2) .invalid

def releaseAcknowledgementRequest (credential : ConfirmedCredential)
    (expectedBody request : List UInt8) : Except Fault (List UInt8) := do
  verifyStoredReleaseRequest custody credential expectedBody request
  let value ← okOr (custody.storedRequest.fromSlice request) .invalid
  let id ← fixed value.credentialId
  let nonce ← fixed value.nonce
  let digest ← fixed value.requestDigest
  let ack := custody.signReleaseAcknowledgement credential.secret ⟨id, nonce, digest, value.expiresAt⟩
  okOr (custody.storedRequest.toVec { value with proof := encodeText ack.val }) .invalid

def confirmedRelease (response : List UInt8) : Except Fault Unit := do
  refuseIf (response = [] ∨ responseLimit < response.length) .invalid
  let ok ← okOr (custody.releaseResponse response) .invalid
  refuseIf (ok = false) .invalid

/-- A release request answers a challenge of the server. -/
def releaseRequest (credential : ConfirmedCredential) (body response : List UInt8) (now : UInt64) :
    Except Fault (List UInt8) := do
  refuseIf (response = [] ∨ responseLimit < response.length) .invalid
  let challenge ← okOr (custody.challengeResponse response) .invalid
  refuseIf (challenge.ok = false ∨ maxSafeInteger < challenge.expiresAt.toNat) .invalid
  let id ← fixed challenge.credentialId
  let nonce ← fixed challenge.nonce
  let digest ← fixed challenge.requestDigest
  refuseIf (credential.id ≠ id ∨ challenge.expiresAt ≤ now ∨
    min (now.toNat + 180) (2 ^ 64 - 1) < challenge.expiresAt.toNat ∨ body = [] ∨
    16 * 1024 < body.length) .invalid
  refuseIf (custody.digest body ≠ digest) .invalid
  let tag := custody.sign credential.secret ⟨id, nonce, digest, challenge.expiresAt⟩
  okOr (custody.storedRequest.toVec {
    oldRequest := encodeText body
    credentialId := challenge.credentialId
    nonce := challenge.nonce
    requestDigest := challenge.requestDigest
    expiresAt := challenge.expiresAt
    proof := encodeText tag.val }) .invalid

end Wire

section Records

def bindingField (field : String) : Bool := !(field = "" || 512 < field.utf8ByteSize)

def releaseEntropy (ctx : Context) : Except Fault Fixed := do
  refuseIf (!(bindingField ctx.binding.licenceId && bindingField ctx.binding.deviceHash &&
    bindingField ctx.binding.issuerOrigin)) .invalid
  pure (custody.digest (custody.entropyWire ctx.binding ctx.credential.id (custody.digest ctx.body)))

/-- The plaintext of a second-version record names its phase. -/
def openConfirmed (plaintext : List UInt8) : Except Fault SavedRelease := do
  let value ← okOr (custody.confirmedRecord.fromSlice plaintext) .invalid
  refuseIf (¬ (value.phase = "confirmed" ∨ value.phase = "acknowledged") ∨
    limit < value.request.utf8ByteSize) .invalid
  let request ← decodeExact value.request
  pure ⟨request, true, value.phase = "acknowledged"⟩

def openPlaintext (version : UInt8) (plaintext : List UInt8) : Except Fault SavedRelease :=
  if version = 1 then .ok ⟨plaintext, false, false⟩ else openConfirmed custody plaintext

/-- What stands in the anchor under a context. -/
def openRecord (ctx : Context) (bytes : List UInt8) : Except Fault SavedRelease := do
  refuseIf (limit < bytes.length) .invalid
  let record ← okOr (custody.record.fromSlice bytes) .invalid
  refuseIf (¬ (record.version = 1 ∨ record.version = 2) ∨ record.sealed = "" ∨
    limit < record.sealed.utf8ByteSize) .invalid
  let sealed ← decodeExact record.sealed
  let entropy ← releaseEntropy custody ctx
  let plaintext ← okOr (custody.unprotect sealed entropy) .invalid
  let saved ← openPlaintext custody record.version plaintext
  verifyStoredReleaseRequest custody ctx.credential ctx.body saved.request
  pure saved

/-- The bytes that hold a plaintext under a context. -/
def sealRecord (ctx : Context) (version : UInt8) (plaintext : List UInt8) :
    Except Fault (List UInt8) := do
  let entropy ← releaseEntropy custody ctx
  let sealed ← okOr (custody.protect plaintext entropy) .invalid
  refuseIf (sealed = [] ∨ limit / 2 < sealed.length) .invalid
  let bytes ← okOr (custody.record.toVec ⟨version, encodeText sealed⟩) .invalid
  refuseIf (limit < bytes.length) .invalid
  pure bytes

def confirmedPlaintext (phase : String) (request : List UInt8) : Except Fault (List UInt8) :=
  okOr (custody.confirmedRecord.toVec ⟨phase, encodeText request⟩) .invalid

end Records

section Anchor

/-- How the anchor behaves in one operation: whether it can be read, whether a write succeeds and,
if not, whether the value was stored all the same, and whether it can be read again. -/
structure Io where
  readable : Bool
  written : Bool
  kept : Bool
  rereadable : Bool

def loadLocked (ctx : Context) (readable : Bool) (stored : Option (List UInt8)) :
    Except Fault (Option SavedRelease) :=
  if readable = false then .error .invalid
  else
    match stored with
    | none => .ok none
    | some bytes => (openRecord custody ctx bytes).map some

/-- The anchor after a write, and whether the write is reported as done. -/
def Io.write (io : Io) (stored : Option (List UInt8)) (bytes : List UInt8) :
    Bool × Option (List UInt8) :=
  (io.written, if io.written || io.kept then some bytes else stored)

/-- Write a record and read it back. -/
def writeRecord (ctx : Context) (io : Io) (stored : Option (List UInt8)) (bytes : List UInt8)
    (expected : SavedRelease → Bool) : Except Fault SavedRelease × Option (List UInt8) :=
  let stored' := (io.write stored bytes).2
  if io.written = false then (.error .invalid, stored')
  else
    match loadLocked custody ctx io.rereadable stored' with
    | .ok (some reopened) =>
      (if expected reopened then .ok reopened else .error .invalid, stored')
    | _ => (.error .invalid, stored')

def saveLocked (ctx : Context) (io : Io) (stored : Option (List UInt8)) (request : List UInt8) :
    Except Fault (List UInt8) × Option (List UInt8) :=
  match verifyStoredReleaseRequest custody ctx.credential ctx.body request with
  | .error e => (.error e, stored)
  | .ok () =>
    match loadLocked custody ctx io.readable stored with
    | .error e => (.error e, stored)
    | .ok (some existing) =>
      (if existing.request = request then .ok existing.request else .error .invalid, stored)
    | .ok none =>
      match sealRecord custody ctx 1 request with
      | .error e => (.error e, stored)
      | .ok bytes =>
        let saved := writeRecord custody ctx io stored bytes fun reopened =>
          !reopened.confirmed && reopened.request = request
        (saved.1.map SavedRelease.request, saved.2)

/-- Replace the state by a later phase of the same request. -/
def saveConfirmedPhase (ctx : Context) (io : Io) (stored : Option (List UInt8))
    (request : List UInt8) (acknowledged : Bool) : Except Fault Unit × Option (List UInt8) :=
  match confirmedPlaintext custody (if acknowledged then "acknowledged" else "confirmed") request with
  | .error e => (.error e, stored)
  | .ok plaintext =>
    match sealRecord custody ctx 2 plaintext with
    | .error e => (.error e, stored)
    | .ok bytes =>
      let saved := writeRecord custody ctx io stored bytes fun reopened =>
        reopened.confirmed && reopened.acknowledged == acknowledged && reopened.request = request
      (saved.1.map fun _ => (), saved.2)

def confirmLocked (ctx : Context) (io : Io) (stored : Option (List UInt8))
    (request response : List UInt8) : Except Fault Unit × Option (List UInt8) :=
  match confirmedRelease custody response with
  | .error e => (.error e, stored)
  | .ok () =>
    match loadLocked custody ctx io.readable stored with
    | .ok (some saved) =>
      if saved.request ≠ request then (.error .invalid, stored)
      else if saved.confirmed then (.ok (), stored)
      else saveConfirmedPhase custody ctx io stored request false
    | .ok none => (.error .invalid, stored)
    | .error e => (.error e, stored)

/-- A confirmation is the digest of the acknowledgement that was sent. -/
def acknowledgeLocked (ctx : Context) (io : Io) (stored : Option (List UInt8))
    (request : List UInt8) (confirmation : Fixed) : Except Fault Unit × Option (List UInt8) :=
  match loadLocked custody ctx io.readable stored with
  | .ok (some saved) =>
    if saved.confirmed = false ∨ saved.request ≠ request then (.error .invalid, stored)
    else
      match releaseAcknowledgementRequest custody ctx.credential ctx.body request with
      | .error e => (.error e, stored)
      | .ok acknowledgement =>
        if confirmation ≠ custody.digest acknowledgement then (.error .invalid, stored)
        else if saved.acknowledged then (.ok (), stored)
        else saveConfirmedPhase custody ctx io stored request true
  | .ok none => (.error .invalid, stored)
  | .error e => (.error e, stored)

/-- No acknowledgement is generated until the confirmed state exists. -/
def prepareAckLocked (ctx : Context) (readable : Bool) (stored : Option (List UInt8)) :
    Except Fault (List UInt8) :=
  match loadLocked custody ctx readable stored with
  | .ok (some saved) =>
    if saved.confirmed = false then .error .invalid
    else releaseAcknowledgementRequest custody ctx.credential ctx.body saved.request
  | .ok none => .error .invalid
  | .error e => .error e

end Anchor

section Texts

theorem utf8ByteSize_ofList {text : List Char} (h : ∀ c ∈ text, c.utf8Size = 1) :
    (String.ofList text).utf8ByteSize = text.length := by
  induction text with
  | nil => rfl
  | cons c text ih =>
    rw [List.forall_mem_cons] at h
    rw [String.ofList_cons, String.utf8ByteSize_append, String.utf8ByteSize_singleton, ih h.2, h.1,
      List.length_cons]
    omega

theorem utf8ByteSize_encodeText (bytes : List UInt8) :
    3 * (encodeText bytes).utf8ByteSize ≤ 4 * bytes.length + 2 := by
  rw [encodeText, utf8ByteSize_ofList (Base64Url.utf8Size_of_mem_encode bytes)]
  exact Base64Url.length_encode bytes

theorem encodeText_ne_empty {bytes : List UInt8} (h : bytes ≠ []) : encodeText bytes ≠ "" := by
  intro hempty
  have hlist := congrArg String.toList hempty
  rw [encodeText, String.toList_ofList] at hlist
  exact Base64Url.encode_ne_nil h hlist

theorem decodeExact_encodeText (bytes : List UInt8) : decodeExact (encodeText bytes) = .ok bytes := by
  have hdecode : Base64Url.decode (encodeText bytes).toList = some bytes := by
    rw [encodeText, String.toList_ofList, Base64Url.decode_encode]
  simp [decodeExact, hdecode, refuseIf, pure, Except.pure, bind, Except.bind]

end Texts

section Opens

variable {custody}

theorem verify_length {credential : ConfirmedCredential} {body request : List UInt8}
    (h : verifyStoredReleaseRequest custody credential body request = .ok ()) :
    request.length ≤ 32 * 1024 := by
  unfold verifyStoredReleaseRequest at h
  obtain ⟨_, hbounds, _⟩ := bind_ok.mp h
  rw [refuseIf_ok] at hbounds
  omega

/-- What an opened record went through. -/
theorem openRecord_ok {ctx : Context} {bytes : List UInt8} {saved : SavedRelease} :
    openRecord custody ctx bytes = .ok saved ↔
      bytes.length ≤ limit ∧ ∃ record sealed entropy plaintext,
        custody.record.fromSlice bytes = some record ∧
        (record.version = 1 ∨ record.version = 2) ∧ record.sealed ≠ "" ∧
        record.sealed.utf8ByteSize ≤ limit ∧ decodeExact record.sealed = .ok sealed ∧
        releaseEntropy custody ctx = .ok entropy ∧ custody.unprotect sealed entropy = some plaintext ∧
        openPlaintext custody record.version plaintext = .ok saved ∧
        verifyStoredReleaseRequest custody ctx.credential ctx.body saved.request = .ok () := by
  simp only [openRecord, bind_ok, refuseIf_ok, okOr_ok, pure_ok, not_lt, not_or, not_and_or, not_not]
  constructor
  · rintro ⟨_, hlength, record, hrecord, _, hvalid, sealed, hsealed, entropy, hentropy, plaintext,
      hplain, saved', hsaved, _, hverify, rfl⟩
    exact ⟨hlength, record, sealed, entropy, plaintext, hrecord, hvalid.1, hvalid.2.1, hvalid.2.2,
      hsealed, hentropy, hplain, hsaved, hverify⟩
  · rintro ⟨hlength, record, sealed, entropy, plaintext, hrecord, hversion, hne, hsize, hsealed,
      hentropy, hplain, hsaved, hverify⟩
    exact ⟨(), hlength, record, hrecord, (), ⟨hversion, hne, hsize⟩, sealed, hsealed, entropy, hentropy,
      plaintext, hplain, saved, hsaved, (), hverify, rfl⟩

/-- A record opens to one state, whatever the context. -/
theorem openRecord_unique {ctx ctx' : Context} {bytes : List UInt8} {saved saved' : SavedRelease}
    (h : openRecord custody ctx bytes = .ok saved) (h' : openRecord custody ctx' bytes = .ok saved') :
    saved = saved' := by
  obtain ⟨_, record, sealed, entropy, plaintext, hrecord, _, _, _, hsealed, _, hplain, hsaved, _⟩ :=
    openRecord_ok.mp h
  obtain ⟨_, record', sealed', entropy', plaintext', hrecord', _, _, _, hsealed', _, hplain', hsaved',
    _⟩ := openRecord_ok.mp h'
  have hsame : record = record' := by simpa [hrecord] using hrecord'
  subst hsame
  have hseal : sealed = sealed' := by simpa [hsealed] using hsealed'
  subst hseal
  have hplaintext := custody.unprotect_bound hplain hplain'
  subst hplaintext
  simpa [hsaved] using hsaved'

/-- What is sealed under a context opens under it. -/
theorem openRecord_sealRecord {ctx : Context} {version : UInt8} {plaintext bytes : List UInt8}
    {saved : SavedRelease} (hversion : version = 1 ∨ version = 2)
    (h : sealRecord custody ctx version plaintext = .ok bytes)
    (hplain : openPlaintext custody version plaintext = .ok saved)
    (hverify : verifyStoredReleaseRequest custody ctx.credential ctx.body saved.request = .ok ()) :
    openRecord custody ctx bytes = .ok saved := by
  simp only [sealRecord, bind_ok, refuseIf_ok, okOr_ok, pure_ok, not_lt, not_or] at h
  obtain ⟨entropy, hentropy, sealed, hsealed, _, hsize, bytes', hbytes, _, hlength, rfl⟩ := h
  have hsmall := utf8ByteSize_encodeText sealed
  have hbound : (encodeText sealed).utf8ByteSize ≤ limit := by
    have hhalf : sealed.length ≤ limit / 2 := hsize.2
    unfold limit at hhalf ⊢
    omega
  exact openRecord_ok.mpr ⟨hlength, ⟨version, encodeText sealed⟩, sealed, entropy, plaintext,
    custody.record.fromSlice_toVec hbytes, hversion, encodeText_ne_empty hsize.1, hbound,
    decodeExact_encodeText sealed, hentropy, custody.unprotect_protect hsealed, hplain, hverify⟩

/-- The plaintext of a phase opens to that phase of its request. -/
theorem openPlaintext_confirmed {request plaintext : List UInt8} {acknowledged : Bool}
    (hlength : request.length ≤ 32 * 1024)
    (h : confirmedPlaintext custody (if acknowledged then "acknowledged" else "confirmed") request =
      .ok plaintext) :
    openPlaintext custody 2 plaintext = .ok ⟨request, true, acknowledged⟩ := by
  rw [confirmedPlaintext, okOr_ok] at h
  have hvalue := custody.confirmedRecord.fromSlice_toVec h
  have hsmall := utf8ByteSize_encodeText request
  have hbound : (encodeText request).utf8ByteSize ≤ limit := by
    unfold limit
    omega
  have hopen : openConfirmed custody plaintext = .ok ⟨request, true, acknowledged⟩ := by
    simp only [openConfirmed, bind_ok, okOr_ok, refuseIf_ok, pure_ok]
    refine ⟨_, hvalue, (), ?_, request, decodeExact_encodeText request, ?_⟩
    · cases acknowledged <;> simp [hbound]
    · cases acknowledged <;> simp
  exact hopen

end Opens

section Operations

variable {custody} {ctx : Context} {io : Io} {stored : Option (List UInt8)}

/-- A state that stands in the anchor. -/
def Stands (custody : Custody) (stored : Option (List UInt8)) (saved : SavedRelease) : Prop :=
  ∃ ctx bytes, stored = some bytes ∧ openRecord custody ctx bytes = .ok saved

theorem Stands.unique {saved saved' : SavedRelease} (h : Stands custody stored saved)
    (h' : Stands custody stored saved') : saved = saved' := by
  obtain ⟨ctx, bytes, rfl, hopen⟩ := h
  obtain ⟨ctx', bytes', hbytes, hopen'⟩ := h'
  rw [Option.some.injEq] at hbytes
  subst hbytes
  exact openRecord_unique hopen hopen'

theorem loadLocked_some {readable : Bool} {saved : SavedRelease}
    (h : loadLocked custody ctx readable stored = .ok (some saved)) : Stands custody stored saved := by
  unfold loadLocked at h
  split at h
  · exact absurd h (by simp)
  · cases stored with
    | none => exact absurd h (by simp)
    | some bytes =>
      dsimp only at h
      cases hopen : openRecord custody ctx bytes with
      | error e => simp [hopen, Except.map] at h
      | ok saved' =>
        have hsame : saved' = saved := by simpa [hopen, Except.map] using h
        subst hsame
        exact ⟨ctx, bytes, rfl, hopen⟩

theorem loadLocked_verified {readable : Bool} {saved : SavedRelease}
    (h : loadLocked custody ctx readable stored = .ok (some saved)) :
    verifyStoredReleaseRequest custody ctx.credential ctx.body saved.request = .ok () := by
  unfold loadLocked at h
  split at h
  · exact absurd h (by simp)
  · cases stored with
    | none => exact absurd h (by simp)
    | some bytes =>
      dsimp only at h
      cases hopen : openRecord custody ctx bytes with
      | error e => simp [hopen, Except.map] at h
      | ok saved' =>
        have hsame : saved' = saved := by simpa [hopen, Except.map] using h
        subst hsame
        obtain ⟨_, _, _, _, _, _, _, _, _, _, _, _, _, hverify⟩ := openRecord_ok.mp hopen
        exact hverify

theorem loadLocked_none {readable : Bool} (h : loadLocked custody ctx readable stored = .ok none) :
    stored = none := by
  unfold loadLocked at h
  split at h
  · exact absurd h (by simp)
  · cases stored with
    | none => rfl
    | some bytes =>
      dsimp only at h
      cases hopen : openRecord custody ctx bytes with
      | error e => simp [hopen, Except.map] at h
      | ok saved => simp [hopen, Except.map] at h

/-- A write leaves the anchor as it was or with the new record; when it is reported, the record was
read back as expected. -/
theorem writeRecord_spec (custody : Custody) (ctx : Context) (io : Io)
    (stored : Option (List UInt8)) (bytes : List UInt8) (expected : SavedRelease → Bool) :
    ((writeRecord custody ctx io stored bytes expected).2 = stored ∨
        (writeRecord custody ctx io stored bytes expected).2 = some bytes) ∧
      ∀ reopened, (writeRecord custody ctx io stored bytes expected).1 = .ok reopened →
        Stands custody (writeRecord custody ctx io stored bytes expected).2 reopened ∧
          expected reopened = true := by
  have hwrite : (io.write stored bytes).2 = stored ∨ (io.write stored bytes).2 = some bytes := by
    unfold Io.write
    by_cases h : (io.written || io.kept) = true
    · exact Or.inr (by simp [h])
    · exact Or.inl (by simp [h])
  unfold writeRecord
  by_cases hwritten : io.written = false
  · simp only [hwritten, if_true]
    exact ⟨hwrite, fun _ h => absurd h (by simp)⟩
  · simp only [hwritten]
    cases hload : loadLocked custody ctx io.rereadable (io.write stored bytes).2 with
    | error e => exact ⟨hwrite, fun _ h => absurd h (by simp)⟩
    | ok found =>
      cases found with
      | none => exact ⟨hwrite, fun _ h => absurd h (by simp)⟩
      | some saved =>
        refine ⟨hwrite, ?_⟩
        intro reopened h
        by_cases hexpected : expected saved = true
        · have hsame : saved = reopened := by simpa [hexpected] using h
          subst hsame
          exact ⟨loadLocked_some hload, hexpected⟩
        · simp [hexpected] at h

/-- Staging keeps what stands, or puts the request where nothing was. -/
theorem saveLocked_spec (request : List UInt8) :
    ((saveLocked custody ctx io stored request).2 = stored ∨
        (stored = none ∧
          Stands custody (saveLocked custody ctx io stored request).2 ⟨request, false, false⟩)) ∧
      ∀ staged, (saveLocked custody ctx io stored request).1 = .ok staged →
        ∃ saved, Stands custody (saveLocked custody ctx io stored request).2 saved ∧
          saved.request = staged := by
  unfold saveLocked
  cases hverify : verifyStoredReleaseRequest custody ctx.credential ctx.body request with
  | error e => exact ⟨Or.inl rfl, fun _ h => absurd h (by simp)⟩
  | ok u =>
    cases hload : loadLocked custody ctx io.readable stored with
    | error e => exact ⟨Or.inl rfl, fun _ h => absurd h (by simp)⟩
    | ok found =>
      cases found with
      | some existing =>
        refine ⟨Or.inl rfl, ?_⟩
        intro staged h
        by_cases hsame : existing.request = request
        · have hstaged : existing.request = staged := by simpa [hsame] using h
          exact ⟨existing, loadLocked_some hload, hstaged⟩
        · simp [hsame] at h
      | none =>
        have hnone := loadLocked_none hload
        cases hseal : sealRecord custody ctx 1 request with
        | error e => exact ⟨Or.inl rfl, fun _ h => absurd h (by simp)⟩
        | ok bytes =>
          have hopen : openRecord custody ctx bytes = .ok ⟨request, false, false⟩ :=
            openRecord_sealRecord (Or.inl rfl) hseal rfl hverify
          have hwrite := writeRecord_spec custody ctx io stored bytes fun reopened =>
            !reopened.confirmed && reopened.request = request
          dsimp only
          constructor
          · rcases hwrite.1 with hkept | hstored
            · exact Or.inl hkept
            · exact Or.inr ⟨hnone, ctx, bytes, hstored, hopen⟩
          · intro staged h
            obtain ⟨reopened, hreopened, hstaged⟩ := map_eq_ok.mp h
            exact ⟨reopened, (hwrite.2 reopened hreopened).1, hstaged⟩

/-- Replacing the state keeps what stands, or puts the later phase there. -/
theorem saveConfirmedPhase_spec {request : List UInt8} {acknowledged : Bool}
    (hverify : verifyStoredReleaseRequest custody ctx.credential ctx.body request = .ok ()) :
    (saveConfirmedPhase custody ctx io stored request acknowledged).2 = stored ∨
      Stands custody (saveConfirmedPhase custody ctx io stored request acknowledged).2
        ⟨request, true, acknowledged⟩ := by
  unfold saveConfirmedPhase
  cases hplain : confirmedPlaintext custody
      (if acknowledged then "acknowledged" else "confirmed") request with
  | error e => exact Or.inl rfl
  | ok plaintext =>
    dsimp only
    cases hseal : sealRecord custody ctx 2 plaintext with
    | error e => exact Or.inl rfl
    | ok bytes =>
      have hopen : openRecord custody ctx bytes = .ok ⟨request, true, acknowledged⟩ :=
        openRecord_sealRecord (Or.inr rfl) hseal
          (openPlaintext_confirmed (verify_length hverify) hplain) hverify
      have hwrite := writeRecord_spec custody ctx io stored bytes fun reopened =>
        reopened.confirmed && reopened.acknowledged == acknowledged && reopened.request = request
      rcases hwrite.1 with hkept | hstored
      · exact Or.inl hkept
      · exact Or.inr ⟨ctx, bytes, hstored, hopen⟩

/-- Only a staged request becomes confirmed. -/
theorem confirmLocked_spec (request response : List UInt8) :
    (confirmLocked custody ctx io stored request response).2 = stored ∨
      ∃ saved, Stands custody stored saved ∧ saved.confirmed = false ∧
        Stands custody (confirmLocked custody ctx io stored request response).2
          ⟨saved.request, true, false⟩ := by
  unfold confirmLocked
  cases confirmedRelease custody response with
  | error e => exact Or.inl rfl
  | ok u =>
    dsimp only
    cases hload : loadLocked custody ctx io.readable stored with
    | error e => exact Or.inl rfl
    | ok found =>
      cases found with
      | none => exact Or.inl rfl
      | some saved =>
        by_cases hrequest : saved.request = request
        · subst hrequest
          cases hconfirmed : saved.confirmed with
          | true => exact Or.inl (by simp [hconfirmed])
          | false =>
            have hverify := loadLocked_verified hload
            simp only [ne_eq, not_true_eq_false, if_false, hconfirmed, Bool.false_eq_true]
            rcases saveConfirmedPhase_spec hverify with hkept | hstored
            · exact Or.inl hkept
            · exact Or.inr ⟨saved, loadLocked_some hload, hconfirmed, hstored⟩
        · exact Or.inl (by simp [hrequest])

/-- Only a confirmed request becomes acknowledged, for the digest of its acknowledgement. -/
theorem acknowledgeLocked_spec (request : List UInt8) (confirmation : Fixed) :
    (acknowledgeLocked custody ctx io stored request confirmation).2 = stored ∨
      ∃ saved acknowledgement, Stands custody stored saved ∧ saved.confirmed = true ∧
        saved.acknowledged = false ∧
        releaseAcknowledgementRequest custody ctx.credential ctx.body saved.request =
          .ok acknowledgement ∧ confirmation = custody.digest acknowledgement ∧
        Stands custody (acknowledgeLocked custody ctx io stored request confirmation).2
          ⟨saved.request, true, true⟩ := by
  unfold acknowledgeLocked
  cases hload : loadLocked custody ctx io.readable stored with
  | error e => exact Or.inl rfl
  | ok found =>
    cases found with
    | none => exact Or.inl rfl
    | some saved =>
      by_cases hsaved : saved.confirmed = false ∨ saved.request ≠ request
      · exact Or.inl (by simp only [hsaved, if_true])
      · rw [not_or, not_not, Bool.not_eq_false] at hsaved
        obtain ⟨hconfirmed, rfl⟩ := hsaved
        simp only [hconfirmed, Bool.true_eq_false, ne_eq, not_true_eq_false, or_self, if_false]
        cases hack : releaseAcknowledgementRequest custody ctx.credential ctx.body saved.request with
        | error e => exact Or.inl rfl
        | ok acknowledgement =>
          by_cases hdigest : confirmation = custody.digest acknowledgement
          · cases hacknowledged : saved.acknowledged with
            | true => exact Or.inl (by simp [hdigest])
            | false =>
              simp only [hdigest, not_true_eq_false, if_false, Bool.false_eq_true]
              rcases saveConfirmedPhase_spec (loadLocked_verified hload) with hkept | hstored
              · exact Or.inl hkept
              · exact Or.inr ⟨saved, acknowledgement, loadLocked_some hload, hconfirmed, hacknowledged,
                  hack, rfl, hstored⟩
          · exact Or.inl (by simp [hdigest])

/-- An acknowledgement comes from a confirmed state. -/
theorem prepareAckLocked_spec {readable : Bool} {acknowledgement : List UInt8}
    (h : prepareAckLocked custody ctx readable stored = .ok acknowledgement) :
    ∃ saved, Stands custody stored saved ∧ saved.confirmed = true ∧
      releaseAcknowledgementRequest custody ctx.credential ctx.body saved.request =
        .ok acknowledgement := by
  unfold prepareAckLocked at h
  cases hload : loadLocked custody ctx readable stored with
  | error e => simp [hload] at h
  | ok found =>
    cases found with
    | none => simp [hload] at h
    | some saved =>
      cases hconfirmed : saved.confirmed with
      | false => simp [hload, hconfirmed] at h
      | true =>
        simp only [hload, hconfirmed, Bool.true_eq_false, if_false] at h
        exact ⟨saved, loadLocked_some hload, hconfirmed, h⟩

end Operations

end DeviceRelease
