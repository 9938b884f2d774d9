import Mathlib
import WinCommander.Library.Outcome
import WinCommander.Proto.Injectivity
import WinCommander.Proto.Signature

/-!
# Command verification

A command must carry the pinned key, be fresh, be signed over its canonical bytes, and use a
nonce that the device does not remember.  The time stamp, the nonce and the scope are outside the
signature.  Integers wrap as they do in a release build.
-/

namespace FleetAgent

open Json FleetProto Outcome

variable {Key : Type}

/-- A command as it arrives in a check-in response. -/
structure SignedCommand where
  commandId : String
  idempotencyKey : String
  deviceId : String
  catalogId : String
  actionClass : String
  payload : Document
  epochVersion : Int64
  signature : String
  signerKey : String
  ts : Int64
  nonce : String
  scope : String

/-- The fields that the signature covers. -/
def SignedCommand.signingInput (cmd : SignedCommand) : SigningInput :=
  .command cmd.idempotencyKey cmd.deviceId cmd.catalogId cmd.actionClass cmd.payload
    cmd.epochVersion

/-- When each remembered nonce was first seen. -/
abbrev NonceMap := String → Option Int64

/-- Decode a base64 Ed25519 verifying key. -/
def decodeVerifyingKey (crypto : Crypto Key) (b64 : String) : Except String Key := do
  let bytes ← (crypto.b64Decode b64).mapError fun e => s!"fleet pubkey base64 decode: {e}"
  refuseIf (bytes.length ≠ 32) "fleet pubkey is not 32 bytes"
  let key ← (crypto.keyFromBytes bytes).mapError fun e => s!"fleet pubkey invalid: {e}"
  refuseIf (crypto.isWeak key = true) "fleet pubkey is weak"
  return key

/-- The clock distance of a dated command. -/
def skew (now ts : Int64) : Int64 := if ts ≠ 0 then (now - ts).abs else 0

/-- Verify a command against the pinned key; the result is the nonce map afterwards. -/
def verifyCommand (crypto : Crypto Key) (cmd : SignedCommand) (key : Key)
    (now maxSkewSecs : Int64) (seenNonces : NonceMap) : Except String NonceMap := do
  let cmdKey ← (decodeVerifyingKey crypto cmd.signerKey).mapError
    fun e => s!"fleet command signer_key decode: {e}"
  refuseIf (crypto.keyToBytes cmdKey ≠ crypto.keyToBytes key)
    "fleet command signer_key does not match pinned pubkey"
  refuseIf (cmd.ts ≠ 0 ∧ maxSkewSecs < skew now cmd.ts)
    s!"fleet command timestamp skew {skew now cmd.ts}s exceeds max {maxSkewSecs}s"
  let msg := canonicalCommandBytes cmd.idempotencyKey cmd.deviceId cmd.catalogId cmd.actionClass
    cmd.payload cmd.epochVersion
  let pinnedKeyB64 := crypto.b64Encode (crypto.keyToBytes key)
  refuseIf (verifySignatureB64 crypto pinnedKeyB64 msg cmd.signature = false)
    "fleet command ed25519 signature invalid"
  if cmd.nonce = "" then
    return seenNonces
  else
    refuseIf ((seenNonces cmd.nonce).isSome = true) s!"fleet command nonce '{cmd.nonce}' replayed"
    return Function.update seenNonces cmd.nonce (some now)

/-- Forget the nonces that were inserted more than `ttlSecs` ago. -/
def evictStaleNonces (seenNonces : NonceMap) (now ttlSecs : Int64) : NonceMap :=
  fun nonce => (seenNonces nonce).filter fun insertedAt => now - insertedAt ≤ ttlSecs

/-- The signature check of a command under a pinned key. -/
def SignedBy (crypto : Crypto Key) (key : Key) (cmd : SignedCommand) : Prop :=
  (∃ cmdKey, decodeVerifyingKey crypto cmd.signerKey = .ok cmdKey ∧
    crypto.keyToBytes cmdKey = crypto.keyToBytes key) ∧
  verifySignatureB64 crypto (crypto.b64Encode (crypto.keyToBytes key)) cmd.signingInput.preimage
    cmd.signature = true

/-- The freshness check of a command. -/
def Fresh (now maxSkewSecs : Int64) (cmd : SignedCommand) : Prop :=
  cmd.ts = 0 ∨ skew now cmd.ts ≤ maxSkewSecs

/-- What a verified command has passed, and what is remembered of it. -/
theorem verifyCommand_ok_iff {crypto : Crypto Key} {cmd : SignedCommand} {key : Key}
    {now maxSkewSecs : Int64} {seen seen' : NonceMap} :
    verifyCommand crypto cmd key now maxSkewSecs seen = .ok seen' ↔
      SignedBy crypto key cmd ∧ Fresh now maxSkewSecs cmd ∧
        ((cmd.nonce = "" ∧ seen' = seen) ∨
          (cmd.nonce ≠ "" ∧ seen cmd.nonce = none ∧
            seen' = Function.update seen cmd.nonce (some now))) := by
  have hnonce : ∀ msg : String, (if cmd.nonce = "" then (return seen : Except String NonceMap) else do
        refuseIf ((seen cmd.nonce).isSome = true) msg
        return Function.update seen cmd.nonce (some now)) = .ok seen' ↔
      (cmd.nonce = "" ∧ seen' = seen) ∨ (cmd.nonce ≠ "" ∧ seen cmd.nonce = none ∧
        seen' = Function.update seen cmd.nonce (some now)) := by
    intro msg
    by_cases h : cmd.nonce = ""
    · simp only [h, if_true, pure_ok, true_and, ne_eq, not_true_eq_false, false_and, or_false]
      exact eq_comm
    · simp only [h, if_false, bind_ok, refuseIf_ok, pure_ok, false_and, false_or, ne_eq,
        not_false_eq_true, true_and, Option.not_isSome_iff_eq_none, exists_const]
      rw [eq_comm (a := seen')]
  have hfresh : ¬ (cmd.ts ≠ 0 ∧ maxSkewSecs < skew now cmd.ts) ↔ Fresh now maxSkewSecs cmd := by
    unfold Fresh
    rw [not_and_or, not_not, Int64.not_lt]
  simp only [verifyCommand, bind_ok, mapError_ok, refuseIf_ok, hnonce, hfresh, SignedBy,
    SignedCommand.signingInput, SigningInput.preimage, not_not, ne_eq, Bool.not_eq_false]
  constructor
  · rintro ⟨cmdKey, hkey, _, hsame, _, hf, _, hsig, hn⟩
    exact ⟨⟨⟨cmdKey, hkey, hsame⟩, hsig⟩, hf, hn⟩
  · rintro ⟨⟨⟨cmdKey, hkey, hsame⟩, hsig⟩, hf, hn⟩
    exact ⟨cmdKey, hkey, (), hsame, (), hf, (), hsig, hn⟩

/-- A signed command without time stamp and nonce passes at any time and leaves no trace. -/
theorem verifyCommand_undated {crypto : Crypto Key} {cmd : SignedCommand} {key : Key}
    (hsigned : SignedBy crypto key cmd) (hts : cmd.ts = 0) (hnonce : cmd.nonce = "")
    (now maxSkewSecs : Int64) (seen : NonceMap) :
    verifyCommand crypto cmd key now maxSkewSecs seen = .ok seen :=
  verifyCommand_ok_iff.mpr ⟨hsigned, Or.inl hts, Or.inl ⟨hnonce, rfl⟩⟩

/-- A verified command with a nonce is remembered at the time it was verified. -/
theorem seen_after_verify {crypto : Crypto Key} {cmd : SignedCommand} {key : Key}
    {now maxSkewSecs : Int64} {seen seen' : NonceMap}
    (h : verifyCommand crypto cmd key now maxSkewSecs seen = .ok seen') (hnonce : cmd.nonce ≠ "") :
    seen cmd.nonce = none ∧ seen' cmd.nonce = some now := by
  obtain ⟨_, _, ⟨hempty, _⟩ | ⟨_, hnew, hseen'⟩⟩ := verifyCommand_ok_iff.mp h
  · exact absurd hempty hnonce
  · exact ⟨hnew, by rw [hseen', Function.update_self]⟩

/-- Verification only ever adds a nonce. -/
theorem seen_kept_by_verify {crypto : Crypto Key} {cmd : SignedCommand} {key : Key}
    {now maxSkewSecs t : Int64} {seen seen' : NonceMap} {nonce : String}
    (h : verifyCommand crypto cmd key now maxSkewSecs seen = .ok seen')
    (hseen : seen nonce = some t) : seen' nonce = some t := by
  obtain ⟨_, _, ⟨_, hseen'⟩ | ⟨_, hnew, hseen'⟩⟩ := verifyCommand_ok_iff.mp h
  · rw [hseen', hseen]
  · have hne : nonce ≠ cmd.nonce := by
      intro heq
      rw [heq, hnew] at hseen
      exact absurd hseen (by simp)
    rw [hseen', Function.update_of_ne hne, hseen]

/-- A nonce is kept while its age is within the limit. -/
theorem evictStaleNonces_eq_some {seen : NonceMap} {nonce : String} {t now ttlSecs : Int64}
    (hseen : seen nonce = some t) (hage : now - t ≤ ttlSecs) :
    evictStaleNonces seen now ttlSecs nonce = some t := by
  simp [evictStaleNonces, hseen, hage]

namespace Recorded

open FleetProto.Recorded

def updateSignature : List UInt8 :=
  [30, 19, 78, 144, 80, 76, 134, 115, 57, 214, 51, 30, 237, 190, 173, 5, 130, 58, 153, 55, 179,
    57, 245, 39, 246, 232, 46, 27, 126, 85, 69, 194, 238, 150, 144, 186, 134, 97, 95, 172, 83,
    230, 245, 170, 59, 137, 187, 233, 197, 69, 74, 208, 131, 113, 250, 11, 128, 7, 202, 1, 204,
    71, 192, 11]

/-- An ordinary command that the server signed for one device. -/
def update : SignedCommand where
  commandId := "cmd-1"
  idempotencyKey := "idem-1"
  deviceId := "dev-1"
  catalogId := "self_update"
  actionClass := "safe"
  payload := ⟨.null, .null⟩
  epochVersion := 7
  signature :=
    "HhNOkFBMhnM51jMe7b6tBYI6mTezOfUn9uguG35VRcLulpC6hmFfrFPm9ao7ibvpxUVK0INx+guAB8oBzEfACw=="
  signerKey := serverKeyB64
  ts := 0
  nonce := ""
  scope := ""

/-- The two keys and the server's signature over the update. -/
def recording : Recording where
  texts := [(serverKeyB64, serverKey), (operatorKeyB64, operatorKey),
    (update.signature, updateSignature)]
  signed := [(serverKey, update.signingInput.preimage, updateSignature)]

/-- The recorded signature covers the update and every copy of it with other unsigned fields. -/
theorem signedBy_server {cmd : SignedCommand} (hinput : cmd.signingInput = update.signingInput)
    (hsignature : cmd.signature = update.signature) (hsigner : cmd.signerKey = serverKeyB64) :
    SignedBy recording.crypto serverKey cmd := by
  have hdecode : decodeVerifyingKey recording.crypto serverKeyB64 = .ok serverKey := by rfl
  refine ⟨⟨serverKey, by rw [hsigner, hdecode], rfl⟩, ?_⟩
  have hencode : recording.crypto.b64Encode serverKey = serverKeyB64 := by rfl
  rw [hinput, hsignature]
  show verifySignatureB64 _ (recording.crypto.b64Encode serverKey) _ _ = true
  rw [hencode]
  exact recording.verifies rfl rfl (by decide) List.mem_cons_self

end Recorded

end FleetAgent
