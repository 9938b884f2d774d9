import WinCommander.Library.Base64Url
import WinCommander.Library.Outcome
import WinCommander.Library.Records

/-!
# Two signatures on one payload

A restricted signed envelope: both of two independently trusted keys sign the payload, each under a
header of its own, and both headers carry the purpose and the epoch.  Reading JSON and the two
signature schemes are parameters.
-/

namespace HybridJws

open Json Outcome

section Format

inductive VerifyError where
  | malformed
  | untrustedContext
  | invalidSignature
  deriving DecidableEq

inductive Purpose where
  | licence
  | release
  | licenceEnrolment
  | evidenceAttestation
  deriving DecidableEq

def Purpose.name : Purpose → String
  | .licence => "licence"
  | .release => "release"
  | .licenceEnrolment => "licence-enrolment"
  | .evidenceAttestation => "evidence-attestation"

def maxPayloadLen : ℕ := 1024 * 1024

def maxHeaderLen : ℕ := 1024

def maxEnvelopeLen : ℕ := (maxPayloadLen + 2) / 3 * 4 + 16384

def jwsType : String := "application/wincmd-experimental+jws"

def profile : String := "experimental-ed25519-mldsa65-v1"

def critical : List String := ["profile", "purpose", "epoch"]

/-- Local policy; nothing of it comes from the envelope. -/
structure Trust where
  purpose : Purpose
  minimumEpoch : ℕ
  edKeyId : String
  ed25519Public : List UInt8
  pqKeyId : String
  mlDsa65Public : List UInt8

structure Verified where
  payload : List UInt8
  epoch : ℕ
  deriving DecidableEq

structure SignatureEntry where
  header : String
  signature : String

structure Envelope where
  payload : String
  signatures : List SignatureEntry

structure ProtectedHeader where
  alg : String
  kid : String
  typ : String
  crit : List String
  profile : String
  purpose : String
  epoch : ℕ

/-- The two schemes: does a signature of a message verify under a public key? -/
structure Schemes where
  verifyEd : List UInt8 → List UInt8 → List UInt8 → Bool
  verifyPq : List UInt8 → List UInt8 → List UInt8 → Bool

end Format

section Reading

/-- The fields of a record that knows no others: by name, or in order. -/
def exactFields (names : List String) : Value → Option (List Value)
  | .object ms =>
    if (ms.map Prod.fst).Nodup ∧ ∀ m ∈ ms, m.1 ∈ names then names.mapM fun name => ms.lookup name
    else none
  | .array vs => if vs.length = names.length then some vs else none
  | _ => none

def readStrings : Value → Option (List String)
  | .array vs => vs.mapM Value.asStr
  | _ => none

def readEntry (v : Value) : Option SignatureEntry := do
  match ← exactFields ["protected", "signature"] v with
  | [header, signature] => some ⟨← header.asStr, ← signature.asStr⟩
  | _ => none

def readEnvelope (v : Value) : Option Envelope := do
  match ← exactFields ["payload", "signatures"] v with
  | [payload, .array signatures] => some ⟨← payload.asStr, ← signatures.mapM readEntry⟩
  | _ => none

def readProtected (v : Value) : Option ProtectedHeader := do
  match ← exactFields ["alg", "kid", "typ", "crit", "profile", "purpose", "epoch"] v with
  | [alg, kid, typ, crit, prof, purpose, epoch] => some ⟨← alg.asStr, ← kid.asStr, ← typ.asStr,
      ← readStrings crit, ← prof.asStr, ← purpose.asStr, ← epoch.asU64⟩
  | _ => none

/-- Base64 that is written in the one way its bytes are encoded, within a limit. -/
def decodeCanonical (value : String) (limit : ℕ) : Except VerifyError (List UInt8) := do
  refuseIf ((limit + 2) / 3 * 4 < value.utf8ByteSize) .malformed
  let bytes ← okOr (Base64Url.decode value.toList) .malformed
  refuseIf (limit < bytes.length ∨ Base64Url.encode bytes ≠ value.toList) .malformed
  pure bytes

end Reading

section Verifying

variable (schemes : Schemes) (parse : List UInt8 → Option Value)

def signingInput (header payload : List Char) : List UInt8 := utf8 (header ++ '.' :: payload)

def Trust.MalformedKeyIds (trust : Trust) : Prop :=
  trust.edKeyId = "" ∨ trust.pqKeyId = "" ∨ 128 < trust.edKeyId.utf8ByteSize ∨
    128 < trust.pqKeyId.utf8ByteSize ∨ trust.edKeyId = trust.pqKeyId

instance (trust : Trust) : Decidable trust.MalformedKeyIds :=
  inferInstanceAs (Decidable (_ ∨ _ ∨ _ ∨ _ ∨ _))

/-- What has been found in the entries so far. -/
structure Found where
  ed : Bool
  pq : Bool
  commonEpoch : Option ℕ

def checkEntry (trust : Trust) (payload : String) (found : Found) (entry : SignatureEntry) :
    Except VerifyError Found := do
  let headerBytes ← decodeCanonical entry.header maxHeaderLen
  let header ← okOr ((parse headerBytes).bind readProtected) .malformed
  refuseIf (header.typ ≠ jwsType ∨ header.crit ≠ critical ∨ header.profile ≠ profile ∨
    header.purpose ≠ trust.purpose.name ∨ header.epoch < trust.minimumEpoch ∨
    ∃ epoch ∈ found.commonEpoch, epoch ≠ header.epoch) .untrustedContext
  let input := signingInput entry.header.toList payload.toList
  if header.alg = "Ed25519" ∧ found.ed = false ∧ header.kid = trust.edKeyId then do
    let signature ← decodeCanonical entry.signature 64
    refuseIf (signature.length ≠ 64) .invalidSignature
    refuseIf (schemes.verifyEd trust.ed25519Public input signature = false) .invalidSignature
    pure { found with ed := true, commonEpoch := some header.epoch }
  else if header.alg = "ML-DSA-65" ∧ found.pq = false ∧ header.kid = trust.pqKeyId then do
    let signature ← decodeCanonical entry.signature 3309
    refuseIf (schemes.verifyPq trust.mlDsa65Public input signature = false) .invalidSignature
    pure { found with pq := true, commonEpoch := some header.epoch }
  else .error .untrustedContext

/-- Verify an envelope against a policy that is supplied independently. -/
def verify (input : List UInt8) (trust : Trust) : Except VerifyError Verified := do
  refuseIf (maxEnvelopeLen < input.length ∨ trust.MalformedKeyIds) .malformed
  let envelope ← okOr ((parse input).bind readEnvelope) .malformed
  refuseIf (envelope.signatures.length ≠ 2) .malformed
  let payload ← decodeCanonical envelope.payload maxPayloadLen
  let found ← envelope.signatures.foldlM (checkEntry schemes parse trust envelope.payload)
    ⟨false, false, none⟩
  refuseIf (found.ed = false ∨ found.pq = false) .untrustedContext
  let epoch ← okOr found.commonEpoch .malformed
  pure ⟨payload, epoch⟩

end Verifying

section Signing

/-- A header as it is written, its members in the order of their names. -/
def headerValue (alg kid : String) (purpose : Purpose) (epoch : ℕ) : Value :=
  .object [("alg", .string alg), ("crit", .array (critical.map .string)),
    ("epoch", Serde.ofNatural epoch), ("kid", .string kid), ("profile", .string profile),
    ("purpose", .string purpose.name), ("typ", .string jwsType)]

def headerBytes (alg kid : String) (purpose : Purpose) (epoch : ℕ) : List UInt8 :=
  utf8 (headerValue alg kid purpose epoch).write

def encodedHeader (alg kid : String) (purpose : Purpose) (epoch : ℕ) :
    Except VerifyError (List Char) := do
  refuseIf (maxHeaderLen < (headerBytes alg kid purpose epoch).length) .malformed
  pure (Base64Url.encode (headerBytes alg kid purpose epoch))

/-- What each of the two keys signs. -/
structure SigningInputs where
  ed : List Char
  pq : List Char

def signingInputs (payload : List UInt8) (epoch : ℕ) (trust : Trust) :
    Except VerifyError SigningInputs := do
  refuseIf (maxPayloadLen < payload.length ∨ epoch = 0 ∨ epoch < trust.minimumEpoch ∨
    trust.MalformedKeyIds) .malformed
  let edHeader ← encodedHeader "Ed25519" trust.edKeyId trust.purpose epoch
  let pqHeader ← encodedHeader "ML-DSA-65" trust.pqKeyId trust.purpose epoch
  let encodedPayload := Base64Url.encode payload
  pure ⟨edHeader ++ '.' :: encodedPayload, pqHeader ++ '.' :: encodedPayload⟩

/-- What is before the first dot, and what is after it. -/
def splitOnce (text : List Char) : Option (List Char × List Char) :=
  if '.' ∈ text then
    some (text.takeWhile (· ≠ '.'), (text.dropWhile (· ≠ '.')).drop 1)
  else none

def entryValue (header : List Char) (signature : List UInt8) : Value :=
  .object [("protected", .string (String.ofList header)),
    ("signature", .string (String.ofList (Base64Url.encode signature)))]

def envelopeValue (payload : List Char) (entries : List Value) : Value :=
  .object [("payload", .string (String.ofList payload)), ("signatures", .array entries)]

/-- Both signatures are made, put together and verified before anything is given out. -/
def assemble (schemes : Schemes) (parse : List UInt8 → Option Value) (payload : List UInt8)
    (epoch : ℕ) (trust : Trust) (signEd signPq : List UInt8 → Except VerifyError (List UInt8)) :
    Except VerifyError (List UInt8) := do
  let inputs ← signingInputs payload epoch trust
  let (edHeader, encodedPayload) ← okOr (splitOnce inputs.ed) .malformed
  let (pqHeader, _) ← okOr (splitOnce inputs.pq) .malformed
  let edSignature ← signEd (utf8 inputs.ed)
  refuseIf (edSignature.length ≠ 64) .invalidSignature
  let pqSignature ← signPq (utf8 inputs.pq)
  refuseIf (pqSignature.length ≠ 3309) .invalidSignature
  let envelope := utf8 (envelopeValue encodedPayload
    [entryValue edHeader edSignature, entryValue pqHeader pqSignature]).write
  refuseIf (maxEnvelopeLen < envelope.length) .malformed
  let verified ← verify schemes parse envelope trust
  refuseIf (verified.payload ≠ payload ∨ verified.epoch ≠ epoch) .untrustedContext
  pure envelope

end Signing

end HybridJws
