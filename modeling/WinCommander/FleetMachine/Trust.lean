import Mathlib
import WinCommander.Proto.Injectivity
import WinCommander.Proto.Signature

/-!
# Machine-bound fleet trust

The service trusts one organisation, device, enrolment generation and signer.  A signed policy is
accepted under that trust only when what it is bound to stands inside the bytes that were signed.
-/

namespace FleetMachinePolicy

open Json FleetProto Outcome

structure FleetTrust where
  orgId : String
  deviceId : String
  enrollmentGeneration : String
  signerKey : String
  deriving DecidableEq

/-- Nonsecret transport configuration authorized along with the origin set. -/
structure TransportProfile where
  spkiPins : String
  environmentFingerprint : String
  deriving DecidableEq

/-- The parts of a parsed URL that the origins are checked by. -/
structure ParsedUrl where
  scheme : String
  hostStr : Option String
  username : String
  password : Option String
  path : String
  query : Option String
  fragment : Option String
  originAscii : String

/-- What the machine policy is built on.  The bytes of a value that was serialised are read back
as that value, up to the order of keys. -/
structure Platform (Key : Type) where
  crypto : Crypto Key
  sha256 : List UInt8 → List UInt8
  parseUrl : String → Option ParsedUrl
  parseJson : List UInt8 → Option Value
  parseJson_canonical : ∀ v w, parseJson (canonicalJsonBytes v) = some w → w.normalize = v.normalize

def bytesOf (s : String) : List UInt8 := utf8 s.toList

/-- A JSON array of strings. -/
def stringsToVec (texts : List String) : List UInt8 :=
  utf8 (Value.array (texts.map .string)).write

def isAsciiHexDigit (c : UInt8) : Bool :=
  (48 ≤ c && c ≤ 57) || (65 ≤ c && c ≤ 70) || (97 ≤ c && c ≤ 102)

def toAsciiLowercase (s : String) : String := String.ofList (s.toList.map Char.toLower)

def validUuid (value : String) : Bool :=
  (bytesOf value).length = 36 && value ≠ "00000000-0000-0000-0000-000000000000" &&
    value = toAsciiLowercase value &&
    (bytesOf value).zipIdx.all fun (c, i) =>
      if i ∈ [8, 13, 18, 23] then c == 45 else isAsciiHexDigit c

section Checks

variable {Key : Type} (platform : Platform Key)

def validateTransportProfile (profile : TransportProfile) : Except String Unit := do
  refuseIf (4096 < (bytesOf profile.spkiPins).length) "invalid_transport_profile"
  let digest ← (platform.crypto.b64Decode profile.environmentFingerprint).mapError
    fun _ => "invalid_transport_profile"
  refuseIf (digest.length ≠ 32 ∨
    platform.crypto.b64Encode digest ≠ profile.environmentFingerprint) "invalid_transport_profile"

/-- One configured origin in canonical form; the failovers after the first need HTTPS. -/
def canonicalOrigin (index : Nat) (raw : String) : Except String String := do
  let parsed ← okOr (platform.parseUrl raw) "invalid_origin"
  refuseIf (parsed.scheme ∉ ["http", "https"] ∨ (0 < index ∧ parsed.scheme ≠ "https") ∨
    parsed.hostStr = none ∨ parsed.username ≠ "" ∨ parsed.password ≠ none ∨ parsed.path ≠ "/" ∨
    parsed.query ≠ none ∨ parsed.fragment ≠ none) "invalid_origin"
  pure parsed.originAscii

def normalizeOrigins (origins : List String) : Except String (List String) := do
  refuseIf (8 < origins.length) "too_many_origins"
  origins.zipIdx.foldlM (fun result origin => do
    let canonical ← canonicalOrigin platform origin.2 origin.1
    pure (if canonical ∈ result then result else result ++ [canonical])) []

def validateTrust (trust : FleetTrust) : Except String Unit := do
  refuseIf (trust.orgId = "" ∨ 256 < (bytesOf trust.orgId).length ∨ trust.deviceId = "" ∨
    128 < (bytesOf trust.deviceId).length ∨ validUuid trust.enrollmentGeneration = false)
    "invalid_binding"
  let raw ← (platform.crypto.b64Decode trust.signerKey).mapError fun _ => "invalid_key"
  refuseIf (raw.length ≠ 32) "invalid_key"
  let _ ← (platform.crypto.keyFromBytes raw).mapError fun _ => "invalid_key"
  pure ()

def ConfigEpoch.signingInput (config : ConfigEpoch) : EpochSigningInput where
  version := config.version
  config := config.configJson
  lockedPaths := config.lockedPaths
  managed := config.managed
  targetKind := config.targetKind
  targetId := config.targetId

def targetValid (trust : FleetTrust) (config : ConfigEpoch) : Bool :=
  if config.targetKind = "org" then config.targetId = none
  else if config.targetKind = "device" then config.targetId = some trust.deviceId
  else if config.targetKind = "group" then config.targetId.any (· ≠ "")
  else false

def verifyConfig (trust : FleetTrust) (config : ConfigEpoch) : Except String Unit := do
  refuseIf (config.orgId ≠ trust.orgId ∨ config.version ≤ 0 ∨ config.signerKey ≠ trust.signerKey)
    "invalid_config"
  refuseIf (targetValid trust config = false ∨
    verifySignatureB64 platform.crypto trust.signerKey
      (epochPreimage (ConfigEpoch.signingInput config)) config.signature = false) "invalid_config"

/-- Generation and revisions are read from the signed bytes, never from what was attached. -/
def verifyPolicy (trust : FleetTrust) (policy : PolicyEnvelope) : Except String Unit := do
  refuseIf (policy.orgId ≠ trust.orgId ∨ policy.deviceId ≠ trust.deviceId ∨
    policy.signerKey ≠ trust.signerKey ∨ policy.shieldRevision < 0) "binding_mismatch"
  let preimage ← okOr (platform.parseJson policy.preimage) "invalid_policy"
  refuseIf ((preimage.get "enrollment_generation").bind Value.asStr ≠
    some trust.enrollmentGeneration) "generation_mismatch"
  refuseIf ((((preimage.get "config_revision").bind Value.asI64).filter (0 ≤ ·)) = none)
    "missing_config_revision"
  refuseIf ((((preimage.get "resolution_revision").bind Value.asI64).filter (0 ≤ ·)) = none)
    "missing_resolution_revision"
  refuseIf (verifySignatureB64 platform.crypto trust.signerKey policy.preimage policy.signature =
    false) "invalid_signature"
  match policy.config with
  | some config => verifyConfig platform trust config
  | none => pure ()
  match policy.shield with
  | some shield =>
    refuseIf (policy.shieldRevision < shield.revision ∨ shield.revision < 0)
      "invalid_shield_revision"
  | none => pure ()

/-- What the fields of a verified policy are bound to; its revisions are present. -/
structure BoundTo (trust : FleetTrust) (policy : PolicyEnvelope) : Prop where
  orgId : policy.orgId = trust.orgId
  deviceId : policy.deviceId = trust.deviceId
  signerKey : policy.signerKey = trust.signerKey
  enrollmentGeneration : policy.enrollmentGeneration = some trust.enrollmentGeneration
  configRevision : policy.configRevision ≠ none
  resolutionRevision : policy.resolutionRevision ≠ none

variable {platform}

private theorem present_of_filter {o : Option Value} {p : Int64 → Bool}
    (h : ¬ (o.bind Value.asI64).filter p = none) : o ≠ none := by
  intro hnone
  exact h (by rw [hnone]; rfl)

theorem verifyPolicy_boundTo {trust : FleetTrust} {policy : PolicyEnvelope}
    (h : verifyPolicy platform trust policy = .ok ()) : BoundTo trust policy := by
  simp only [verifyPolicy, bind_ok, refuseIf_ok, okOr_ok, exists_const] at h
  obtain ⟨hbinding, preimage, hpreimage, hgeneration, hconfig, hresolution, _⟩ := h
  simp only [not_or, not_not] at hbinding hgeneration
  have hget : preimage.get "enrollment_generation" = some (.string trust.enrollmentGeneration) := by
    obtain ⟨v, hv, hstr⟩ := Option.bind_eq_some_iff.mp hgeneration
    cases v <;> simp_all [Value.asStr]
  have hnormal := platform.parseJson_canonical _ _ hpreimage
  exact {
    orgId := hbinding.1
    deviceId := hbinding.2.1
    signerKey := hbinding.2.2.1
    enrollmentGeneration := enrollmentGeneration_of_normalize_eq hnormal hget
    configRevision := configRevision_ne_none_of_normalize_eq hnormal (present_of_filter hconfig)
    resolutionRevision :=
      resolutionRevision_ne_none_of_normalize_eq hnormal (present_of_filter hresolution) }

/-- Two policies under one trust differ at most in what the trust does not fix. -/
theorem agree_of_boundTo {trust : FleetTrust} {a b : PolicyEnvelope} (ha : BoundTo trust a)
    (hb : BoundTo trust b) (hflag : a.clipboardGuardEnabled = b.clipboardGuardEnabled)
    (hconfigRevision : a.configRevision = b.configRevision)
    (hresolution : a.resolutionRevision = b.resolutionRevision)
    (hconfig : Option.Rel ConfigEpoch.Agree a.config b.config) (hshield : a.shield = b.shield)
    (hrevision : a.shieldRevision = b.shieldRevision) (hsignature : a.signature = b.signature) :
    a.Agree b := by
  refine ⟨⟨hflag, ?_, ?_, ?_, hconfigRevision, hresolution, hconfig, hshield, hrevision⟩,
    hsignature, ?_⟩
  · exact ha.orgId.trans hb.orgId.symm
  · exact ha.deviceId.trans hb.deviceId.symm
  · exact ha.enrollmentGeneration.trans hb.enrollmentGeneration.symm
  · exact ha.signerKey.trans hb.signerKey.symm

end Checks

end FleetMachinePolicy
