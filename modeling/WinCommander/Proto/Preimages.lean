import Mathlib
import WinCommander.Proto.Canonical

/-!
# Signing preimages

The bytes that the fleet server and the devices sign.  Each builder binds its fields in a JSON
object; the epoch, ticket and policy builders put the big-endian version before it.  Equal bytes
mean equal bound fields, and no two builders ever put out the same bytes.
-/

namespace FleetProto

open Json

/-- Risk tier of a remote action. -/
inductive ActionClass where
  | safe
  | destructive
  | irreversible
  deriving DecidableEq

def ActionClass.asWireStr : ActionClass → String
  | .safe => "safe"
  | .destructive => "destructive"
  | .irreversible => "irreversible"

inductive ActionOutcomeState where
  | pass
  | fail
  | unknown
  deriving DecidableEq

def ActionOutcomeState.asStr : ActionOutcomeState → String
  | .pass => "pass"
  | .fail => "fail"
  | .unknown => "unknown"

/-- Where a command stopped. -/
inductive CommandFailureStage where
  | resolve
  | gate
  | dispatch
  | execute
  | report
  deriving DecidableEq

def CommandFailureStage.asStr : CommandFailureStage → String
  | .resolve => "resolve"
  | .gate => "gate"
  | .dispatch => "dispatch"
  | .execute => "execute"
  | .report => "report"

/-- A signed, versioned configuration snapshot. -/
structure ConfigEpoch where
  orgId : String
  version : Int64
  configJson : Document
  targetKind : String
  targetId : Option String
  lockedPaths : List String
  managed : Bool
  signature : String
  signerKey : String
  deriving DecidableEq

/-- One key of a policy: its value, its enforcement mode and how long it is valid. -/
structure PolicyIntent where
  key : String
  value : Document
  mode : String
  ttlSecs : Option UInt64

/-- Privacy Shield's resolved desired state. -/
structure ShieldDesiredState where
  enabled : Bool
  mode : String
  revision : Int64
  updatedAt : String
  commandId : Option String
  deriving DecidableEq

/-- The only policy payload sent by a check-in response. -/
structure PolicyEnvelope where
  clipboardGuardEnabled : Bool
  orgId : String
  deviceId : String
  enrollmentGeneration : Option String
  configRevision : Option Int64
  resolutionRevision : Option Int64
  config : Option ConfigEpoch
  shield : Option ShieldDesiredState
  shieldRevision : Int64
  signature : String
  signerKey : String
  deriving DecidableEq

/-- A device-signed record of an action outcome. -/
structure ActionOutcome where
  version : UInt16
  receiptId : String
  deviceId : String
  sequence : UInt64
  previousHash : Option String
  commandId : Option String
  catalogId : String
  actionClass : ActionClass
  outcome : ActionOutcomeState
  failureStage : Option CommandFailureStage
  observedAt : String
  resultDigest : Document
  recordHash : String
  signature : String

structure EpochSigningInput where
  version : Int64
  config : Document
  lockedPaths : List String
  managed : Bool
  targetKind : String
  targetId : Option String

structure TicketSigningInput where
  ticketId : String
  orgId : String
  deviceId : String
  printerClass : String
  policyVersion : Int64
  issuedAtUnix : Int64
  expiresAtUnix : Int64
  nonce : String

/-- All fields which are signed for a policy delivery. -/
structure PolicyEnvelopeSigningInput where
  clipboardGuardEnabled : Bool
  orgId : String
  deviceId : String
  enrollmentGeneration : Option String
  configRevision : Option Int64
  resolutionRevision : Option Int64
  config : Option ConfigEpoch
  shield : Option ShieldDesiredState
  shieldRevision : Int64

section Values

def intValue (i : ℤ) : Value := .number (.ofInt i)

/-- An absent value is `null`. -/
def optionValue {α : Type} (toValue : α → Value) : Option α → Value
  | none => .null
  | some a => toValue a

/-- A member that is left out when there is no value. -/
def optionalMember {α : Type} (key : String) (toValue : α → Value) :
    Option α → List (String × Value)
  | none => []
  | some a => [(key, toValue a)]

def ConfigEpoch.toValue (c : ConfigEpoch) : Value := .object [
  ("org_id", .string c.orgId),
  ("version", intValue c.version.toInt),
  ("config_json", c.configJson.value),
  ("target_kind", .string c.targetKind),
  ("target_id", optionValue .string c.targetId),
  ("locked_paths", .array (c.lockedPaths.map .string)),
  ("managed", .bool c.managed),
  ("signature", .string c.signature),
  ("signer_key", .string c.signerKey)]

def PolicyIntent.members (i : PolicyIntent) : List (String × Value) := [
  ("key", .string i.key),
  ("value", i.value.value),
  ("mode", .string i.mode)] ++
  optionalMember "ttl_secs" (fun t : UInt64 => intValue t.toNat) i.ttlSecs

def PolicyIntent.toValue (i : PolicyIntent) : Value := .object i.members

def ShieldDesiredState.toValue (s : ShieldDesiredState) : Value := .object [
  ("enabled", .bool s.enabled),
  ("mode", .string s.mode),
  ("revision", intValue s.revision.toInt),
  ("updated_at", .string s.updatedAt),
  ("command_id", optionValue .string s.commandId)]

end Values

section Builders

/-- What `canonicalCommandBytes` writes. -/
def commandEnvelope (commandId deviceId catalogId actionClass : String) (payload : Document)
    (epochVersion : Int64) : Value := .object [
  ("command_id", .string commandId),
  ("device_id", .string deviceId),
  ("catalog_id", .string catalogId),
  ("action_class", .string actionClass),
  ("payload", payload.value),
  ("epoch_version", intValue epochVersion.toInt)]

/-- Preimage for a remote command; `commandId` is its idempotency key. -/
def canonicalCommandBytes (commandId deviceId catalogId actionClass : String) (payload : Document)
    (epochVersion : Int64) : List UInt8 :=
  canonicalJsonBytes (commandEnvelope commandId deviceId catalogId actionClass payload epochVersion)

/-- The locked paths are sorted and consecutive repetitions dropped. -/
def epochSigningEnvelope (config : Document) (lockedPaths : List String) (managed : Bool)
    (targetKind : String) (targetId : Option String) : Value := .object [
  ("config", config.value),
  ("locked_paths",
    .array (((Keyed.sortOn id lockedPaths).destutter (· ≠ ·)).map .string)),
  ("managed", .bool managed),
  ("target_kind", .string targetKind),
  ("target_id", optionValue .string targetId)]

def epochPreimage (input : EpochSigningInput) : List UInt8 :=
  canonicalEpochBytes input.version (epochSigningEnvelope input.config input.lockedPaths
    input.managed input.targetKind input.targetId)

def ticketEnvelope (input : TicketSigningInput) : Value := .object [
  ("ticket_id", .string input.ticketId),
  ("org_id", .string input.orgId),
  ("device_id", .string input.deviceId),
  ("printer_class", .string input.printerClass),
  ("policy_version", intValue input.policyVersion.toInt),
  ("issued_at_unix", intValue input.issuedAtUnix.toInt),
  ("expires_at_unix", intValue input.expiresAtUnix.toInt),
  ("nonce", .string input.nonce)]

def ticketPreimage (input : TicketSigningInput) : List UInt8 :=
  canonicalEpochBytes input.policyVersion (ticketEnvelope input)

def policyValue (version : Int64) (orgId deviceId : String) (intents : List PolicyIntent) : Value :=
  .object [
    ("device_id", .string deviceId),
    ("intents", .array ((Keyed.sortOn PolicyIntent.key intents).map PolicyIntent.toValue)),
    ("org_id", .string orgId),
    ("version", intValue version.toInt)]

def policyPreimage (version : Int64) (orgId deviceId : String) (intents : List PolicyIntent) :
    List UInt8 :=
  canonicalEpochBytes version (policyValue version orgId deviceId intents)

def policyEnvelopeMembers (input : PolicyEnvelopeSigningInput) : List (String × Value) := [
  ("config", optionValue ConfigEpoch.toValue input.config),
  ("device_id", .string input.deviceId),
  ("org_id", .string input.orgId),
  ("shield", optionValue ShieldDesiredState.toValue input.shield),
  ("shield_revision", intValue input.shieldRevision.toInt)] ++
  optionalMember "enrollment_generation" .string input.enrollmentGeneration ++
  optionalMember "config_revision" (fun r : Int64 => intValue r.toInt) input.configRevision ++
  optionalMember "resolution_revision" (fun r : Int64 => intValue r.toInt)
    input.resolutionRevision ++
  optionalMember "clipboard_guard_enabled" Value.bool
    (if input.clipboardGuardEnabled then some true else none)

/-- Canonical bytes signed for a whole policy delivery. -/
def policyEnvelopePreimage (input : PolicyEnvelopeSigningInput) : List UInt8 :=
  canonicalJsonBytes (.object (policyEnvelopeMembers input))

def PolicyEnvelope.signingInput (e : PolicyEnvelope) : PolicyEnvelopeSigningInput where
  clipboardGuardEnabled := e.clipboardGuardEnabled
  orgId := e.orgId
  deviceId := e.deviceId
  enrollmentGeneration := e.enrollmentGeneration
  configRevision := e.configRevision
  resolutionRevision := e.resolutionRevision
  config := e.config
  shield := e.shield
  shieldRevision := e.shieldRevision

def PolicyEnvelope.preimage (e : PolicyEnvelope) : List UInt8 :=
  policyEnvelopePreimage e.signingInput

def actionOutcomeValue (o : ActionOutcome) : Value := .object [
  ("version", intValue o.version.toNat),
  ("receipt_id", .string o.receiptId),
  ("device_id", .string o.deviceId),
  ("sequence", intValue o.sequence.toNat),
  ("previous_hash", optionValue .string o.previousHash),
  ("command_id", optionValue .string o.commandId),
  ("catalog_id", .string o.catalogId),
  ("action_class", .string o.actionClass.asWireStr),
  ("outcome", .string o.outcome.asStr),
  ("failure_stage", optionValue (fun s : CommandFailureStage => .string s.asStr) o.failureStage),
  ("observed_at", .string o.observedAt),
  ("result_digest", o.resultDigest.value)]

def canonicalActionOutcomeBytes (o : ActionOutcome) : List UInt8 :=
  canonicalJsonBytes (actionOutcomeValue o)

end Builders

end FleetProto
