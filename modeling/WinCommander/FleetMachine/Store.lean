import Mathlib
import WinCommander.Library.Run
import WinCommander.FleetMachine.Trust

/-!
# The fleet machine store

One record holds the trust, the signed policy and the sealed fleet credential of a machine.  Every
operation decides on the record in memory, writes the next state to the file as a whole and only
then takes it over, so an operation that fails changes neither.
-/

namespace FleetMachinePolicy

open Json FleetProto Outcome

structure StoredCredential where
  origin : String
  ciphertext : String
  deriving DecidableEq

structure ClearAcknowledgement where
  token : String
  connectionToken : String
  deriving DecidableEq

structure TrustAudit where
  action : String
  callerSid : String
  generation : String
  unixTime : UInt64
  deriving DecidableEq

structure ContactObservation where
  observedUnixMs : UInt64
  deriving DecidableEq

structure Record where
  trust : FleetTrust
  policy : Option PolicyEnvelope
  audit : List TrustAudit
  contact : Option ContactObservation
  origins : List String
  transportProfile : Option TransportProfile
  credential : Option StoredCredential
  credentialRevision : UInt64
  connectionRevision : UInt64
  cleared : Option ClearAcknowledgement
  runtimeProfileChanged : Bool
  serviceEnabled : Bool
  deriving DecidableEq

structure PendingEnrollment where
  deviceId : String
  signerKey : String
  challenge : String
  origins : List String
  transportProfile : Option TransportProfile
  deriving DecidableEq

/-- A contact challenge that waits for its answer.  It is never written to the file. -/
structure PendingContact where
  nonce : String
  trust : FleetTrust
  issued : ℕ
  deriving DecidableEq

structure State where
  record : Option Record
  pending : Option PendingEnrollment
  contactChallenge : Option PendingContact
  deriving DecidableEq

def State.default : State := ⟨none, none, none⟩

/-- How a state is written to the file and read back. -/
structure StateCodec where
  toVec : State → Option (List UInt8)
  fromSlice : List UInt8 → Option State
  fromSlice_toVec : ∀ {state bytes}, toVec state = some bytes →
    fromSlice bytes = some { state with contactChallenge := none }

/-- A format that knows two states and the files they are written to. -/
def StateCodec.ofTwo (a b : State) {aBytes bBytes : List UInt8} (hne : aBytes ≠ bBytes)
    (ha : a.contactChallenge = none) (hb : b.contactChallenge = none) : StateCodec where
  toVec state := if state = a then some aBytes else if state = b then some bBytes else none
  fromSlice bytes := if bytes = aBytes then some a else if bytes = bBytes then some b else none
  fromSlice_toVec := by
    intro state bytes h
    split at h
    · next heq =>
      rw [← Option.some.inj h, if_pos rfl, heq, ← ha]
    · split at h
      · next heq =>
        rw [← Option.some.inj h, if_neg hne.symm, if_pos rfl, heq, ← hb]
      · exact absurd h (by simp)

structure Host (Key : Type) extends Platform Key where
  codec : StateCodec

/-- What seals the credential for this machine. -/
structure Protector where
  protect : List UInt8 → List UInt8 → Except String (List UInt8)
  unprotect : List UInt8 → List UInt8 → Except String (List UInt8)

structure CredentialBinding where
  orgId : String
  deviceId : String
  enrollmentGeneration : String
  origin : String

structure CredentialSnapshot where
  trust : FleetTrust
  origins : List String
  profile : TransportProfile
  revision : UInt64
  secret : List UInt8

structure CandidateContext where
  trust : FleetTrust
  origins : List String
  profile : TransportProfile
  revision : UInt64
  connectionRevision : UInt64
  origin : String

section Credential

variable {Key : Type} (platform : Platform Key)

def maxSealed : ℕ := 64 * 1024

def CredentialBinding.entropy (b : CredentialBinding) : Except String (List UInt8) := do
  refuseIf ("" ∈ [b.orgId, b.deviceId, b.enrollmentGeneration, b.origin])
    "invalid_fleet_credential"
  pure (platform.sha256 (stringsToVec ["wincommander:service-fleet-credential:v1", b.orgId,
    b.deviceId, b.enrollmentGeneration, b.origin]))

def sealCredential (protector : Protector) (binding : CredentialBinding) (secret : List UInt8) :
    Except String (List UInt8) := do
  refuseIf (secret.length ≠ 32) "invalid_fleet_credential"
  let entropy ← binding.entropy platform
  let sealedBytes ← protector.protect secret entropy
  refuseIf (sealedBytes = [] ∨ maxSealed < sealedBytes.length) "fleet_credential_unavailable"
  pure sealedBytes

def unsealCredential (protector : Protector) (binding : CredentialBinding) (sealedBytes : List UInt8) :
    Except String (List UInt8) := do
  refuseIf (sealedBytes = [] ∨ maxSealed < sealedBytes.length) "invalid_fleet_credential"
  let entropy ← binding.entropy platform
  let secret ← protector.unprotect sealedBytes entropy
  refuseIf (secret.length ≠ 32) "invalid_fleet_credential"
  pure secret

end Credential

section Operations

variable {Key : Type} (host : Host Key)

/-- What an operation decides: the state to write next, when there is one, and its answer. -/
abbrev Change (α : Type) := Option State × α

/-- A revision is never reused, so it must not wrap. -/
def nextRevision (revision : UInt64) : Except String UInt64 := do
  refuseIf (revision.toNat = 2 ^ 64 - 1) "revision_exhausted"
  pure (revision + 1)

def currentRecord (state : State) : Except String Record := okOr state.record "not_provisioned"

def trustAudit (action actor generation : String) (unixTime : Option UInt64) :
    Except String TrustAudit := do
  refuseIf (¬ "S-1-".toList <+: actor.toList ∨ 184 < (bytesOf actor).length) "invalid_actor"
  let unixTime ← okOr unixTime "clock_unavailable"
  pure { action, callerSid := actor, generation, unixTime }

/-- The audit keeps its last 64 entries. -/
def pushAudit (audit : List TrustAudit) (entry : TrustAudit) : List TrustAudit :=
  (if 64 ≤ audit.length then audit.tail else audit) ++ [entry]

def revisionToken (label : String) (record : Record) (revision : UInt64) : String :=
  host.crypto.b64Encode (host.sha256 (stringsToVec [label, record.trust.orgId,
    record.trust.deviceId, record.trust.enrollmentGeneration, record.trust.signerKey,
    revision.toNat.repr]))

def clearToken (record : Record) : String :=
  revisionToken host "wincommander:fleet-service-clear:v1" record record.credentialRevision

def connectionToken (record : Record) : String :=
  revisionToken host "wincommander:fleet-service-connection:v1" record record.connectionRevision

/-- The challenge is a fresh random identifier, when there is one. -/
def beginEnrollment (deviceId signerKey : String) (allowedOrigins : List String)
    (transportProfile : Option TransportProfile) (challenge : Option String) (state : State) :
    Except String (Change String) := do
  validateTrust host.toPlatform
    { orgId := "pending", deviceId, signerKey,
      enrollmentGeneration := "00000000-0000-4000-8000-000000000000" }
  let origins ← normalizeOrigins host.toPlatform allowedOrigins
  match transportProfile with
  | some profile => validateTransportProfile host.toPlatform profile
  | none => pure ()
  let challenge ← okOr challenge "random_unavailable"
  let pending := { deviceId, signerKey, challenge, origins, transportProfile }
  pure (some { state with pending := some pending }, challenge)

/-- The pending enrolment that a signature over its challenge completes. -/
def verifyEnrollment (state : State) (trust : FleetTrust) (signature : String) :
    Except String PendingEnrollment := do
  let pending ← okOr state.pending "enrollment_not_started"
  let origins ← normalizeOrigins host.toPlatform pending.origins
  refuseIf (origins ≠ pending.origins) "invalid_origin"
  match pending.transportProfile with
  | some profile => validateTransportProfile host.toPlatform profile
  | none => pure ()
  refuseIf (pending.deviceId ≠ trust.deviceId ∨ pending.signerKey ≠ trust.signerKey)
    "enrollment_binding_mismatch"
  refuseIf (trust.enrollmentGeneration ≠ toAsciiLowercase trust.enrollmentGeneration)
    "invalid_binding"
  refuseIf (verifySignatureB64 host.crypto trust.signerKey
    (stringsToVec ["wincommander:shield-progress:enrollment:v1", trust.orgId, trust.deviceId,
      trust.enrollmentGeneration, pending.challenge]) signature = false) "invalid_proof"
  pure pending

def provision (trust : FleetTrust) (signature actor : String) (unixTime : Option UInt64)
    (state : State) : Except String (Change Unit) := do
  validateTrust host.toPlatform trust
  refuseIf state.record.isSome "already_provisioned"
  let pending ← verifyEnrollment host state trust signature
  let entry ← trustAudit "provision" actor trust.enrollmentGeneration unixTime
  let record : Record :=
    { trust, policy := none, audit := [entry], contact := none, origins := pending.origins,
      transportProfile := pending.transportProfile, credential := none, credentialRevision := 0,
      connectionRevision := 0, cleared := none, runtimeProfileChanged := false,
      serviceEnabled := true }
  pure (some { record := some record, pending := none, contactChallenge := none }, ())

def replaceTrust (previous replacement : FleetTrust) (signature actor : String)
    (unixTime : Option UInt64) (state : State) : Except String (Change Unit) := do
  validateTrust host.toPlatform previous
  validateTrust host.toPlatform replacement
  refuseIf (toAsciiLowercase previous.enrollmentGeneration =
    toAsciiLowercase replacement.enrollmentGeneration) "generation_must_change"
  let current ← currentRecord state
  refuseIf (current.trust ≠ previous) "binding_changed"
  let pending ← verifyEnrollment host state replacement signature
  let entry ← trustAudit "reenroll" actor replacement.enrollmentGeneration unixTime
  let credentialRevision ← nextRevision current.credentialRevision
  let connectionRevision ← nextRevision current.connectionRevision
  let record : Record :=
    { trust := replacement, policy := none, audit := pushAudit current.audit entry,
      contact := none, origins := pending.origins, transportProfile := pending.transportProfile,
      credential := none, credentialRevision, connectionRevision, cleared := none,
      runtimeProfileChanged := false, serviceEnabled := true }
  pure (some { record := some record, pending := none, contactChallenge := none }, ())

def bindOrigins (expected : FleetTrust) (signature actor : String) (unixTime : Option UInt64)
    (state : State) : Except String (Change Unit) := do
  validateTrust host.toPlatform expected
  let current ← currentRecord state
  refuseIf (current.trust ≠ expected) "binding_changed"
  let pending ← verifyEnrollment host state expected signature
  if current.serviceEnabled = false ∨ current.origins ≠ pending.origins ∨
      current.transportProfile ≠ pending.transportProfile then
    let entry ← trustAudit "origins" actor expected.enrollmentGeneration unixTime
    let credentialRevision ← nextRevision current.credentialRevision
    let connectionRevision ← nextRevision current.connectionRevision
    let record : Record :=
      { current with
        audit := pushAudit current.audit entry
        origins := pending.origins
        transportProfile := pending.transportProfile
        credential := none
        credentialRevision
        runtimeProfileChanged := false
        serviceEnabled := true
        connectionRevision
        cleared := none }
    pure (some { record := some record, pending := none, contactChallenge := none }, ())
  else
    pure (some { record := some current, pending := none, contactChallenge := none }, ())

def observeRuntimeTransport (expected : FleetTrust) (observedOrigins : List String)
    (observedProfile : Option TransportProfile) (token : String) (state : State) :
    Except String (Change Bool) := do
  let current ← currentRecord state
  refuseIf (current.trust ≠ expected ∨ connectionToken host current ≠ token) "binding_changed"
  refuseIf (current.serviceEnabled = false) "service_disabled"
  if (normalizeOrigins host.toPlatform observedOrigins).toOption = some current.origins ∧
      observedProfile ≠ none ∧ current.transportProfile = observedProfile then pure (none, true)
  else if current.runtimeProfileChanged then pure (none, false)
  else
    let credentialRevision ← nextRevision current.credentialRevision
    let record : Record := { current with runtimeProfileChanged := true, credentialRevision }
    pure (some { state with record := some record }, false)

/-- No revision of the policy goes back, and one revision never names two settings. -/
def compareRevisions (old policy : PolicyEnvelope) : Except String Unit := do
  refuseIf (policy.shieldRevision < old.shieldRevision) "rollback"
  let oldRevision ← okOr old.configRevision "missing_config_revision"
  let revision ← okOr policy.configRevision "missing_config_revision"
  refuseIf (revision < oldRevision) "rollback"
  let oldResolution ← okOr old.resolutionRevision "missing_resolution_revision"
  let resolution ← okOr policy.resolutionRevision "missing_resolution_revision"
  refuseIf (resolution < oldResolution) "rollback"
  refuseIf (resolution = oldResolution ∧
    ((revision = oldRevision ∧ ¬ Option.Rel ConfigEpoch.Agree old.config policy.config) ∨
      (policy.shieldRevision = old.shieldRevision ∧ old.shield ≠ policy.shield)))
    "conflicting_revision"

def install (policy : PolicyEnvelope) (state : State) : Except String (Change Unit) := do
  let current ← currentRecord state
  verifyPolicy host.toPlatform current.trust policy
  match current.policy with
  | some old =>
    compareRevisions old policy
    if old.Agree policy then pure (none, ())
    else pure (some { state with record := some { current with policy := some policy } }, ())
  | none => pure (some { state with record := some { current with policy := some policy } }, ())

def credentialSnapshot (protector : Protector) (state : State) :
    Except String (Option CredentialSnapshot) := do
  match state.record with
  | none => pure none
  | some record =>
    if record.serviceEnabled = false then pure none
    else
      refuseIf record.runtimeProfileChanged "network_configuration_differs"
      match record.transportProfile, record.credential with
      | some profile, some credential =>
        validateTransportProfile host.toPlatform profile
        let origins ← normalizeOrigins host.toPlatform record.origins
        refuseIf (origins ≠ record.origins ∨ credential.origin ∉ record.origins)
          "origin_not_authorized"
        let ciphertext ← (host.crypto.b64Decode credential.ciphertext).mapError
          fun _ => "invalid_fleet_credential"
        refuseIf (host.crypto.b64Encode ciphertext ≠ credential.ciphertext)
          "invalid_fleet_credential"
        let secret ← unsealCredential host.toPlatform protector
          { orgId := record.trust.orgId, deviceId := record.trust.deviceId,
            enrollmentGeneration := record.trust.enrollmentGeneration,
            origin := credential.origin } ciphertext
        pure (some { trust := record.trust, origins := record.origins, profile,
                     revision := record.credentialRevision, secret })
      | _, _ => pure none

/-- The stored credential of the origin opens to the offered secret. -/
def alreadyStored (record : Record) (trust : FleetTrust) (origin : String) (secret : List UInt8)
    (protector : Protector) : Bool :=
  match record.credential.filter (·.origin = origin) with
  | none => false
  | some old =>
    match host.crypto.b64Decode old.ciphertext with
    | .error _ => false
    | .ok ciphertext =>
      (unsealCredential host.toPlatform protector
        { orgId := trust.orgId, deviceId := trust.deviceId,
          enrollmentGeneration := trust.enrollmentGeneration, origin } ciphertext).toOption =
        some secret

def prepareCandidate (trust : FleetTrust) (token : String) (observedOrigins : List String)
    (profile : TransportProfile) (origin : String) (secret : List UInt8) (protector : Protector)
    (state : State) : Except String (Change (Option CandidateContext)) := do
  refuseIf (secret.length ≠ 32) "invalid_fleet_credential"
  let record ← currentRecord state
  refuseIf (connectionToken host record ≠ token) "binding_changed"
  refuseIf (record.serviceEnabled = false) "service_disabled"
  refuseIf (record.trust ≠ trust ∨ record.transportProfile ≠ some profile)
    "transport_not_authorized"
  let origins ← normalizeOrigins host.toPlatform observedOrigins
  refuseIf (origins ≠ record.origins ∨ origin ∉ record.origins) "transport_not_authorized"
  validateTransportProfile host.toPlatform profile
  if record.runtimeProfileChanged = false ∧ alreadyStored host record trust origin secret protector
  then pure (none, none)
  else
    pure (none, some { trust, origins := record.origins, profile,
                       revision := record.credentialRevision,
                       connectionRevision := record.connectionRevision, origin })

def commitCandidate (context : CandidateContext) (secret : List UInt8) (protector : Protector)
    (state : State) : Except String (Change UInt64) := do
  let current ← currentRecord state
  refuseIf (current.serviceEnabled = false ∨ current.trust ≠ context.trust ∨
    current.origins ≠ context.origins ∨ current.transportProfile ≠ some context.profile ∨
    current.credentialRevision ≠ context.revision ∨
    current.connectionRevision ≠ context.connectionRevision ∨ context.origin ∉ current.origins)
    "binding_changed"
  let ciphertext ← sealCredential host.toPlatform protector
    { orgId := context.trust.orgId, deviceId := context.trust.deviceId,
      enrollmentGeneration := context.trust.enrollmentGeneration,
      origin := context.origin } secret
  let credentialRevision ← nextRevision current.credentialRevision
  let record : Record :=
    { current with
      credentialRevision
      credential := some { origin := context.origin,
                           ciphertext := host.crypto.b64Encode ciphertext }
      runtimeProfileChanged := false }
  pure (some { state with record := some record }, credentialRevision)

def startConnection (expected : FleetTrust) (token connToken : String) (state : State) :
    Except String (Change (String × String)) := do
  let current ← currentRecord state
  refuseIf (current.trust ≠ expected ∨ clearToken host current ≠ token ∨
    connectionToken host current ≠ connToken) "binding_changed"
  let credentialRevision ← nextRevision current.credentialRevision
  let connectionRevision ← nextRevision current.connectionRevision
  let record : Record := { current with credentialRevision, connectionRevision, cleared := none }
  pure (some { state with record := some record }, connectionToken host record,
    clearToken host record)

def clearCredential (token connToken : String) (state : State) : Except String (Change Bool) :=
  match state.record with
  | none => pure (none, false)
  | some record =>
    -- The receipt of a clear is acknowledged again without a change.
    if record.serviceEnabled = false ∧ record.credential = none ∧
        record.cleared = some ⟨token, connToken⟩ then pure (none, true)
    else if clearToken host record ≠ token ∨ connectionToken host record ≠ connToken then
      pure (none, false)
    else do
      let connectionRevision ← nextRevision record.connectionRevision
      let credentialRevision ← nextRevision record.credentialRevision
      let record : Record :=
        { record with
          credential := none
          serviceEnabled := false
          connectionRevision
          cleared := some ⟨token, connToken⟩
          credentialRevision }
      pure (some { state with record := some record, pending := none }, true)

end Operations

section Machine

variable {Key : Type} (host : Host Key)

/-- The file and the store that a running service has opened over it. -/
structure Machine where
  file : Option (List UInt8)
  memory : Option State

/-- What goes wrong when a store is opened. -/
structure OpenFaults where
  insecure : Bool
  read : Option String

/-- A missing file is an empty store. -/
def readState (file : Option (List UInt8)) (faults : OpenFaults) : Except String State :=
  match faults.read, file with
  | some kind, _ => if kind = "NotFound" then .ok State.default else .error "store_unavailable"
  | none, none => .ok State.default
  | none, some bytes => okOr (host.codec.fromSlice bytes) "invalid_store"

def checkRecord (record : Record) : Except String Unit := do
  validateTrust host.toPlatform record.trust
  match record.policy with
  | some policy => verifyPolicy host.toPlatform record.trust policy
  | none => pure ()

def openStore (file : Option (List UInt8)) (faults : OpenFaults) : Except String State := do
  refuseIf faults.insecure "insecure_store"
  let state ← readState host file faults
  match state.record with
  | some record => checkRecord host record
  | none => pure ()
  pure state

/-- The bytes of a state once they are in the file. -/
def persist (state : State) (writeFails : Bool) : Except String (List UInt8) := do
  let bytes ← okOr (host.codec.toVec state) "invalid_store"
  refuseIf writeFails "store_unavailable"
  pure bytes

/-- Decide, write, take over. -/
def Machine.perform {α : Type} (m : Machine) (writeFails : Bool) (op : State → Except String (Change α)) :
    Machine × Except String α :=
  match m.memory with
  | none => (m, .error "store_unavailable")
  | some state =>
    match op state with
    | .error e => (m, .error e)
    | .ok (none, answer) => (m, .ok answer)
    | .ok (some next, answer) =>
      match persist host next writeFails with
      | .error e => (m, .error e)
      | .ok bytes => ({ file := some bytes, memory := some next }, .ok answer)

/-- A new process opens the file or stays without a store. -/
def Machine.restart (m : Machine) (faults : OpenFaults) : Machine × Except String Unit :=
  match openStore host m.file faults with
  | .ok state => ({ m with memory := some state }, .ok ())
  | .error e => ({ m with memory := none }, .error e)

/-- The record in the file. -/
def Machine.durable (m : Machine) : Option Record :=
  (m.file.bind host.codec.fromSlice).bind State.record

/-- The record that the service works with. -/
def Machine.active (m : Machine) : Option Record := m.memory.bind State.record

/-- A record in memory is the record in the file. -/
def Machine.Synced (m : Machine) : Prop := ∀ r, m.active = some r → m.durable host = some r

variable {host}

theorem durable_of_read {bytes : List UInt8} {state : State}
    (h : host.codec.fromSlice bytes = some state) (memory : Option State) :
    Machine.durable host ⟨some bytes, memory⟩ = state.record := by
  rw [Machine.durable, Option.bind_some, h]
  rfl

theorem durable_of_persist {next : State} {writeFails : Bool} {bytes : List UInt8}
    (h : persist host next writeFails = .ok bytes) (memory : Option State) :
    Machine.durable host ⟨some bytes, memory⟩ = next.record := by
  simp only [persist, bind_ok, okOr_ok, pure_ok] at h
  obtain ⟨stored, hstored, _, _, rfl⟩ := h
  exact durable_of_read (host.codec.fromSlice_toVec hstored) memory

/-- An operation leaves the machine alone, or what it decided on the state in memory is now both
in the file and in memory. -/
theorem Machine.perform_cases {α : Type} (host : Host Key) (m : Machine) (writeFails : Bool)
    (op : State → Except String (Change α)) :
    (m.perform host writeFails op).1 = m ∨
    ∃ state next answer bytes, m.memory = some state ∧ op state = .ok (some next, answer) ∧
      persist host next writeFails = .ok bytes ∧
      m.perform host writeFails op = ({ file := some bytes, memory := some next }, .ok answer) := by
  unfold Machine.perform
  cases hmemory : m.memory with
  | none => exact Or.inl rfl
  | some state =>
    dsimp only
    cases hop : op state with
    | error e => exact Or.inl rfl
    | ok change =>
      obtain ⟨_ | next, answer⟩ := change
      · exact Or.inl rfl
      · dsimp only
        cases hpersist : persist host next writeFails with
        | error e => exact Or.inl rfl
        | ok bytes => exact Or.inr ⟨state, next, answer, bytes, rfl, hop, hpersist, rfl⟩

theorem Machine.perform_written {α : Type} {m : Machine} {writeFails : Bool}
    {op : State → Except String (Change α)} {state next : State} {answer : α} {bytes : List UInt8}
    (hmemory : m.memory = some state) (hop : op state = .ok (some next, answer))
    (hpersist : persist host next writeFails = .ok bytes) :
    m.perform host writeFails op = ({ file := some bytes, memory := some next }, .ok answer) := by
  simp only [Machine.perform, hmemory, hop, hpersist]

/-- A failed operation leaves the file and the memory alone. -/
theorem Machine.perform_error {α : Type} {m : Machine} {writeFails : Bool}
    {op : State → Except String (Change α)} {e : String}
    (h : (m.perform host writeFails op).2 = .error e) : (m.perform host writeFails op).1 = m := by
  rcases m.perform_cases host writeFails op with heq | ⟨_, _, answer, _, _, _, _, heq⟩
  · exact heq
  · rw [heq] at h
    exact absurd h (by simp)

/-- A successful operation decided its answer on the state in memory. -/
theorem Machine.perform_ok {α : Type} {m : Machine} {writeFails : Bool}
    {op : State → Except String (Change α)} {answer : α}
    (h : (m.perform host writeFails op).2 = .ok answer) :
    ∃ state next, m.memory = some state ∧ op state = .ok (next, answer) := by
  unfold Machine.perform at h
  cases hmemory : m.memory with
  | none => simp [hmemory] at h
  | some state =>
    refine ⟨state, ?_⟩
    simp only [hmemory] at h
    cases hop : op state with
    | error e => simp [hop] at h
    | ok change =>
      obtain ⟨_ | next, found⟩ := change
      · simp only [hop, Except.ok.injEq] at h
        exact ⟨none, rfl, by rw [h]⟩
      · simp only [hop] at h
        split at h
        · exact absurd h (by simp)
        · simp only [Except.ok.injEq] at h
          exact ⟨some next, rfl, by rw [h]⟩

private theorem readState_ok {file : Option (List UInt8)} {faults : OpenFaults} {state : State}
    (h : readState host file faults = .ok state) :
    state = State.default ∨ file.bind host.codec.fromSlice = some state := by
  unfold readState at h
  split at h
  · split at h
    · exact Or.inl (Except.ok.inj h).symm
    · exact absurd h (by simp)
  · exact Or.inl (Except.ok.inj h).symm
  · exact Or.inr (okOr_ok.mp h)

private theorem openStore_ok {file : Option (List UInt8)} {faults : OpenFaults} {state : State}
    (h : openStore host file faults = .ok state) :
    (state = State.default ∨ file.bind host.codec.fromSlice = some state) ∧
      ∀ r, state.record = some r → checkRecord host r = .ok () := by
  simp only [openStore, bind_ok, refuseIf_ok, exists_const] at h
  obtain ⟨_, loaded, hloaded, hchecked⟩ := h
  have hread := readState_ok hloaded
  cases hrecord : loaded.record with
  | none =>
    simp only [hrecord, pure_ok] at hchecked
    subst hchecked
    exact ⟨hread, fun r hr => absurd hr (by simp [hrecord])⟩
  | some r =>
    simp only [hrecord, bind_ok, pure_ok] at hchecked
    obtain ⟨⟨⟩, hcheck, rfl⟩ := hchecked
    refine ⟨hread, fun r' hr' => ?_⟩
    have heq : r = r' := Option.some.inj (hrecord.symm.trans hr')
    exact heq ▸ hcheck

/-- A file that can be read is opened when its record passes its checks. -/
theorem openStore_of_check {file : Option (List UInt8)} {bytes : List UInt8} {state : State}
    (hfile : file = some bytes) (hread : host.codec.fromSlice bytes = some state)
    (hcheck : ∀ r, state.record = some r → checkRecord host r = .ok ()) :
    openStore host file ⟨false, none⟩ = .ok state := by
  have hstate : readState host file ⟨false, none⟩ = .ok state := by
    rw [hfile]
    exact okOr_ok.mpr hread
  unfold openStore
  refine bind_ok.mpr ⟨(), refuseIf_neg _ (by simp), bind_ok.mpr ⟨state, hstate, ?_⟩⟩
  cases hrecord : state.record with
  | none => rfl
  | some r =>
    dsimp only
    rw [hcheck r hrecord]
    rfl

/-- A restart keeps the file; what it takes into memory is the record of the file, checked. -/
theorem Machine.restart_cases (host : Host Key) (m : Machine) (faults : OpenFaults) :
    (m.restart host faults).1.file = m.file ∧
      ((m.restart host faults).1.active = none ∨
        ∃ r, (m.restart host faults).1.active = some r ∧ m.durable host = some r ∧
          checkRecord host r = .ok ()) := by
  unfold Machine.restart
  cases hopen : openStore host m.file faults with
  | error e => exact ⟨rfl, Or.inl rfl⟩
  | ok state =>
    refine ⟨rfl, ?_⟩
    obtain ⟨hread, hcheck⟩ := openStore_ok hopen
    cases hrecord : state.record with
    | none => exact Or.inl hrecord
    | some r =>
      refine Or.inr ⟨r, hrecord, ?_, hcheck r hrecord⟩
      rcases hread with rfl | hfile
      · exact absurd hrecord (by simp [State.default])
      · rw [Machine.durable, hfile, Option.bind_some, hrecord]

end Machine

end FleetMachinePolicy
