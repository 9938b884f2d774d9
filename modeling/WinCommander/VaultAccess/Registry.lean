import Mathlib.Data.Finmap
import WinCommander.Library.Codec
import WinCommander.Library.Outcome
import WinCommander.VaultAccess.Types

/-!
# The registry of personal vaults

Reservations for containers that are being created, the records of those that were, and the
recoveries that wait for a mount to be cleaned up.  All of it is one file, replaced as a whole.
-/

namespace AccessStore

open Outcome

section Data

def personalCreationTtlSecs : ℤ := 600

def satAdd (a b : ℤ) : ℤ := min (a + b) (2 ^ 63 - 1)

structure PersonalVaultRecord where
  containerPath : String
  containerIdentity : String
  ownerSid : String
  scope : VaultPresentation
  createdBySession : ℕ
  syncthingOptIn : Option Bool
  deriving DecidableEq

structure AclSnapshot where
  path : String
  descriptor : List UInt8
  daclProtected : Bool
  deriving DecidableEq

structure LegacyRecoveryRecord where
  record : PersonalVaultRecord
  snapshots : List AclSnapshot
  deriving DecidableEq

inductive PersonalCreationLifecycle where
  | reserved
  | brokerCreated (containerIdentity : String)
  deriving DecidableEq

structure PendingPersonalVault where
  containerPath : String
  ownerSid : String
  createdBySession : ℕ
  clientPid : ℕ
  authenticationIdHigh : ℕ
  authenticationIdLow : ℤ
  operationId : ℕ
  reservationNonce : List UInt8
  reservedAt : ℤ
  expiresAt : ℤ
  lifecycle : PersonalCreationLifecycle
  deriving DecidableEq

structure PersonalVaultRegistry where
  records : List PersonalVaultRecord
  pending : List PendingPersonalVault
  legacyRecoveries : List LegacyRecoveryRecord
  deriving DecidableEq

structure PersonalCreationReservation where
  normalizedPath : String
  ownerSid : String
  createdBySession : ℕ
  clientPid : ℕ
  authenticationId : ℕ × ℤ
  operationId : ℕ
  reservationNonce : List UInt8
  deriving DecidableEq

structure PersonalCreationCaller where
  ownerSid : String
  sessionId : ℕ
  clientPid : ℕ
  authenticationId : ℕ × ℤ

def PendingPersonalVault.reservation (pending : PendingPersonalVault) :
    PersonalCreationReservation where
  normalizedPath := pending.containerPath
  ownerSid := pending.ownerSid
  createdBySession := pending.createdBySession
  clientPid := pending.clientPid
  authenticationId := (pending.authenticationIdHigh, pending.authenticationIdLow)
  operationId := pending.operationId
  reservationNonce := pending.reservationNonce

def reservationMatchesWithoutTime (pending : PendingPersonalVault)
    (reservation : PersonalCreationReservation) : Bool :=
  pending.containerPath = reservation.normalizedPath &&
    pending.ownerSid = reservation.ownerSid &&
    pending.createdBySession = reservation.createdBySession &&
    pending.clientPid = reservation.clientPid &&
    pending.authenticationIdHigh = reservation.authenticationId.1 &&
    pending.authenticationIdLow = reservation.authenticationId.2 &&
    pending.operationId = reservation.operationId &&
    pending.reservationNonce = reservation.reservationNonce

def reservationMatches (pending : PendingPersonalVault)
    (reservation : PersonalCreationReservation) (now : ℤ) : Bool :=
  pending.reservedAt ≤ now && now < pending.expiresAt &&
    reservationMatchesWithoutTime pending reservation

theorem reservationMatchesWithoutTime_iff {pending : PendingPersonalVault}
    {reservation : PersonalCreationReservation} :
    reservationMatchesWithoutTime pending reservation = true ↔ pending.reservation = reservation := by
  cases reservation
  simp [reservationMatchesWithoutTime, PendingPersonalVault.reservation, Prod.ext_iff, and_assoc]

theorem reservationMatches_iff {pending : PendingPersonalVault}
    {reservation : PersonalCreationReservation} {now : ℤ} :
    reservationMatches pending reservation now = true ↔
      pending.reservedAt ≤ now ∧ now < pending.expiresAt ∧ pending.reservation = reservation := by
  simp [reservationMatches, reservationMatchesWithoutTime_iff, and_assoc]

end Data

section Store

inductive RegistryFile where
  | absent
  | unreadable
  | present (bytes : List UInt8)
  deriving DecidableEq

abbrev Records := AList fun _ : String => PersonalVaultRecord

abbrev Pendings := AList fun _ : String => PendingPersonalVault

abbrev Recoveries := AList fun _ : String => LegacyRecoveryRecord

/-- The registry file and what the service holds of it. -/
structure Store where
  file : RegistryFile
  personal : Records
  pending : Pendings
  recoveries : Recoveries
  healthy : Bool

/-- Paths of the standard library and the JSON forms of the file.  Files of an older release hold
the records alone. -/
structure Platform where
  std : StdPath
  registry : Codec PersonalVaultRegistry
  legacyRecords : List UInt8 → Option (List PersonalVaultRecord)

/-- The file system and the access lists, as one call finds them.  The parent of a normalized path
is canonical. -/
structure World where
  normalizePersonalCreationPath : String → Except VaultError String
  normalize_regular : ∀ {path normalized},
    normalizePersonalCreationPath path = .ok normalized → Regular (personalKey normalized)
  personalCreationTargetExists : String → Except VaultError Bool
  personalCreationTargetIdentity : String → Except VaultError String
  stableFileIdentity : String → Except VaultError String
  impersonates : Bool
  snapshot : Except VaultError Unit
  applyContainerAndVerify : Except VaultError Unit
  verifyOneAcl : Bool
  writes : Bool

variable (platform : Platform)

def validPersonalRecord (record : PersonalVaultRecord) : Bool :=
  record.scope = .perUser && record.ownerSid ≠ "" && record.containerIdentity ≠ "" &&
    platform.std.isAbsolute record.containerPath && record.createdBySession ≠ 0

def validPendingPersonal (pending : PendingPersonalVault) : Bool :=
  pending.ownerSid ≠ "" && validCreationPath platform.std pending.containerPath &&
    pending.createdBySession ≠ 0 && pending.clientPid ≠ 0 && pending.operationId ≠ 0 &&
    pending.reservationNonce.length = 32 && pending.reservationNonce.any (· ≠ 0) &&
    0 < pending.reservedAt &&
    pending.expiresAt = satAdd pending.reservedAt personalCreationTtlSecs

def validLegacyRecovery (recovery : LegacyRecoveryRecord) : Bool :=
  validPersonalRecord platform recovery.record && recovery.snapshots ≠ [] &&
    recovery.snapshots.all fun snapshot => snapshot.path = recovery.record.containerPath

/-- A map of values under their keys; a later value replaces an earlier one. -/
def collect {α : Type} (key : α → String) (values : List α) : AList fun _ : String => α :=
  values.foldl (fun m value => m.insert (key value) value) ∅

def values {α : Type} (m : AList fun _ : String => α) : List α := m.entries.map Sigma.snd

def Store.contents (s : Store) : PersonalVaultRegistry where
  records := values s.personal
  pending := values s.pending
  legacyRecoveries := values s.recoveries

/-- Replace the file by what the service holds. -/
def persistPersonal (world : World) (s : Store) : Bool × Store :=
  match platform.registry.toVec s.contents with
  | none => (false, s)
  | some bytes => if world.writes then (true, { s with file := .present bytes }) else (false, s)

def parseRegistry (bytes : List UInt8) : Option PersonalVaultRegistry :=
  match platform.registry.fromSlice bytes with
  | some registry => some registry
  | none => (platform.legacyRecords bytes).map fun records => ⟨records, [], []⟩

/-- A recovery journal is taken as a whole: every recovery is valid, and for another container. -/
def validRecoveries (recoveries : List LegacyRecoveryRecord) : Bool :=
  recoveries.all (validLegacyRecovery platform) &&
    decide (recoveries.map fun recovery => personalKey recovery.record.containerPath).Nodup

def Store.empty (file : RegistryFile) (healthy : Bool) : Store := ⟨file, ∅, ∅, ∅, healthy⟩

/-- The registry at startup.  A recovery is over when its mount was cleaned up and its access list
could be restored. -/
def loadRegistry (world : World) (now : ℤ) (recovered : String → Bool)
    (restores : LegacyRecoveryRecord → Bool) (file : RegistryFile) : Store :=
  match file with
  | .absent => Store.empty file true
  | .unreadable => Store.empty file false
  | .present bytes =>
    match parseRegistry platform bytes with
    | none => Store.empty file false
    | some registry =>
      if validRecoveries platform registry.legacyRecoveries = false then Store.empty file false
      else
        let left := registry.legacyRecoveries.filter fun recovery =>
          !recovered recovery.record.containerIdentity || !restores recovery
        let personal := collect (fun record => personalKey record.containerPath)
          (registry.records.filter (validPersonalRecord platform))
        let pending := collect (fun pending => personalKey pending.containerPath)
          (((registry.pending.filter (validPendingPersonal platform)).filter
            (fun pending => now < pending.expiresAt)).filter
              fun pending => (personal.lookup (personalKey pending.containerPath)).isNone)
        let s : Store := {
          file := file
          personal := personal
          pending := pending
          recoveries := collect (fun recovery => personalKey recovery.record.containerPath) left
          healthy := left = [] }
        if registry.legacyRecoveries = [] then s
        else
          let saved := persistPersonal platform world s
          if saved.1 then saved.2 else { saved.2 with healthy := false }

end Store

section Operations

variable (platform : Platform) (world : World)

/-- Run an operation as the caller. -/
def withCallerImpersonation {α : Type} (operation : Except VaultError α) : Except VaultError α :=
  if world.impersonates then operation else .error .aclReadback

/-- Two keys name one reservation: they are equal, or one is the other spelling of the other. -/
def heldUnder (key key' : String) : Prop := key' = key ∨ key' = personalKeyAlias key

instance (key key' : String) : Decidable (heldUnder key key') := inferInstanceAs (Decidable (_ ∨ _))

def liveAt (now : ℤ) (pending : PendingPersonalVault) : Bool := now < pending.expiresAt

/-- The call for which a reservation was made. -/
def sameCall (caller : PersonalCreationCaller) (operationId : ℕ) (existing : PendingPersonalVault) :
    Bool :=
  existing.ownerSid = caller.ownerSid && existing.createdBySession = caller.sessionId &&
    existing.clientPid = caller.clientPid &&
    existing.authenticationIdHigh = caller.authenticationId.1 &&
    existing.authenticationIdLow = caller.authenticationId.2 && existing.operationId = operationId

def newPending (caller : PersonalCreationCaller) (operationId : ℕ) (now : ℤ) (normalized : String)
    (nonce : List UInt8) : PendingPersonalVault where
  containerPath := normalized
  ownerSid := caller.ownerSid
  createdBySession := caller.sessionId
  clientPid := caller.clientPid
  authenticationIdHigh := caller.authenticationId.1
  authenticationIdLow := caller.authenticationId.2
  operationId := operationId
  reservationNonce := nonce
  reservedAt := now
  expiresAt := satAdd now personalCreationTtlSecs
  lifecycle := .reserved

/-- Why a container name cannot be reserved. -/
def refuseReservation (s : Store) (active : Option PersistedPolicy) (pending : PendingPersonalVault)
    (caller : PersonalCreationCaller) (now : ℤ) : Except VaultError Unit := do
  let key := personalKey pending.containerPath
  let other := personalKeyAlias key
  refuseIf ((active.any fun active => activePolicyClaimsCreationPath active pending.containerPath) =
    true) .policyPathReserved
  refuseIf (key ∈ s.recoveries ∨ other ∈ s.recoveries) .validation
  refuseIf (1 < ([key, other].filter fun candidate => candidate ∈ s.personal).length) .validation
  refuseIf ([key, other].any fun candidate => (s.pending.lookup candidate).any (liveAt now)) .validation
  refuseIf ((values s.pending).any fun existing =>
    liveAt now existing && sameCall caller pending.operationId existing) .validation

/-- The store with a reservation in place of whatever stood under its key. -/
def Store.withReservation (s : Store) (pending : PendingPersonalVault) : Store :=
  let key := personalKey pending.containerPath
  let other := personalKeyAlias key
  let reclaimed := [key, other].find? fun candidate => candidate ∈ s.personal
  { s with
    personal := match reclaimed with
      | some candidate => s.personal.erase candidate
      | none => s.personal
    pending := ((s.pending.erase key).erase other).insert key pending }

/-- What is undone when a reservation could not be saved. -/
def Store.withoutReservation (s reserved : Store) (key : String) : Store :=
  let reclaimed := [key, personalKeyAlias key].find? fun candidate => candidate ∈ s.personal
  { reserved with
    pending := reserved.pending.erase key
    personal := match reclaimed with
      | some candidate =>
        match s.personal.lookup candidate with
        | some record => reserved.personal.insert candidate record
        | none => reserved.personal
      | none => reserved.personal }

def reservePersonalRegistration (s : Store) (active : Option PersistedPolicy) (normalized : String)
    (caller : PersonalCreationCaller) (operationId : ℕ) (now : ℤ) (nonce : Option (List UInt8)) :
    Except VaultError PersonalCreationReservation × Store :=
  match nonce with
  | none => (.error .persistence, s)
  | some nonce =>
    let pending := newPending caller operationId now normalized nonce
    match refuseReservation s active pending caller now with
    | .error e => (.error e, s)
    | .ok () =>
      let saved := persistPersonal platform world (s.withReservation pending)
      if saved.1 then (.ok pending.reservation, saved.2)
      else (.error .persistence, s.withoutReservation saved.2 (personalKey normalized))

def beginPersonalRegistrationAsCaller (s : Store) (active : Option PersistedPolicy)
    (containerPath : String) (caller : PersonalCreationCaller) (operationId : ℕ) (now : ℤ)
    (nonce : Option (List UInt8)) : Except VaultError PersonalCreationReservation × Store :=
  if caller.ownerSid = "" ∨ caller.sessionId = 0 ∨ caller.clientPid = 0 ∨ operationId = 0 ∨ now ≤ 0 ∨
      validCreationPath platform.std containerPath = false then
    (.error .validation, s)
  else
    let vacant : Except VaultError String := withCallerImpersonation world do
      let normalized ← world.normalizePersonalCreationPath containerPath
      refuseIf (validCreationPath platform.std normalized = false) .validation
      let exists_ ← world.personalCreationTargetExists normalized
      refuseIf (exists_ = true) .validation
      pure normalized
    match vacant with
    | .error e => (.error e, s)
    | .ok normalized =>
      reservePersonalRegistration platform world s active normalized caller operationId now nonce

/-- The store with a reservation in another phase. -/
def Store.setPending (s : Store) (key : String) (pending : PendingPersonalVault) : Store :=
  { s with pending := s.pending.insert key pending }

def recordPersonalBrokerCompletionWithIdentity (s : Store)
    (reservation : PersonalCreationReservation) (identity : String) (now : ℤ) :
    Except VaultError Unit × Store :=
  let key := personalKey reservation.normalizedPath
  match s.pending.lookup key with
  | none => (.error .validation, s)
  | some pending =>
    if reservationMatches pending reservation now = false ∨ pending.lifecycle ≠ .reserved then
      (.error .validation, s)
    else
      let saved := persistPersonal platform world
        (s.setPending key { pending with lifecycle := .brokerCreated identity })
      if saved.1 then (.ok (), saved.2)
      else (.error .persistence, saved.2.setPending key { pending with lifecycle := .reserved })

def recordPersonalBrokerCompletionAsCaller (s : Store) (reservation : PersonalCreationReservation)
    (brokerPath : String) (now : ℤ) : Except VaultError String × Store :=
  let found : Except VaultError String := withCallerImpersonation world do
    let normalized ← world.normalizePersonalCreationPath brokerPath
    refuseIf (personalKey normalized ≠ personalKey reservation.normalizedPath) .validation
    world.personalCreationTargetIdentity reservation.normalizedPath
  match found with
  | .error e => (.error e, s)
  | .ok identity =>
    let recorded := recordPersonalBrokerCompletionWithIdentity platform world s reservation identity now
    (recorded.1.map fun _ => identity, recorded.2)

def newRecord (pending : PendingPersonalVault) (identity : String) : PersonalVaultRecord where
  containerPath := pending.containerPath
  containerIdentity := identity
  ownerSid := pending.ownerSid
  scope := .perUser
  createdBySession := pending.createdBySession
  syncthingOptIn := some false

/-- The first protection of a container, by its creator, and its check by the service. -/
def protectContainer (path identity : String) : Except VaultError Unit := do
  refuseIf (platform.std.hasParent path = false) .validation
  withCallerImpersonation world world.snapshot
  withCallerImpersonation world world.applyContainerAndVerify
  refuseIf ((world.personalCreationTargetIdentity path).toOption ≠ some identity) .containerIdentity
  refuseIf (world.verifyOneAcl = false) .aclReadback

/-- The store with a record in place of a reservation. -/
def Store.withRecord (s : Store) (key : String) (record : PersonalVaultRecord) : Store :=
  { s with pending := s.pending.erase key, personal := s.personal.insert key record }

/-- The store with a reservation in place of a record. -/
def Store.withoutRecord (s : Store) (key : String) (pending : PendingPersonalVault) : Store :=
  { s with personal := s.personal.erase key, pending := s.pending.insert key pending }

def Store.withoutPending (s : Store) (key : String) : Store :=
  { s with pending := s.pending.erase key }

def completePersonalRegistrationAsCaller (s : Store) (reservation : PersonalCreationReservation)
    (now : ℤ) : Except VaultError PersonalVaultRecord × Store :=
  let key := personalKey reservation.normalizedPath
  match s.pending.lookup key with
  | none => (.error .validation, s)
  | some pending =>
    if reservationMatches pending reservation now = false then (.error .validation, s)
    else
      match pending.lifecycle with
      | .reserved => (.error .validation, s)
      | .brokerCreated identity =>
        match protectContainer platform world pending.containerPath identity with
        | .error e => (.error e, s)
        | .ok () =>
          let record := newRecord pending identity
          let saved := persistPersonal platform world (s.withRecord key record)
          if saved.1 then (.ok record, saved.2)
          else (.error .persistence, saved.2.withoutRecord key pending)

/-- A cancellation reports nothing; the result says whether it took place. -/
def cancelPersonalRegistration (s : Store) (reservation : PersonalCreationReservation) :
    Bool × Store :=
  let key := personalKey reservation.normalizedPath
  match s.pending.lookup key with
  | none => (false, s)
  | some pending =>
    if reservationMatchesWithoutTime pending reservation = false then (false, s)
    else
      let saved := persistPersonal platform world (s.withoutPending key)
      if saved.1 then (true, saved.2) else (false, saved.2.setPending key pending)

/-- Is a record found under a path, in one of the spellings or by resolving its own path? -/
def namesPath (normalizedKey requestedKey : String) (key : String) (record : PersonalVaultRecord) :
    Bool :=
  key = normalizedKey || key = requestedKey || key = personalKeyAlias normalizedKey ||
    key = personalKeyAlias requestedKey ||
    (world.normalizePersonalCreationPath record.containerPath).toOption.any
      fun path => personalKey path = normalizedKey

def personalRecordForPath (s : Store) (containerPath : String) :
    Except VaultError (Option PersonalVaultRecord) := do
  let normalized ← world.normalizePersonalCreationPath containerPath
  refuseIf (s.healthy = false) .persistence
  let found := s.personal.entries.filter fun entry =>
    namesPath world (personalKey normalized) (personalKey containerPath) entry.1 entry.2
  refuseIf (1 < found.length) .persistence
  pure (found.head?.map Sigma.snd)

inductive PersonalVaultRegistrationState where
  | callerOwned
  | registeredElsewhere
  | identityChanged
  | unregistered
  deriving DecidableEq

def personalRegistrationState (s : Store) (containerPath callerSid : String) :
    Except VaultError PersonalVaultRegistrationState := do
  let record ← personalRecordForPath world s containerPath
  match record with
  | none => pure .unregistered
  | some record =>
    if record.ownerSid ≠ callerSid ∨ record.scope ≠ .perUser then pure .registeredElsewhere
    else
      let identity ← world.stableFileIdentity record.containerPath
      pure (if identity = record.containerIdentity then .callerOwned else .identityChanged)

def personalSyncthingOptIn (s : Store) (containerPath containerIdentity ownerSid : String) :
    Except VaultError (Option Bool) := do
  refuseIf (s.healthy = false) .persistence
  let record ← okOr ((values s.personal).find? (·.containerPath = containerPath)) .forbidden
  refuseIf (record.containerIdentity ≠ containerIdentity ∨ record.ownerSid ≠ ownerSid) .forbidden
  pure record.syncthingOptIn

def setPersonalSyncthingOptIn (s : Store) (containerPath containerIdentity ownerSid : String)
    (optIn : Option Bool) : Except VaultError Unit × Store :=
  if s.healthy = false then (.error .persistence, s)
  else
    match s.personal.entries.find? (fun entry => entry.2.containerPath = containerPath) with
    | none => (.error .forbidden, s)
    | some entry =>
      if entry.2.containerIdentity ≠ containerIdentity ∨ entry.2.ownerSid ≠ ownerSid then
        (.error .forbidden, s)
      else
        let saved := persistPersonal platform world { s with
          personal := s.personal.insert entry.1 { entry.2 with syncthingOptIn := optIn } }
        if saved.1 then (.ok (), saved.2)
        else (.error .persistence, { saved.2 with personal := saved.2.personal.insert entry.1 entry.2 })

end Operations

end AccessStore
