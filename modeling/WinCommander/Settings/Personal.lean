import WinCommander.Library.Run
import WinCommander.Settings.Scope

/-!
# Personal settings

The preferences of a Windows account are one record of a service that needs no password.  Secrets
among them are sealed with a key of the account and ride in the record as an envelope.  Before there
was a service, everything was in one sealed file of the account, and a record may still refer to it.
-/

namespace PersonalSettings

open Json Settings Outcome

def secretEnvelope : String := "_personalSecrets"

def maxPersonalSettingsBytes : ℕ := 2 * 1024 * 1024

def secretPaths : List (List String) := [
  ["app", "flowSigningSeedB64"],
  ["app", "flows"],
  ["app", "proFlows"],
  ["app", "contingency"],
  ["ideal", "privacy", "distressPhrases"],
  ["current", "privacy", "distressPhrases"]]

/-- The contingency settings of an account that configured none. -/
def contingencyDefault : Value := .object [
  ("hmacKey", .string ""),
  ("identities", .object []),
  ("myIndex", .number ⟨['0'], by decide, by simp [isNumberChar]⟩),
  ("serverTailscaleIp", .string ""),
  ("signalTransport", .string "taildrop"),
  ("usbGateEnabled", .bool false),
  ("usbKeyDeviceId", .null),
  ("webhookPort", .number ⟨['4', '7', '8', '2', '1'], by decide, by simp [isNumberChar]⟩)]

/-- A value at a secret path that is not worth sealing. -/
def isEmptySecret (path : List String) : Value → Bool
  | .null => true
  | .string s => s = ""
  | .array es => es = []
  | secret => path = ["app", "contingency"] && secret = contingencyDefault

/-- Move the value at one secret path from the preferences to the secrets. -/
def splitPath (parts : Value × Value) (path : List String) : Value × Value :=
  match parts.1.takePath path with
  | (none, _) => parts
  | (some secret, rest) =>
    (rest, if isEmptySecret path secret then parts.2 else Value.setPath path secret parts.2)

/-- The preferences without the secrets, and the secrets. -/
def splitSecrets (value : Value) : Value × Value :=
  secretPaths.foldl splitPath (value, .object [])

/-- The preferences with the secrets put back. -/
def mergeSecrets (ordinary secrets : Value) : Value :=
  secretPaths.foldl (fun o path =>
    match secrets.atPath path with
    | some secret => Value.setPath path secret o
    | none => o) ordinary

/-- What the settings of an account rest on: the reader and the writer of JSON, and the seal of the
account's key. -/
structure Host where
  fromSlice : List UInt8 → Except String Value
  toVec : Value → List UInt8
  decodeUserBlob : String → Option (List UInt8)
  encodeUserBlob : List UInt8 → Except String String
  decodeUserSecrets : String → Option (List UInt8)
  encodeUserSecrets : List UInt8 → Bool → Except String String

def startsWith (text pre : String) : Bool := pre.toList.isPrefixOf text.toList

def maxPersonalSecretsBytes : ℕ := 1048576

/-- The bounds and the format tag of an envelope. -/
def validateUserSecretsEnvelope (encoded : String) : Except String Unit := do
  refuseIf (maxPersonalSecretsBytes * 2 + 128 < encoded.utf8ByteSize)
    "Personal secrets exceed the size limit"
  refuseIf (startsWith encoded "enc:v2:" = false) "Personal secrets encryption format is invalid"

def settingsKeyUnavailable : String :=
  "SETTINGS_KEY_UNAVAILABLE: Could not unlock settings key; existing key and encrypted data preserved."

def keyUnavailable (error : String) : Bool :=
  startsWith error "SETTINGS_KEY_UNAVAILABLE:" ||
    startsWith error "Settings key is missing but encrypted data exists;"

/-- The service cannot be reached; a record that it refuses to give is not such a case. -/
def serviceUnavailable (error : String) : Bool :=
  startsWith error "service connect failed:" || error = "service connection failed" ||
    error = "Vault access service is available only on Windows" ||
    error = "service reply timed out" || error = "service Hello acknowledgement timed out" ||
    startsWith error "service rejected request: unknown_verb "

section Secrets

variable (host : Host)

/-- The account's key, while Windows gives access to it. -/
def withKey {α : Type} (key : Bool) (read : Except String α) : Except String α :=
  if key then read else .error settingsKeyUnavailable

def parseSecrets (bytes : List UInt8) : Except String Value := do
  let value ← (host.fromSlice bytes).mapError fun _ => "Personal secrets storage could not be parsed"
  refuseIf (¬ value.isObject) "Personal secrets storage is invalid"
  pure (splitSecrets value).2

/-- The secrets in an envelope. -/
def openSecrets (key : Bool) (encoded : String) : Except String Value := do
  validateUserSecretsEnvelope encoded
  let bytes ← withKey key
    (okOr (host.decodeUserSecrets encoded) "Personal secrets could not be decoded")
  parseSecrets host bytes

def sealSecrets (key : Bool) (secrets : Value) (requireExisting : Bool) : Except String String :=
  withKey key (host.encodeUserSecrets (host.toVec (splitSecrets secrets).2) requireExisting)

/-- The secrets in the sealed file.  Without a file the key is not asked for. -/
def loadSecrets (key : Bool) : Option String → Except String Value
  | none => .ok (.object [])
  | some encoded => do
    let bytes ← withKey key
      (okOr (host.decodeUserBlob encoded) "per-user data could not be decoded")
    parseSecrets host bytes

/-- The settings in the sealed file.  The key is asked for before the file is looked at. -/
def loadLegacyUserSettingsOverlay (key : Bool) (file : Option String) :
    Except String (Option Value) :=
  withKey key <|
    match file with
    | none => .ok none
    | some encoded => do
      let bytes ← okOr (host.decodeUserBlob encoded) "per-user data could not be decoded"
      let value ← (host.fromSlice bytes).mapError
        fun error => "Failed to parse per-user settings: " ++ error
      pure (some value)

end Secrets

inductive Mode where
  | service
  | legacy
  | temporary
  deriving DecidableEq

/-- A record has a value from its first revision on. -/
structure PersonalSettingsRecord where
  revision : UInt64
  value : Option Value
  legacyRecoveryRequired : Bool
  revised : revision ≠ 0 ↔ value.isSome = true

structure Session where
  mode : Mode
  revision : UInt64
  legacyOverlayPendingMigration : Bool
  legacyRecoveryRequired : Bool
  secretsLocked : Bool
  secrets : Value
  protectedSecrets : Option String
  safeDefaults : Bool

/-- The session that a load starts from. -/
def Session.start (record : Option PersonalSettingsRecord) : Session where
  mode := if record.isSome then .service else .legacy
  revision := (record.map (·.revision)).getD 0
  legacyOverlayPendingMigration := false
  legacyRecoveryRequired := (record.map (·.legacyRecoveryRequired)).getD false
  secretsLocked := false
  secrets := .object []
  protectedSecrets := none
  safeDefaults := false

section Load

/-- The envelope of a record's value: a sealed text, an empty one, or none. -/
inductive Envelope where
  | sealed (text : String)
  | empty
  | absent

/-- Take the envelope out of the value of a record. -/
def takeEnvelope (value : Value) : Except String (Envelope × Value) :=
  let rest := match value with
    | .object ms => .object (erase secretEnvelope ms)
    | other => other
  match value.get secretEnvelope with
  | some (.string text) => .ok (.sealed text, rest)
  | some .null => .ok (.empty, rest)
  | none => .ok (.absent, rest)
  | _ => .error "Invalid personal secrets envelope"

/-- The sealed text of an envelope. -/
def Envelope.text : Envelope → Option String
  | .sealed text => some text
  | _ => none

/-- Where the secrets of a record are: in its envelope, nowhere, or in a file. -/
def Envelope.read (secretReader : Except String Value)
    (openEnvelope : String → Except String Value) : Envelope → Except String Value
  | .sealed text => openEnvelope text
  | .empty => .ok (.object [])
  | .absent => secretReader

/-- The session and the preferences once the secrets were asked for. -/
def Session.unlock (state : Session) (ordinary : Value) (secretResult : Except String Value) :
    Except String (Session × Value) :=
  match secretResult with
  | .ok secret => .ok ({ state with secrets := secret }, mergeSecrets ordinary secret)
  | .error error =>
    if keyUnavailable error then .ok ({ state with secretsLocked := true }, ordinary)
    else .error error

/-- Access to the key unlocks what a record still refers to, and newer preferences stay. -/
def Session.recoverLegacy (state : Session) (ordinary : Value)
    (legacy : Except String (Option Value)) : Except String (Session × Value) :=
  if state.legacyRecoveryRequired && !state.secretsLocked then
    match legacy with
    | .ok (some old) =>
      if state.protectedSecrets = none then do
        let (_, user) ← splitSettingsValue old
        let secrets := (splitSecrets user).2
        pure ({ state with legacyRecoveryRequired := false, secrets := secrets },
          mergeSecrets ordinary secrets)
      else .ok ({ state with legacyRecoveryRequired := false }, ordinary)
    | .ok none => .ok ({ state with secretsLocked := true }, ordinary)
    | .error error =>
      if keyUnavailable error then .ok ({ state with secretsLocked := true }, ordinary)
      else .error error
  else .ok (state, ordinary)

/-- The load of a record that has a value. -/
def loadRecord (state : Session) (value : Value) (legacy : Except String (Option Value))
    (secretReader : Except String Value) (openEnvelope : String → Except String Value) :
    Except String (Session × Option Value) := do
  let (envelope, rest) ← takeEnvelope value
  let secretResult := envelope.read secretReader openEnvelope
  let (_, user) ← splitSettingsValue rest
  let state := { state with protectedSecrets := envelope.text }
  let (state, ordinary) ← state.unlock (splitSecrets user).1 secretResult
  let (state, ordinary) ← state.recoverLegacy ordinary legacy
  pure (state, some ordinary)

/-- The load of an account for which the service has no value. -/
def loadLegacy (state : Session) (legacy : Except String (Option Value)) :
    Except String (Session × Option Value) :=
  match legacy with
  | .ok none => .ok (state, none)
  | .ok (some value) => do
    let (_, user) ← splitSettingsValue value
    pure ({ state with
      legacyOverlayPendingMigration := state.mode = .service
      secrets := (splitSecrets user).2 }, some user)
  | .error error =>
    if keyUnavailable error then
      .ok ({ state with
        legacyRecoveryRequired := true
        secretsLocked := true
        safeDefaults := true
        mode := if state.mode = .service then .service else .temporary }, none)
    else .error error

/-- The record of the service, or none if it is not there to ask. -/
def reachedRecord (service : Except String PersonalSettingsRecord) :
    Except String (Option PersonalSettingsRecord) :=
  match service with
  | .ok record => .ok (some record)
  | .error error => if serviceUnavailable error then .ok none else .error error

def loadWithOpen (service : Except String PersonalSettingsRecord) (migrated : Bool)
    (legacy : Except String (Option Value)) (secretReader : Except String Value)
    (openEnvelope : String → Except String Value) : Except String (Session × Option Value) := do
  let record ← reachedRecord service
  refuseIf (migrated = true ∧ record.any (·.value.isNone) = true)
    "Personal settings service data is missing; original data preserved"
  let state := Session.start record
  match record.bind (·.value) with
  | some value => loadRecord state value legacy secretReader openEnvelope
  | none =>
    if migrated then pure ({ state with mode := .temporary, safeDefaults := true }, none)
    else loadLegacy state legacy

end Load

/-- What the service and the account's directory hold, and what the process keeps in memory. -/
structure World where
  record : PersonalSettingsRecord
  file : Option String
  migrated : Bool
  session : Option Session
  published : Mode

/-- A process that has not loaded the personal settings. -/
def World.off (record : PersonalSettingsRecord) (file : Option String) (migrated : Bool) : World :=
  ⟨record, file, migrated, none, .temporary⟩

/-- What a load meets: the key, the service's failure if it fails, a decoy session, and faults of
the migration marker. -/
structure LoadEnv where
  key : Bool
  serviceError : Option String
  decoy : Bool
  markerUnreadable : Bool
  markerFails : Bool

/-- How the service answers a write: in its own words, or with an error that says nothing about
what it did. -/
inductive WriteReply where
  | answered
  | lost (committed : Bool) (error : String)

/-- What a save meets.  A session that began without the service is loaded again. -/
structure SaveEnv where
  reload : LoadEnv
  reply : WriteReply

inductive Call where
  | load (env : LoadEnv)
  | save (settings : Value) (env : SaveEnv)

private theorem add_one_ne_zero_of_lt {n : UInt64} (h : n.toNat + 1 < 2 ^ 64) : n + 1 ≠ 0 := by
  intro heq
  have hnat := congrArg UInt64.toNat heq
  rw [UInt64.toNat_add] at hnat
  simp at hnat
  omega

section Step

variable (host : Host)

def markMigrated (migrated fails : Bool) : Except String Bool :=
  if migrated then .ok true
  else if fails then .error "Could not inspect personal settings migration state"
  else .ok true

/-- The session of a load, what it resolves, and the migration marker after it. -/
def loadCurrentSession (w : World) (env : LoadEnv) : Except String (Session × Option Value × Bool) := do
  let service := match env.serviceError with
    | none => .ok w.record
    | some error => .error error
  refuseIf (env.markerUnreadable = true) "Could not inspect personal settings migration state"
  let (state, value) ← loadWithOpen service w.migrated
    (loadLegacyUserSettingsOverlay host env.key w.file) (loadSecrets host env.key w.file)
    (openSecrets host env.key)
  if state.mode = .service ∧ 0 < state.revision ∧ env.decoy = false then
    let migrated ← markMigrated w.migrated env.markerFails
    pure (state, value, migrated)
  else pure (state, value, w.migrated)

def World.load (w : World) (env : LoadEnv) : World :=
  match loadCurrentSession host w env with
  | .ok (state, _, migrated) =>
    { w with session := some state, migrated := migrated, published := state.mode }
  | .error _ => { w with published := .temporary }

def recoveredSettingsReloadRequired : String :=
  "Personal settings service recovered. Refresh settings before saving so newer preferences are preserved."

structure WritePersonalSettingsRequest where
  expectedRevision : UInt64
  value : Value
  legacyRecoveryRequired : Bool

/-- The service's own decision on a write. -/
def execute (current : PersonalSettingsRecord) (request : WritePersonalSettingsRequest) :
    Except String PersonalSettingsRecord := do
  refuseIf (¬ request.value.isObject ∨ maxPersonalSettingsBytes < (host.toVec request.value).length)
    "service rejected request: personal_settings_invalid (personal_settings_invalid)"
  refuseIf (request.expectedRevision ≠ current.revision)
    "service rejected request: personal_settings_conflict (personal_settings_conflict)"
  if h : current.revision.toNat + 1 < 2 ^ 64 then
    pure ⟨current.revision + 1, some request.value,
      current.legacyRecoveryRequired || request.legacyRecoveryRequired,
      by simp [add_one_ne_zero_of_lt h]⟩
  else
    throw "service rejected request: personal_settings_revision_exhausted (personal_settings_revision_exhausted)"

/-- The record after a write, and what the writer learns. -/
@[grind =]
def serviceWrite (current : PersonalSettingsRecord) (request : WritePersonalSettingsRequest) :
    WriteReply → PersonalSettingsRecord × Except String PersonalSettingsRecord
  | .answered =>
    match execute host current request with
    | .ok record => (record, .ok record)
    | .error error => (current, .error error)
  | .lost committed error =>
    match execute host current request with
    | .ok record => (if committed then record else current, .error error)
    | .error _ => (current, .error error)

/-- The write took effect, as far as the service allows it. -/
def WriteReply.commits : WriteReply → Bool
  | .answered => true
  | .lost committed _ => committed

def envelopeValue : Option String → Value
  | none => .null
  | some text => .string text

/-- The envelope that a save puts into the record. -/
def envelopeToSave (state : Session) (key : Bool) (secret : Value) :
    Except String (Option String) := do
  let changed := decide (secret ≠ state.secrets)
  refuseIf (changed = true ∧ state.secretsLocked = true)
    "Personal secrets are locked; restore the original Windows encryption access before changing them"
  if state.secretsLocked then pure state.protectedSecrets
  else if secret = .object [] ∧ ¬ (changed = true ∧ state.protectedSecrets.isSome = true) then
    pure none
  else if changed = true ∨ state.protectedSecrets = none then do
    let text ← sealSecrets host key secret state.protectedSecrets.isSome
    pure (some text)
  else pure state.protectedSecrets

/-- What a save asks the service to write. -/
def Session.request (state : Session) (ordinary : Value) (protectedSecrets : Option String) :
    WritePersonalSettingsRequest :=
  ⟨state.revision,
    .object (insert secretEnvelope (envelopeValue protectedSecrets) ordinary.members),
    state.legacyRecoveryRequired⟩

/-- The session after a save that the service answered. -/
def Session.saved (state : Session) (secrets : Value) (protectedSecrets : Option String)
    (record : PersonalSettingsRecord) : Session :=
  { state with
    revision := record.revision
    secrets := secrets
    protectedSecrets := protectedSecrets }

/-- The record after a save, and the session if it succeeds. -/
def saveServiceWith (current : PersonalSettingsRecord) (state : Session) (value : Value) (key : Bool)
    (reply : WriteReply) : PersonalSettingsRecord × Except String Session :=
  match envelopeToSave host state key (splitSecrets value).2 with
  | .error error => (current, .error error)
  | .ok protectedSecrets =>
    let written := serviceWrite host current
      (state.request (splitSecrets value).1 protectedSecrets) reply
    (written.1, written.2.map (state.saved (splitSecrets value).2 protectedSecrets))

/-- The world after a save of one personal partition, and whether the service has it. -/
def World.saveInner (w : World) (value : Value) (env : SaveEnv) : World × Except String Bool :=
  match w.session with
  | none => (w, .error "Personal settings have not been loaded")
  | some state =>
    if state.mode = .temporary ∨ (state.mode = .service ∧ w.published = .temporary) then
      match loadCurrentSession host w env.reload with
      | .error error => (w, .error error)
      | .ok (recovered, _, migrated) =>
        if recovered.mode = .service then
          ({ w with session := some recovered, migrated := migrated },
            .error recoveredSettingsReloadRequired)
        else
          (w, .error "Personal settings service is still unavailable; no preferences were saved")
    else if state.mode = .legacy then
      match withKey env.reload.key (host.encodeUserBlob (host.toVec value)) with
      | .error error => (w, .error error)
      | .ok encoded => ({ w with file := some encoded }, .ok false)
    else
      let saved := saveServiceWith host w.record state value env.reload.key env.reply
      match saved.2 with
      | .error error => ({ w with record := saved.1 }, .error error)
      | .ok state =>
        match markMigrated w.migrated env.reload.markerFails with
        | .error error => ({ w with record := saved.1, session := some state }, .error error)
        | .ok migrated =>
          ({ w with record := saved.1, session := some state, migrated := migrated }, .ok true)

/-- A failed save makes the session temporary, unless it asks for a reload. -/
def reportSave (result : World × Except String Bool) : World :=
  match result.2 with
  | .ok _ => result.1
  | .error error =>
    if error = recoveredSettingsReloadRequired then result.1
    else { result.1 with published := .temporary }

/-- A save of the settings writes their user partition. -/
def World.save (w : World) (settings : Value) (env : SaveEnv) : World :=
  match splitSettingsValue settings with
  | .error _ => w
  | .ok (_, user) => reportSave (w.saveInner host user env)

def World.step (w : World) : Call → World
  | .load env => w.load host env
  | .save settings env => w.save host settings env

end Step

end PersonalSettings
