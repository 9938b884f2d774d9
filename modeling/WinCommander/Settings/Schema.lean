import WinCommander.Library.Serde
import WinCommander.Settings.Scope

/-!
# The settings

The settings of a device in memory, and how they are written as one JSON object and read back.
Fields that no operation here reads by name are part of `P` in the preferences and of `S` in the
two system states.
-/

namespace Settings

open Json Outcome Serde

inductive UpdateChannel where
  | stable
  | beta
  deriving DecidableEq

def UpdateChannel.name : UpdateChannel → String
  | .stable => "stable"
  | .beta => "beta"

structure QuickMountSlot where
  filePath : String
  driveLetter : String
  mountTarget : Option String
  mountPoint : Option String
  deriving DecidableEq

structure VaultSettings where
  quickMountSlots : List QuickMountSlot
  deriving DecidableEq

structure FleetSettings where
  privacyShieldPolicyTransaction : Option Value
  deriving DecidableEq

structure AppPreferences (P : Type) where
  localPrivacyShieldLookAwayDelaySeconds : Option UInt32
  firstRunComplete : Bool
  autoUpdate : Bool
  updateChannel : UpdateChannel
  startSilentlyAtSignIn : Bool
  vault : VaultSettings
  flows : List Value
  proFlows : List Value
  contingency : Value
  deadMansSwitch : Option Value
  autoFixAll : Bool
  disableNativeNotifications : Bool
  permanentlyHiddenPanels : Option (List String)
  autoHeal : Bool
  welcomeTourPending : Bool
  fleet : FleetSettings
  rest : P
  deriving DecidableEq

structure PrivacyShieldSettings where
  lookAwayDelaySeconds : Option UInt32
  sendIncidentCapturesToFleet : Bool
  fleetCaptureOnPhone : Option Bool
  fleetCaptureOnMultiFace : Option Bool
  deriving DecidableEq

structure PrivacySettings where
  privacyShield : PrivacyShieldSettings
  deriving DecidableEq

structure SystemState (S : Type) where
  privacy : PrivacySettings
  rest : S
  deriving DecidableEq

structure PolicySettings where
  syncMode : String
  adminServerUrl : Option String
  mergeStrategy : String
  lockedPaths : List String
  lastSyncedAt : Option String
  masterConfigVersion : Option UInt32
  organization : Option String
  fleetSigningKey : Option String
  managed : Bool
  pinnedMountScope : Option String

/-- The revision belongs to the snapshot in memory and is not written. -/
structure AppSettings (P S : Type) where
  snapshotRevision : Option ℕ
  settingsVersion : UInt32
  appVersion : String
  deviceId : String
  lastSeenAt : String
  createdAt : String
  app : AppPreferences P
  ideal : SystemState S
  current : SystemState S
  policy : PolicySettings

section Policy

def defaultSyncMode : String := "standalone"

def defaultMergeStrategy : String := "merge"

def PolicySettings.default : PolicySettings where
  syncMode := defaultSyncMode
  adminServerUrl := none
  mergeStrategy := defaultMergeStrategy
  lockedPaths := []
  lastSyncedAt := none
  masterConfigVersion := none
  organization := none
  fleetSigningKey := none
  managed := false
  pinnedMountScope := none

def PolicySettings.members (p : PolicySettings) : List (String × Value) := [
  ("adminServerUrl", ofOption .string p.adminServerUrl),
  ("fleetSigningKey", ofOption .string p.fleetSigningKey),
  ("lastSyncedAt", ofOption .string p.lastSyncedAt),
  ("lockedPaths", .array (p.lockedPaths.map .string)),
  ("managed", .bool p.managed),
  ("masterConfigVersion", ofOption (fun n : UInt32 => ofNatural n.toNat) p.masterConfigVersion),
  ("mergeStrategy", .string p.mergeStrategy),
  ("organization", ofOption .string p.organization)] ++
  (p.pinnedMountScope.map fun scope => ("pinnedMountScope", .string scope)).toList ++
  [("syncMode", .string p.syncMode)]

def PolicySettings.toValue (p : PolicySettings) : Value := .object p.members

def policyFields : List String := [
  "syncMode", "adminServerUrl", "mergeStrategy", "lockedPaths", "lastSyncedAt",
  "masterConfigVersion", "organization", "fleetSigningKey", "managed", "pinnedMountScope"]

def PolicySettings.fromValue (mismatch : Value → String → String) (v : Value) :
    Except String PolicySettings := do
  let ms ← record mismatch "PolicySettings" policyFields 7 v
  let adminServerUrl ← field ms "adminServerUrl" (option (string mismatch))
  let fleetSigningKey ← field ms "fleetSigningKey" (option (string mismatch))
  let lastSyncedAt ← field ms "lastSyncedAt" (option (string mismatch))
  let lockedPaths ← field ms "lockedPaths" (Serde.sequence mismatch (string mismatch))
  let managed ← field ms "managed" (bool mismatch)
  let masterConfigVersion ← field ms "masterConfigVersion" (option (u32 mismatch))
  let mergeStrategy ← field ms "mergeStrategy" (string mismatch)
  let organization ← field ms "organization" (option (string mismatch))
  let pinnedMountScope ← field ms "pinnedMountScope" (option (string mismatch))
  let syncMode ← field ms "syncMode" (string mismatch)
  pure {
    syncMode := syncMode.getD defaultSyncMode
    adminServerUrl := adminServerUrl.join
    mergeStrategy := mergeStrategy.getD defaultMergeStrategy
    lockedPaths := lockedPaths.getD []
    lastSyncedAt := lastSyncedAt.join
    masterConfigVersion := masterConfigVersion.join
    organization := organization.join
    fleetSigningKey := fleetSigningKey.join
    managed := managed.getD false
    pinnedMountScope := pinnedMountScope.join }

section RoundTrip

variable (mismatch : Value → String → String) (p : PolicySettings)

private theorem read_text (o : Option String) :
    option (string mismatch) (ofOption Value.string o) = .ok o := by
  apply option_ofOption
  · exact fun _ => rfl
  · exact fun _ h => nomatch h

private theorem read_version :
    option (u32 mismatch) (ofOption (fun n : UInt32 => ofNatural n.toNat) p.masterConfigVersion) =
      .ok p.masterConfigVersion := by
  apply option_ofOption
  · exact fun n => u32_ofNatural n
  · exact fun _ h => nomatch h

private theorem read_pinnedMountScope :
    field p.members "pinnedMountScope" (option (string mismatch)) =
      .ok (p.pinnedMountScope.map some) := by
  rw [PolicySettings.members]
  cases p.pinnedMountScope with
  | none => exact field_none rfl
  | some scope => exact field_some rfl rfl

private theorem read_syncMode :
    field p.members "syncMode" (string mismatch) = .ok (some p.syncMode) := by
  rw [PolicySettings.members]
  cases p.pinnedMountScope with
  | none => exact field_some rfl rfl
  | some scope => exact field_some rfl rfl

/-- A policy is read back as it was. -/
theorem PolicySettings.fromValue_toValue : fromValue mismatch p.toValue = .ok p := by
  have hserver : field p.members "adminServerUrl" (option (string mismatch)) =
      .ok (some p.adminServerUrl) := field_some rfl (read_text mismatch _)
  have hkey : field p.members "fleetSigningKey" (option (string mismatch)) =
      .ok (some p.fleetSigningKey) := field_some rfl (read_text mismatch _)
  have hsynced : field p.members "lastSyncedAt" (option (string mismatch)) =
      .ok (some p.lastSyncedAt) := field_some rfl (read_text mismatch _)
  have hpaths : elements (string mismatch) (p.lockedPaths.map Value.string) = .ok p.lockedPaths :=
    elements_map Value.string (fun _ => rfl) _
  have hlocked : field p.members "lockedPaths" (Serde.sequence mismatch (string mismatch)) =
      .ok (some p.lockedPaths) := field_some rfl hpaths
  have hmanaged : field p.members "managed" (bool mismatch) = .ok (some p.managed) :=
    field_some rfl rfl
  have hversion : field p.members "masterConfigVersion" (option (u32 mismatch)) =
      .ok (some p.masterConfigVersion) := field_some rfl (read_version mismatch p)
  have hmerge : field p.members "mergeStrategy" (string mismatch) = .ok (some p.mergeStrategy) :=
    field_some rfl rfl
  have horganization : field p.members "organization" (option (string mismatch)) =
      .ok (some p.organization) := field_some rfl (read_text mismatch _)
  have hpinned : (p.pinnedMountScope.map some).join = p.pinnedMountScope := by
    cases p.pinnedMountScope <;> rfl
  unfold fromValue
  simp only [toValue, record, bind, Except.bind, hserver, hkey, hsynced, hlocked, hmanaged,
    hversion, hmerge, horganization, read_pinnedMountScope, read_syncMode, pure, Except.pure,
    Option.join_some, Option.getD_some, hpinned]

end RoundTrip

end Policy

/-- The formats of the parts, their defaults and the reader's wording.  The two machine fields of
the preferences are members of their own, and each field of a system state is read from its own
member. -/
structure Schema (P S : Type) where
  preferences : Format (AppPreferences P)
  defaultPreferences : AppPreferences P
  systemState : Format (SystemState S)
  defaultSystemState : SystemState S
  mismatch : Value → String → String
  write_updateChannel : ∀ {a v}, preferences.toValue a = .ok v →
    v.get "updateChannel" = some (.string a.updateChannel.name)
  read_updateChannel : ∀ {v a c}, preferences.fromValue v = .ok a →
    v.get "updateChannel" = some (.string (UpdateChannel.name c)) → a.updateChannel = c
  write_startSilentlyAtSignIn : ∀ {a v}, preferences.toValue a = .ok v →
    v.get "startSilentlyAtSignIn" = some (.bool a.startSilentlyAtSignIn)
  read_startSilentlyAtSignIn : ∀ {v a b}, preferences.fromValue v = .ok a →
    v.get "startSilentlyAtSignIn" = some (.bool b) → a.startSilentlyAtSignIn = b
  keeps_systemState : ∀ {path keys}, path = "ideal" ∨ path = "current" →
    ScopedAt .machine path keys → systemState.KeepsAt keys
  write_decoyMonitor : ∀ {a v}, systemState.toValue a = .ok v →
    (v.atPath ["privacy", "decoyMonitor"]).isSome

section Settings

variable {P S : Type} (schema : Schema P S)

def AppSettings.toValue (s : AppSettings P S) : Except String Value := do
  let app ← schema.preferences.toValue s.app
  let ideal ← schema.systemState.toValue s.ideal
  let current ← schema.systemState.toValue s.current
  pure (.object [
    ("app", app),
    ("appVersion", .string s.appVersion),
    ("createdAt", .string s.createdAt),
    ("current", current),
    ("deviceId", .string s.deviceId),
    ("ideal", ideal),
    ("lastSeenAt", .string s.lastSeenAt),
    ("policy", s.policy.toValue),
    ("settingsVersion", ofNatural s.settingsVersion.toNat)])

/-- A text, or what another scalar was written as. -/
def deStringLenient : Value → Except String String
  | .string s => .ok s
  | .null => .ok ""
  | .number n => .ok (String.ofList n.literal)
  | .bool b => .ok (if b then "true" else "false")
  | other => .ok (String.ofList other.write)

def settingsFields : List String := [
  "settingsVersion", "appVersion", "deviceId", "lastSeenAt", "createdAt", "app", "ideal",
  "current", "policy"]

def AppSettings.fromValue (v : Value) : Except String (AppSettings P S) := do
  let ms ← record schema.mismatch "AppSettings" settingsFields 3 v
  let app ← field ms "app" schema.preferences.fromValue
  let appVersion ← field ms "appVersion" (string schema.mismatch)
  let createdAt ← field ms "createdAt" deStringLenient
  let current ← field ms "current" schema.systemState.fromValue
  let deviceId ← field ms "deviceId" (string schema.mismatch)
  let ideal ← field ms "ideal" schema.systemState.fromValue
  let lastSeenAt ← field ms "lastSeenAt" deStringLenient
  let policy ← field ms "policy" (PolicySettings.fromValue schema.mismatch)
  let settingsVersion ← field ms "settingsVersion" (u32 schema.mismatch)
  let settingsVersion ← required "settingsVersion" settingsVersion
  let appVersion ← required "appVersion" appVersion
  let deviceId ← required "deviceId" deviceId
  pure {
    snapshotRevision := none
    settingsVersion := settingsVersion
    appVersion := appVersion
    deviceId := deviceId
    lastSeenAt := lastSeenAt.getD ""
    createdAt := createdAt.getD ""
    app := app.getD schema.defaultPreferences
    ideal := ideal.getD schema.defaultSystemState
    current := current.getD schema.defaultSystemState
    policy := policy.getD .default }

variable {schema} {s : AppSettings P S} {ms : List (String × Value)}

/-- What each field of the settings was read from. -/
structure AppSettings.ReadFrom (schema : Schema P S) (ms : List (String × Value))
    (s : AppSettings P S) : Prop where
  snapshotRevision : s.snapshotRevision = none
  settingsVersion : ∀ v, ms.lookup "settingsVersion" = some v →
    u32 schema.mismatch v = .ok s.settingsVersion
  appVersion : ∀ v, ms.lookup "appVersion" = some v →
    string schema.mismatch v = .ok s.appVersion
  deviceId : ∀ v, ms.lookup "deviceId" = some v → string schema.mismatch v = .ok s.deviceId
  lastSeenAt : ∀ v, ms.lookup "lastSeenAt" = some v → deStringLenient v = .ok s.lastSeenAt
  createdAt : ∀ v, ms.lookup "createdAt" = some v → deStringLenient v = .ok s.createdAt
  app : ∀ v, ms.lookup "app" = some v → schema.preferences.fromValue v = .ok s.app
  ideal : ∀ v, ms.lookup "ideal" = some v → schema.systemState.fromValue v = .ok s.ideal
  current : ∀ v, ms.lookup "current" = some v → schema.systemState.fromValue v = .ok s.current
  policy : ∀ v, ms.lookup "policy" = some v →
    PolicySettings.fromValue schema.mismatch v = .ok s.policy

theorem AppSettings.readFrom_of_fromValue (h : fromValue schema (.object ms) = .ok s) :
    ReadFrom schema ms s := by
  unfold fromValue at h
  obtain ⟨_, hms, h⟩ := bind_ok.mp h
  cases hms
  obtain ⟨app, happ, h⟩ := bind_ok.mp h
  obtain ⟨appVersion, happVersion, h⟩ := bind_ok.mp h
  obtain ⟨createdAt, hcreatedAt, h⟩ := bind_ok.mp h
  obtain ⟨current, hcurrent, h⟩ := bind_ok.mp h
  obtain ⟨deviceId, hdeviceId, h⟩ := bind_ok.mp h
  obtain ⟨ideal, hideal, h⟩ := bind_ok.mp h
  obtain ⟨lastSeenAt, hlastSeenAt, h⟩ := bind_ok.mp h
  obtain ⟨policy, hpolicy, h⟩ := bind_ok.mp h
  obtain ⟨version, hversion, h⟩ := bind_ok.mp h
  obtain ⟨version', hversion', h⟩ := bind_ok.mp h
  obtain ⟨appVersion', happVersion', h⟩ := bind_ok.mp h
  obtain ⟨deviceId', hdeviceId', h⟩ := bind_ok.mp h
  rw [required, okOr_ok] at hversion' happVersion' hdeviceId'
  cases pure_ok.mp h
  constructor
  case snapshotRevision => rfl
  case settingsVersion =>
    intro v hv
    obtain ⟨a, ha, hsome⟩ := read_of_field hversion hv
    rw [ha, Option.some.inj (hversion'.symm.trans hsome)]
  case appVersion =>
    intro v hv
    obtain ⟨a, ha, hsome⟩ := read_of_field happVersion hv
    rw [ha, Option.some.inj (happVersion'.symm.trans hsome)]
  case deviceId =>
    intro v hv
    obtain ⟨a, ha, hsome⟩ := read_of_field hdeviceId hv
    rw [ha, Option.some.inj (hdeviceId'.symm.trans hsome)]
  case lastSeenAt =>
    intro v hv
    obtain ⟨a, ha, rfl⟩ := read_of_field hlastSeenAt hv
    exact ha
  case createdAt =>
    intro v hv
    obtain ⟨a, ha, rfl⟩ := read_of_field hcreatedAt hv
    exact ha
  case app =>
    intro v hv
    obtain ⟨a, ha, rfl⟩ := read_of_field happ hv
    exact ha
  case ideal =>
    intro v hv
    obtain ⟨a, ha, rfl⟩ := read_of_field hideal hv
    exact ha
  case current =>
    intro v hv
    obtain ⟨a, ha, rfl⟩ := read_of_field hcurrent hv
    exact ha
  case policy =>
    intro v hv
    obtain ⟨a, ha, rfl⟩ := read_of_field hpolicy hv
    exact ha

/-- The settings as members, from the forms of their parts. -/
def AppSettings.membersWith (s : AppSettings P S) (app ideal current : Value) :
    List (String × Value) := [
  ("app", app),
  ("appVersion", .string s.appVersion),
  ("createdAt", .string s.createdAt),
  ("current", current),
  ("deviceId", .string s.deviceId),
  ("ideal", ideal),
  ("lastSeenAt", .string s.lastSeenAt),
  ("policy", s.policy.toValue),
  ("settingsVersion", ofNatural s.settingsVersion.toNat)]

theorem AppSettings.toValue_ok {v : Value} : toValue schema s = .ok v ↔
    ∃ app ideal current, schema.preferences.toValue s.app = .ok app ∧
      schema.systemState.toValue s.ideal = .ok ideal ∧
        schema.systemState.toValue s.current = .ok current ∧
          v = .object (s.membersWith app ideal current) := by
  unfold toValue
  constructor
  · intro h
    obtain ⟨app, happ, h⟩ := bind_ok.mp h
    obtain ⟨ideal, hideal, h⟩ := bind_ok.mp h
    obtain ⟨current, hcurrent, h⟩ := bind_ok.mp h
    exact ⟨app, ideal, current, happ, hideal, hcurrent, (pure_ok.mp h).symm⟩
  · rintro ⟨app, ideal, current, happ, hideal, hcurrent, rfl⟩
    rw [happ, hideal, hcurrent]
    rfl

end Settings

end Settings
