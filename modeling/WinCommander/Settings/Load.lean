import WinCommander.Settings.Personal
import WinCommander.Settings.Schema

/-!
# Loading the settings

The machine partition comes from the device's store, the rest from the account that is signed in.
An older store is brought to the present version first, and so is whatever the two make together.
-/

namespace Settings

open Json Outcome Serde

/-- What the settings take from their surroundings. -/
structure Surroundings where
  isUuid : String → Bool
  newDeviceId : String
  isUuid_newDeviceId : isUuid newDeviceId = true
  appVersion : String
  now : String

def settingsVersion : ℕ := 2

section Migration

def asU64 (v : Value) : Option ℕ := (natural v).filter (· < 2 ^ 64)

/-- The version a value claims, as a 32-bit number. -/
def claimedVersion (json : Value) : ℕ :=
  (((json.get "settingsVersion").bind asU64).getD 1) % 2 ^ 32

def stateFields : List String :=
  ["privacy", "tweaks", "network", "identity", "apps", "productivity"]

/-- Version 1 kept the desired state among the root members. -/
def migrateSettings (root : Value) : Value :=
  match root with
  | .object ms =>
    let ideal := stateFields.foldl
      (fun ideal field => match ms.lookup field with
        | some v => insert field v ideal
        | none => ideal) []
    let rest := stateFields.foldl (fun ms field => erase field ms) ms
    .object (insert "settingsVersion" (ofNatural settingsVersion)
      (insert "current" (.object []) (insert "ideal" (.object ideal) rest)))
  | other => other

/-- The monitor under its released name gets its present one. -/
def renameMonitor (root : Value) (state : String) : Value :=
  match root.atPath [state, "privacy"] with
  | some (.object privacy) =>
    match privacy.lookup "decoyMonitor", privacy.lookup "decoyTripwire" with
    | none, some legacy =>
      Value.setPath [state, "privacy"]
        (.object (insert "decoyMonitor" legacy (erase "decoyTripwire" privacy))) root
    | _, _ => root
  | _ => root

def migrateLegacyMonitorNames (root : Value) : Value :=
  renameMonitor (renameMonitor root "ideal") "current"

/-- The result limit under its historical name gets its present one, unless it has it already. -/
def normalizeFileSearchResultLimit (value : Value) : Value :=
  match value.atPath ["app", "fileSearch"] with
  | some (.object search) =>
    match search.lookup "result_limit" with
    | some legacy =>
      let rest := erase "result_limit" search
      Value.setPath ["app", "fileSearch"]
        (.object (if (rest.lookup "resultLimit").isSome then rest
          else insert "resultLimit" legacy rest)) value
    | none => value
  | _ => value

end Migration

section Load

variable {P S : Type} (schema : Schema P S) (here : Surroundings)

def ensureValidDeviceId (s : AppSettings P S) : AppSettings P S :=
  if here.isUuid s.deviceId then s else { s with deviceId := here.newDeviceId }

/-- The retired panel is not hidden any more. -/
def applyRuntimeDefaults (s : AppSettings P S) : AppSettings P S :=
  let panels := (s.app.permanentlyHiddenPanels.map (·.filter (· ≠ "sidecar"))).getD []
  { s with app.permanentlyHiddenPanels := panels }

def parseAndMigrate (json : Value) : Except String (AppSettings P S) := do
  let migrated := if claimedVersion json < settingsVersion then migrateSettings json else json
  let s ← (AppSettings.fromValue schema
    (normalizeFileSearchResultLimit (migrateLegacyMonitorNames migrated))).mapError
      fun e => "Failed to deserialize settings: " ++ e
  pure (applyRuntimeDefaults (ensureValidDeviceId here s))

/-- An overlay without one of the preferences that are not the account's to choose. -/
def removePersonalChoice (key : String) (overlay : Value) : Value :=
  match overlay.get "app" with
  | some (.object app) => Value.setPath ["app"] (.object (erase key app)) overlay
  | _ => overlay

def mergeUserOverlay (machine : AppSettings P S) (overlay : Value) :
    Except String (AppSettings P S) := do
  let overlay := normalizeFileSearchResultLimit
    (removePersonalChoice "updateChannel" (removePersonalChoice "startSilentlyAtSignIn" overlay))
  let merged ← (machine.toValue schema).mapError
    fun e => "Failed to serialize machine settings: " ++ e
  parseAndMigrate schema here (merged.merge overlay)

def createDefaultSettings : AppSettings P S where
  snapshotRevision := none
  settingsVersion := UInt32.ofNat settingsVersion
  appVersion := here.appVersion
  deviceId := here.newDeviceId
  lastSeenAt := here.now
  createdAt := here.now
  app := schema.defaultPreferences
  ideal := schema.defaultSystemState
  current := schema.defaultSystemState
  policy := .default

/-- The machine partition and, from a legacy file, the overlay of its account. -/
def loadMachineValue (stored : Value) (legacy : Option Value) :
    Except String (Value × Option Value) :=
  if stored = .object [] then
    match legacy with
    | some json => do
      let s ← parseAndMigrate schema here json
      -- One account's choice is no consent to change it for every account.
      let value ← AppSettings.toValue schema { s with app.startSilentlyAtSignIn := true }
      let (machine, user) ← splitSettingsValue value
      pure (machine, some user)
    | none => do
      let value ← (createDefaultSettings schema here).toValue schema
      let (machine, _) ← splitSettingsValue value
      pure (machine, none)
  else do
    let (machine, _) ← splitSettingsValue stored
    pure (machine, none)

def loadMachine (stored : Value) (legacy : Option Value) :
    Except String (AppSettings P S × Option Value) := do
  let (value, overlay) ← loadMachineValue schema here stored legacy
  let machine ← parseAndMigrate schema here value
  pure (machine, overlay)

/-- The overlay of an account that has none. -/
def defaultUserOverlay : Except String Value := do
  let value ← (createDefaultSettings schema here).toValue schema
  let (_, user) ← splitSettingsValue value
  pure user

/-- Nothing runs by itself for an account whose preferences cannot be read. -/
def applyPersonalRecoveryDefaults (s : AppSettings P S) : AppSettings P S :=
  { s with app := { s.app with
      autoHeal := false
      autoFixAll := false
      autoUpdate := false
      firstRunComplete := true
      welcomeTourPending := false
      flows := []
      proFlows := []
      contingency := PersonalSettings.contingencyDefault
      deadMansSwitch := none
      disableNativeNotifications := true } }

/-- The settings of an account on a machine, after its personal settings were loaded. -/
def resolveSettings (machine : AppSettings P S) (legacyOverlay : Option Value)
    (loaded : PersonalSettings.Session × Option Value) : Except String (AppSettings P S) := do
  let defaults ← defaultUserOverlay schema here
  let overlay := (loaded.2.or legacyOverlay).getD defaults
  let s ← mergeUserOverlay schema here machine overlay
  pure (if loaded.1.safeDefaults then applyPersonalRecoveryDefaults s else s)

end Load

end Settings
