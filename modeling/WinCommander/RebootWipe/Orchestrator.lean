import WinCommander.Library.AsciiText
import WinCommander.Library.JsonPath
import WinCommander.Library.Recorded
import WinCommander.Library.Serde
import WinCommander.Wipe.Token

/-!
# The reboot-to-USB wipe

Stage 1 destroys the keys of every configured target through the sidecar.  Stage 2 writes a token to
a wipe USB, sets the next boot entry and reboots.
-/

namespace RebootWipe

open Fallible Json WipeAuth

section Identities

/-- A number as decimal text. -/
abbrev CanonicalDecimal := String

def fromU64 (n : UInt64) : CanonicalDecimal := toString n.toNat

inductive DestructiveTargetIdentityV2 where
  | file (volumeSerialNumber fileIndex : CanonicalDecimal)
  | rawPartition (diskNumber partitionNumber : CanonicalDecimal) (partitionGuid : String)
      (offsetBytes sizeBytes : CanonicalDecimal) (diskUniqueId : String)
  | bitlockerVolume (volumeGuid : String)
  deriving DecidableEq

structure DestructiveRequestV2 where
  version : String
  target : DestructiveTargetIdentityV2
  deriving DecidableEq

structure MutationReceiptV2 where
  version : String
  target : DestructiveTargetIdentityV2
  verified : Bool
  deriving DecidableEq

def destructiveIdentityVersion : String := "v2"

def DestructiveRequestV2.new (target : DestructiveTargetIdentityV2) : DestructiveRequestV2 where
  version := destructiveIdentityVersion
  target := target

def DestructiveTargetIdentityV2.toValue : DestructiveTargetIdentityV2 → Value
  | .file volumeSerialNumber fileIndex => .object [("kind", .string "file"),
      ("volume_serial_number", .string volumeSerialNumber), ("file_index", .string fileIndex)]
  | .rawPartition diskNumber partitionNumber partitionGuid offsetBytes sizeBytes diskUniqueId =>
      .object [("kind", .string "raw_partition"), ("disk_number", .string diskNumber),
        ("partition_number", .string partitionNumber), ("partition_guid", .string partitionGuid),
        ("offset_bytes", .string offsetBytes), ("size_bytes", .string sizeBytes),
        ("disk_unique_id", .string diskUniqueId)]
  | .bitlockerVolume volumeGuid => .object [("kind", .string "bitlocker_volume"),
      ("volume_guid", .string volumeGuid)]

def DestructiveRequestV2.toValue (request : DestructiveRequestV2) : Value :=
  .object [("version", .string request.version), ("target", request.target.toValue)]

def insertRequest (payload : List (String × Value)) (request : DestructiveRequestV2) : Value :=
  .object (Json.insert "destructiveIdentity" request.toValue payload)

def verifyReceipt (readReceipt : Value → Except String MutationReceiptV2) (result : Value)
    (request : DestructiveRequestV2) : Except String Unit := do
  let member ← Outcome.okOr (result.get "mutation_receipt")
    "destructive response omitted its mutation receipt"
  let receipt ← (readReceipt member).mapError fun error => s!"invalid mutation receipt: {error}"
  Outcome.refuseIf
    (receipt.verified = false ∨ receipt.version ≠ request.version ∨ receipt.target ≠ request.target)
    "destructive response identity does not match the authorized target"

/-- One letter, with or without a colon; the checks of the source are on the bytes, of which another
character than these has a first one that is no letter. -/
def bitlockerVolumeGuid (volumeGuidForMountRoot : String → Except String String)
    (mountPoint : String) : Except String String :=
  let trimmed := (AsciiText.trimChars mountPoint.toList).rdropWhile fun c => c = '\\' || c = '/'
  match trimmed with
  | [c] | [c, ':'] =>
      if c.isAlpha then volumeGuidForMountRoot (String.ofList [c.toUpper, ':', '\\'])
      else .error s!"invalid BitLocker mount point: {mountPoint}"
  | _ => .error s!"invalid BitLocker mount point: {mountPoint}"

end Identities

section Machine

structure VeraCryptDeviceEraseTarget where
  devicePath : String
  diskNumber : UInt32
  partitionNumber : UInt32
  partitionGuid : String
  offsetBytes : UInt64
  sizeBytes : UInt64
  diskUniqueId : String
  deriving DecidableEq

structure SelfDestruct where
  cryptoEraseBitlockerDrives : Option (List String)
  cryptoEraseVeracryptPaths : Option (List String)
  cryptoEraseVeracryptDevices : Option (List VeraCryptDeviceEraseTarget)
  deriving DecidableEq

structure AppSettings where
  deviceId : String
  selfDestruct : SelfDestruct
  deriving DecidableEq

/-- What the machine answers.  Where a run asks more than once the answer may depend on how many
events went before. -/
structure Machine (SigningKey VerifyingKey : Type) where
  scheme : Scheme SigningKey VerifyingKey
  deviceSigningKey : Except String SigningKey
  deviceSettings : Except String AppSettings
  bitlockerSettings : Except String AppSettings
  veracryptSettings : Except String AppSettings
  advancedMode : Bool
  decoyMode : Bool
  volumeGuid : ℕ → String → Except String String
  canonicalize : ℕ → String → Except String String
  fileIdentity : ℕ → String → Option (UInt32 × UInt64)
  sidecar : ℕ → String → Value → Except String Value
  readReceipt : Value → Except String MutationReceiptV2
  findWipeUsb : Option String
  nowUnix : Int64
  nonce : Nonce
  writeWipeToken : String → String → VerifyingKey → Except String Unit
  usbBootEntry : Except String (Option String)
  setBootNextUsb : String → Except String String
  reboot : Except String Unit

inductive Target where
  | drive (mountPoint : String)
  | container (path : String)
  | device (device : VeraCryptDeviceEraseTarget)
  deriving DecidableEq

/-- What a run did, with the answer it got. -/
inductive Event where
  | readDrives (settings : Except String AppSettings)
  | readVeracrypt (settings : Except String AppSettings)
  | capture (target : Target) (identity : Except String DestructiveRequestV2)
  | dispatch (target : Target) (identity : DestructiveRequestV2) (args : Value)
      (reply : Except String Value)
  | deleteKey (reply : Except String Value)
  | writeToken (outcome : Except String Unit)
  | setBootNext (outcome : Except String String)
  | reboot (outcome : Except String Unit)

/-- A run fails with a message, or it panics where it issues the token. -/
inductive Failure where
  | failed (message : String)
  | panicked (fault : Fault)
  deriving DecidableEq

abbrev Run (α : Type) := Fallible (List Event) Failure α

end Machine

section Stage1

variable {SigningKey VerifyingKey : Type} (machine : Machine SigningKey VerifyingKey)

def check {α : Type} (outcome : Except String α) : Run α := Fallible.ask fun _ =>
  outcome.mapError .failed

/-- The message of a failure, in its context. -/
def inContext {α : Type} (context : String → String) (step : Run α) : Run α := fun log =>
  match step log with
  | (.error (.failed e), log) => (.error (.failed (context e)), log)
  | outcome => outcome

def cryptoEraseStatusResult (v : Value) (successStatus : String) : Except String Unit :=
  match (v.get "status").bind Value.asStr with
  | some status =>
      if status = successStatus then .ok ()
      else .error (((v.get "error").bind Value.asStr).getD "crypto-erase step reported failure")
  | none => .error ("crypto-erase step: unexpected response shape: " ++ String.ofList v.write)

/-- A request to the sidecar for one target. -/
def runDestructStep (target : Target) (identity : DestructiveRequestV2)
    (payload : List (String × Value)) : Run Value :=
  let args := insertRequest payload identity
  recorded .failed (fun time => machine.sidecar time "run_destruct_step" args)
    (.dispatch target identity args)

def bitlockerIdentity (volumeGuidForMountRoot : String → Except String String)
    (mountPoint : String) : Except String DestructiveRequestV2 := do
  let volumeGuid ← bitlockerVolumeGuid volumeGuidForMountRoot mountPoint
  pure (DestructiveRequestV2.new (.bitlockerVolume volumeGuid))

def drivePayload (drive : String) : List (String × Value) :=
  [("stepId", .string "bitlocker_erase"), ("DriveLetter", .string drive)]

/-- The warning of a reply, if it has one. -/
def escrowWarning (drive : String) (v : Value) : Option String :=
  (((v.get "escrow_warning").bind Value.asStr).filter (· ≠ "")).map fun w => s!"{drive}: {w}"

def eraseDrive (drive : String) : Run (Option String) := do
  let identity ← recorded .failed (fun time => bitlockerIdentity (machine.volumeGuid time) drive)
    (.capture (.drive drive))
  let v ← runDestructStep machine (.drive drive) identity (drivePayload drive)
  check (verifyReceipt machine.readReceipt v identity)
  check ((cryptoEraseStatusResult v "ok").mapError fun e => s!"bitlocker_erase: {drive}: {e}")
  pure (escrowWarning drive v)

/-- Settings that could not be read name no drives. -/
def configuredDrives (settings : Except String AppSettings) : List String :=
  (settings.toOption.bind fun s => s.selfDestruct.cryptoEraseBitlockerDrives).getD []

def bitlockerErase : Run (Option String) := do
  observe (.readDrives machine.bitlockerSettings)
  let warnings ← collect (eraseDrive machine) (configuredDrives machine.bitlockerSettings)
  let warnings := warnings.filterMap id
  pure (if warnings = [] then none else some (String.intercalate " | " warnings))

/-- The identity of a file, and the path it was resolved to. -/
structure ExpectedFileIdentity where
  canonicalPath : String
  request : DestructiveRequestV2

def captureFile (time : ℕ) (path : String) : Except String ExpectedFileIdentity := do
  let canonicalPath ← (machine.canonicalize time path).mapError fun error =>
    s!"cannot resolve path '{path}': {error}"
  let (volumeSerialNumber, fileIndex) ← Outcome.okOr (machine.fileIdentity time canonicalPath)
    s!"cannot read stable file identity for '{canonicalPath}'"
  pure ⟨canonicalPath, .new (.file (fromU64 volumeSerialNumber.toUInt64) (fromU64 fileIndex))⟩

def containerPayload (canonicalPath : String) : List (String × Value) :=
  [("stepId", .string "veracrypt_header_destroy"), ("Path", .string canonicalPath)]

/-- The request of a VeraCrypt step; every failure of it names the target. -/
def destroyHeader (target : Target) (name : String) (identity : DestructiveRequestV2)
    (payload : List (String × Value)) : Run Unit :=
  inContext (fun e => s!"veracrypt_destroy: {name}: {e}") do
    let v ← runDestructStep machine target identity payload
    check (verifyReceipt machine.readReceipt v identity)
    check (cryptoEraseStatusResult v "destroyed")

def destroyContainer (path : String) : Run Unit := do
  let expected ← recorded .failed (fun time => captureFile machine time path)
    fun outcome => .capture (.container path) (outcome.map ExpectedFileIdentity.request)
  destroyHeader machine (.container path) path expected.request
    (containerPayload expected.canonicalPath)

def rawPartitionIdentity (device : VeraCryptDeviceEraseTarget) : DestructiveRequestV2 :=
  .new (.rawPartition (fromU64 device.diskNumber.toUInt64) (fromU64 device.partitionNumber.toUInt64)
    device.partitionGuid (fromU64 device.offsetBytes) (fromU64 device.sizeBytes) device.diskUniqueId)

def devicePayload (device : VeraCryptDeviceEraseTarget) : List (String × Value) :=
  [("stepId", .string "veracrypt_header_destroy"), ("Path", .string device.devicePath),
    ("DeviceDiskNumber", Serde.ofNatural device.diskNumber.toNat),
    ("DevicePartitionNumber", Serde.ofNatural device.partitionNumber.toNat),
    ("DevicePartitionGuid", .string device.partitionGuid),
    ("DeviceOffsetBytes", Serde.ofNatural device.offsetBytes.toNat),
    ("DeviceSizeBytes", Serde.ofNatural device.sizeBytes.toNat),
    ("DeviceDiskUniqueId", .string device.diskUniqueId)]

/-- The identity of a partition comes from the settings. -/
def destroyDevice (device : VeraCryptDeviceEraseTarget) : Run Unit := do
  let identity ← recorded .failed (fun _ => .ok (rawPartitionIdentity device))
    (.capture (.device device))
  destroyHeader machine (.device device) device.devicePath identity (devicePayload device)

/-- Settings that could not be read name no containers and no partitions. -/
def configuredVeracrypt (settings : Except String AppSettings) :
    List String × List VeraCryptDeviceEraseTarget :=
  (settings.toOption.map fun s => (s.selfDestruct.cryptoEraseVeracryptPaths.getD [],
    s.selfDestruct.cryptoEraseVeracryptDevices.getD [])).getD ([], [])

def veracryptDestroy : Run Unit := do
  observe (.readVeracrypt machine.veracryptSettings)
  let (paths, devices) := configuredVeracrypt machine.veracryptSettings
  each (destroyContainer machine) paths
  each (destroyDevice machine) devices

def vaultTpmDelete : Run Unit := do
  let _ ← recorded .failed (fun time => machine.sidecar time "delete_vault_tpm_key" .null) .deleteKey
  pure ()

end Stage1

section Orchestration

variable {SigningKey VerifyingKey : Type} (machine : Machine SigningKey VerifyingKey)

structure Stage1Eraser where
  bitlockerErase : Run (Option String)
  veracryptDestroy : Run Unit
  vaultTpmDelete : Run Unit

structure F6Deps (SigningKey : Type) where
  stage1 : Stage1Eraser
  setBootNext : Run String
  reboot : Run Unit
  nowUnix : Int64
  signingKey : SigningKey
  deviceId : String

def productionStage1 : Stage1Eraser where
  bitlockerErase := bitlockerErase machine
  veracryptDestroy := veracryptDestroy machine
  vaultTpmDelete := vaultTpmDelete machine

def setBootNext : Run String :=
  recorded .failed (fun _ => do
    let entry ← machine.usbBootEntry
    let id ← Outcome.okOr entry "no USB/removable firmware boot entry found"
    machine.setBootNextUsb id) .setBootNext

def restartComputer : Run Unit := recorded .failed (fun _ => machine.reboot) .reboot

def buildProductionDeps : Except String (F6Deps SigningKey) := do
  let signingKey ← machine.deviceSigningKey
  let deviceId := match machine.deviceSettings with
    | .ok settings => settings.deviceId
    | .error _ => "unknown-device"
  pure {
    stage1 := productionStage1 machine
    setBootNext := setBootNext machine
    reboot := restartComputer machine
    nowUnix := machine.nowUnix
    signingKey := signingKey
    deviceId := deviceId }

inductive F6Outcome where
  | rebootTriggered
  | stage1OnlyNoUsb
  deriving DecidableEq

def rebootToUsbArmed (enabled rebootToUsbEnabled : Option Bool) : Bool :=
  enabled = some true && rebootToUsbEnabled = some true

def debugBool : Option Bool → String
  | none => "None"
  | some b => s!"Some({b})"

def gate (enabled rebootToUsbEnabled : Option Bool) : Except String Unit := do
  Outcome.refuseIf (rebootToUsbArmed enabled rebootToUsbEnabled = false)
    ("gate: reboot-to-USB wipe is not armed (selfDestruct.enabled=" ++ debugBool enabled ++
      ", rebootToUsbEnabled=" ++ debugBool rebootToUsbEnabled ++ ")")
  Outcome.refuseIf (machine.advancedMode = true)
    "gate: F6 reboot-to-USB wipe refused in investigator mode"
  Outcome.refuseIf (machine.decoyMode = true)
    "gate: F6 reboot-to-USB wipe refused in decoy session"

/-- A stage-1 step; its failure names it. -/
def stage1Step {α : Type} (name : String) (step : Run α) : Run α :=
  inContext (fun e => s!"stage-1: {name}: {e}") step

def stage2 (deps : F6Deps SigningKey) (usbRoot : String) : Run F6Outcome := do
  let token ← Fallible.ask fun _ =>
    (issueWipeToken machine.scheme deps.deviceId 300 deps.nowUnix deps.signingKey
      machine.nonce).mapError .panicked
  let vk := machine.scheme.verifyingKey deps.signingKey
  recorded (fun e => .failed s!"write_wipe_token_to_usb: {e}")
    (fun _ => machine.writeWipeToken usbRoot token vk) .writeToken
  let _ ← deps.setBootNext
  deps.reboot
  pure .rebootTriggered

def runStage1 (stage1 : Stage1Eraser) : Run Unit := do
  let _ ← stage1Step "bitlocker_erase" stage1.bitlockerErase
  stage1Step "veracrypt_destroy" stage1.veracryptDestroy
  stage1Step "vault_tpm_delete" stage1.vaultTpmDelete

/-- Without a wipe USB the run ends after stage 1. -/
def afterStage1 (deps : F6Deps SigningKey) : Run F6Outcome :=
  match machine.findWipeUsb with
  | some usbRoot => stage2 machine deps usbRoot
  | none => pure .stage1OnlyNoUsb

def executeRebootToUsbWipe (enabled rebootToUsbEnabled : Option Bool) (deps : F6Deps SigningKey) :
    Run F6Outcome := do
  check (gate machine enabled rebootToUsbEnabled)
  runStage1 deps.stage1
  afterStage1 machine deps

end Orchestration

end RebootWipe
