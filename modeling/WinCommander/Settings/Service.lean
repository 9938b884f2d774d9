import WinCommander.Library.Serde
import WinCommander.Settings.Personal

/-!
# The store of the personal settings

The service keeps one sealed file for each account.  A write names the revision that it was read
at, and replaces the record only while that is the revision of the file.
-/

namespace SettingsService

open Json Outcome Serde PersonalSettings

def unauthorized : String := "personal_settings_unauthorized"

def unavailable : String := "personal_settings_unavailable"

def invalid : String := "personal_settings_invalid"

def corrupt : String := "personal_settings_corrupt"

def conflict : String := "personal_settings_conflict"

def revisionExhausted : String := "personal_settings_revision_exhausted"

def readPersonalSettingsVerb : String := "svc.personal_settings.read"

def writePersonalSettingsVerb : String := "svc.personal_settings.write"

def maxRecordBytes : ℕ := maxPersonalSettingsBytes + 64 * 1024

/-- A record as a file or a reply spells it. -/
structure WireRecord where
  revision : UInt64
  value : Option Value
  legacyRecoveryRequired : Bool

structure StoredRecord where
  version : UInt32
  ownerSid : String
  record : WireRecord

/-- A value that may be stored is an object of bounded size. -/
def validateValue (toVec : Value → List UInt8) (value : Value) : Except String Unit :=
  refuseIf (¬ value.isObject ∨ maxPersonalSettingsBytes < (toVec value).length) invalid

/-- The writer and the reader of JSON, the seal that Windows puts on a record for an account, and
the digest that names the account's file. -/
structure Platform where
  Payload : Type
  size : Payload → ℕ
  toVec : Value → List UInt8
  /-- The reader of a record takes back what a frame may hold, which is nested as deep. -/
  readable : Value → Prop
  protect : String → StoredRecord → Payload
  unprotect : String → Payload → Option StoredRecord
  digest : String → String
  unprotect_protect : ∀ sid stored value, stored.record.value = some value → readable value →
    unprotect sid (protect sid stored) = some stored
  size_protect : ∀ sid stored value, stored.record.value = some value →
    (toVec value).length ≤ maxPersonalSettingsBytes → size (protect sid stored) ≤ maxRecordBytes

section Requests

def u64 (v : Value) : Option UInt64 :=
  (natural v).bind fun n => if n < 2 ^ 64 then some (UInt64.ofNat n) else none

/-- The fields of a request that may have no others. -/
def exactFields (fields : List String) : Value → Except String (List (String × Value))
  | .object ms => if ∀ m ∈ ms, m.1 ∈ fields then .ok ms else .error invalid
  | .array vs => if vs.length = fields.length then .ok (fields.zip vs) else .error invalid
  | _ => .error invalid

def readRequest (args : Value) : Except String Unit := do
  let _ ← exactFields [] args
  pure ()

def writeRequest (args : Value) : Except String WritePersonalSettingsRequest := do
  let ms ← exactFields ["expectedRevision", "value", "legacyRecoveryRequired"] args
  let revision ← okOr ((ms.lookup "expectedRevision").bind u64) invalid
  let value ← okOr (ms.lookup "value") invalid
  let legacy ← okOr (ms.lookup "legacyRecoveryRequired") invalid
  let legacy ← (bool (fun _ _ => invalid) legacy)
  pure ⟨revision, value, legacy⟩

variable (platform : Platform)

/-- The arguments of a call, as the frame reader hands them on. -/
structure Args where
  value : Value
  readable : ∀ request, writeRequest value = .ok request → platform.readable request.value

inductive Operation where
  | read
  | write (request : WritePersonalSettingsRequest)

def parseOperation (verb : String) (args : Value) : Except String Operation :=
  if verb = readPersonalSettingsVerb then do
    readRequest args
    pure .read
  else if verb = writePersonalSettingsVerb then do
    let request ← writeRequest args
    validateValue platform.toVec request.value
    pure (.write request)
  else .error invalid

end Requests

section Records

variable (platform : Platform)

/-- The platform calls before the record is read, any of which may fail. -/
inductive ReadFault where
  | storeRoot
  | secureDirectory
  | openRecord
  | readToEnd
  deriving DecidableEq

/-- The platform calls that put a new record in place of the old one. -/
inductive WriteFault where
  | dpapi
  | openTemporary
  | writeAll
  | syncAll
  | replace
  deriving DecidableEq

def recordPath (sid : String) : String := platform.digest sid ++ ".settings"

/-- The record of an account that has no file. -/
def defaultRecord : PersonalSettingsRecord := ⟨0, none, false, by simp⟩

/-- The record of a file that was unsealed. -/
def StoredRecord.accept (stored : StoredRecord) (sid : String) :
    Except String PersonalSettingsRecord :=
  if h : stored.version ≠ 1 ∨ stored.ownerSid ≠ sid ∨ stored.record.revision = 0 then
    .error corrupt
  else
    match hvalue : stored.record.value with
    | none => .error corrupt
    | some value => do
      (validateValue platform.toVec value).mapError fun _ => corrupt
      pure ⟨stored.record.revision, some value, stored.record.legacyRecoveryRequired,
        by simp_all⟩

def readRecord (file : Option platform.Payload) (sid : String) :
    Except String PersonalSettingsRecord :=
  match file with
  | none => .ok defaultRecord
  | some payload =>
    if maxRecordBytes < platform.size payload then .error corrupt
    else
      match platform.unprotect sid payload with
      | none => .error corrupt
      | some stored => stored.accept platform sid

private theorem successor_ne_zero {n : UInt64} (h : n.toNat + 1 < 2 ^ 64) : n + 1 ≠ 0 := by
  intro heq
  have hnat := congrArg UInt64.toNat heq
  rw [UInt64.toNat_add] at hnat
  simp at hnat
  omega

private theorem replacement_revised (current : PersonalSettingsRecord)
    (request : WritePersonalSettingsRequest) (h : current.revision.toNat + 1 < 2 ^ 64) :
    current.revision + 1 ≠ 0 ↔ (some request.value).isSome = true := by
  simp [successor_ne_zero h]

/-- The record that a write puts in place of the current one. -/
def replacement (current : PersonalSettingsRecord) (request : WritePersonalSettingsRequest) :
    Except String PersonalSettingsRecord :=
  if request.expectedRevision ≠ current.revision then .error conflict
  else if h : current.revision.toNat + 1 < 2 ^ 64 then
    .ok ⟨current.revision + 1, some request.value,
      current.legacyRecoveryRequired || request.legacyRecoveryRequired,
      replacement_revised current request h⟩
  else .error revisionExhausted

def encrypted (sid : String) (record : PersonalSettingsRecord) : platform.Payload :=
  platform.protect sid
    ⟨1, sid, record.revision, record.value, record.legacyRecoveryRequired⟩

/-- What a request comes to before anything is written. -/
inductive Prepared where
  | answer (record : PersonalSettingsRecord)
  | replace (record : PersonalSettingsRecord)

/-- A request up to its write: what it answers, or the record that it is about to put in place. -/
def prepare (file : Option platform.Payload) (sid verb : String) (args : Value)
    (fault : Option ReadFault) : Except String Prepared := do
  refuseIf (fault = some .storeRoot) unavailable
  let operation ← parseOperation platform verb args
  refuseIf (fault.isSome = true) unavailable
  let current ← readRecord platform file sid
  match operation with
  | .read => pure (.answer current)
  | .write request => do
    let record ← replacement current request
    pure (.replace record)

/-- The letters that the quick mounts of the settings reserve. -/
def quickMountLetter (slot : Value) : Except String String := do
  let letter ← match slot.get "driveLetter" with
    | some (.string letter) => .ok letter
    | _ => .error invalid
  match (letter.toList.reverse.dropWhile (· = ':')).reverse.map Char.toUpper with
  | [c] => if c.isUpper then pure (String.singleton c) else throw invalid
  | _ => throw invalid

def quickMountLetters (value : Value) : Except String (List String) := do
  let app ← match value.get "app" with
    | some (.object app) => .ok app
    | _ => .error invalid
  match app.lookup "vault" with
  | none => pure []
  | some (.object vault) =>
    match vault.lookup "quickMountSlots" with
    | none => pure []
    | some (.array slots) =>
      if slots.length ≤ 128 then slots.mapM quickMountLetter else throw invalid
    | some _ => throw invalid
  | some _ => throw invalid

/-- The letters that the saved quick mounts of an account reserve. -/
def savedLetters (file : Option platform.Payload) (sid : String) (fault : Option ReadFault) :
    Except String (List String) := do
  refuseIf (fault.isSome = true) unavailable
  let record ← readRecord platform file sid
  let value ← okOr record.value corrupt
  quickMountLetters value

end Records

section Facts

variable {platform : Platform}

theorem parseOperation_write {verb : String} {args : Value}
    {request : WritePersonalSettingsRequest}
    (h : parseOperation platform verb args = .ok (.write request)) :
    writeRequest args = .ok request ∧ request.value.isObject = true ∧
      (platform.toVec request.value).length ≤ maxPersonalSettingsBytes := by
  unfold parseOperation at h
  split at h
  · obtain ⟨_, _, h⟩ := bind_ok.mp h
    exact absurd (pure_ok.mp h) (by simp)
  · split at h
    · obtain ⟨request', hrequest, h⟩ := bind_ok.mp h
      obtain ⟨_, hvalid, h⟩ := bind_ok.mp h
      cases pure_ok.mp h
      rw [validateValue, refuseIf_ok, not_or, not_not, not_lt] at hvalid
      exact ⟨hrequest, hvalid⟩
    · exact absurd h (by simp)

/-- A write that is let through names the revision of the record that it replaces. -/
theorem replacement_ok {current record : PersonalSettingsRecord}
    {request : WritePersonalSettingsRequest} (h : replacement current request = .ok record) :
    request.expectedRevision = current.revision ∧
      record.revision.toNat = current.revision.toNat + 1 ∧ record.value = some request.value ∧
      record.legacyRecoveryRequired =
        (current.legacyRecoveryRequired || request.legacyRecoveryRequired) := by
  unfold replacement at h
  split at h
  · exact absurd h (by simp)
  · next hrevision =>
    split at h
    · next hbound =>
      cases h
      refine ⟨not_not.mp hrevision, ?_, rfl, rfl⟩
      rw [UInt64.toNat_add]
      exact Nat.mod_eq_of_lt hbound
    · exact absurd h (by simp)

/-- What is about to be written replaces the record of the file at the revision it was read at. -/
theorem prepare_replace {file : Option platform.Payload} {sid verb : String} {args : Value}
    {fault : Option ReadFault} {record : PersonalSettingsRecord}
    (h : prepare platform file sid verb args fault = .ok (.replace record)) :
    ∃ request current, parseOperation platform verb args = .ok (.write request) ∧
      readRecord platform file sid = .ok current ∧ replacement current request = .ok record := by
  unfold prepare at h
  obtain ⟨_, _, h⟩ := bind_ok.mp h
  obtain ⟨operation, hoperation, h⟩ := bind_ok.mp h
  obtain ⟨_, _, h⟩ := bind_ok.mp h
  obtain ⟨current, hcurrent, h⟩ := bind_ok.mp h
  cases operation with
  | read => exact absurd (pure_ok.mp h) (by simp)
  | write request =>
    obtain ⟨record', hrecord, h⟩ := bind_ok.mp h
    cases pure_ok.mp h
    exact ⟨request, current, hoperation, hcurrent, hrecord⟩

theorem prepare_answer {file : Option platform.Payload} {sid verb : String} {args : Value}
    {fault : Option ReadFault} {record : PersonalSettingsRecord}
    (h : prepare platform file sid verb args fault = .ok (.answer record)) :
    parseOperation platform verb args = .ok .read ∧
      readRecord platform file sid = .ok record := by
  unfold prepare at h
  obtain ⟨_, _, h⟩ := bind_ok.mp h
  obtain ⟨operation, hoperation, h⟩ := bind_ok.mp h
  obtain ⟨_, _, h⟩ := bind_ok.mp h
  obtain ⟨current, hcurrent, h⟩ := bind_ok.mp h
  cases operation with
  | read =>
    cases pure_ok.mp h
    exact ⟨hoperation, hcurrent⟩
  | write request =>
    obtain ⟨_, _, h⟩ := bind_ok.mp h
    exact absurd (pure_ok.mp h) (by simp)

/-- A write whose storage can be read either goes on to its write or is refused. -/
theorem prepare_write {file : Option platform.Payload} {sid verb : String} {args : Value}
    {request : WritePersonalSettingsRequest} {current : PersonalSettingsRecord}
    (hoperation : parseOperation platform verb args = .ok (.write request))
    (hcurrent : readRecord platform file sid = .ok current) :
    prepare platform file sid verb args none =
      (replacement current request).map .replace := by
  unfold prepare
  rw [refuseIf_neg _ (by simp), hoperation, refuseIf_neg _ (by simp), hcurrent]
  cases h : replacement current request <;> simp [bind, Except.bind, h, Except.map, pure, Except.pure]

theorem replacement_isOk_iff {current : PersonalSettingsRecord}
    {request : WritePersonalSettingsRequest} (hbound : current.revision.toNat + 1 < 2 ^ 64) :
    (∃ record, replacement current request = .ok record) ↔
      request.expectedRevision = current.revision := by
  constructor
  · intro h
    obtain ⟨record, h⟩ := h
    exact (replacement_ok h).1
  · intro h
    unfold replacement
    rw [if_neg (not_not.mpr h), dif_pos hbound]
    exact ⟨_, rfl⟩

/-- A record that was sealed for an account is read back from its file. -/
theorem readRecord_encrypted {sid : String} {record : PersonalSettingsRecord} {value : Value}
    (hvalue : record.value = some value) (hobject : value.isObject = true)
    (hsize : (platform.toVec value).length ≤ maxPersonalSettingsBytes)
    (hreadable : platform.readable value) :
    readRecord platform (some (encrypted platform sid record)) sid = .ok record := by
  obtain ⟨revision, stored, legacy, hrevised⟩ := record
  have hstored : stored = some value := hvalue
  subst hstored
  have hne : revision ≠ 0 := hrevised.mpr rfl
  have hvalid : validateValue platform.toVec value = .ok () := by
    apply refuseIf_neg
    rw [not_or, not_not, not_lt]
    exact ⟨hobject, hsize⟩
  unfold readRecord encrypted
  dsimp only
  rw [if_neg (not_lt.mpr (platform.size_protect _ _ value rfl hsize)),
    platform.unprotect_protect _ _ value rfl hreadable]
  dsimp only
  unfold StoredRecord.accept
  rw [dif_neg (by simp [hne])]
  simp [hvalid, Except.mapError]

end Facts

end SettingsService
