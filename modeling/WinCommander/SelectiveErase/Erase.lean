import WinCommander.SelectiveErase.Receipt

/-!
# The erase of one container

After the licence, the confirmation and the capability are checked, a target that counts as the system
volume needs the typed name of that volume.  Then one request goes to the handler of its kind.
-/

namespace SelectiveErase

open Fallible Json Outcome RebootWipe

section Flow

structure EraseTargetInput where
  kind : String
  path : Option String
  mountLetter : Option String
  mountPoint : Option String
  confirmed : Bool
  osVolumeAck : Option String
  deriving DecidableEq

/-- The volumes of the machine: the system drive, the volume of each mount root, and the raw devices
that hold the system volume. -/
structure Volumes where
  systemDrive : String
  volumeGuid : String → Except String String
  holdsSystem : String → Bool

structure CanonicalEraseArgs where
  command : String
  kind : String
  path : Option String
  identity : DestructiveRequestV2
  mountLetter : Option String
  mountPoint : Option String
  isOs : Bool
  boundIdentity : DestructiveRequestV2
  deriving DecidableEq

/-- What the machine answers; where an erase asks more than once the answer may depend on how many
events went before. -/
structure Circumstances where
  requirePaid : Except String Unit
  isAdvancedMode : Bool
  canonicalize : ℕ → String → Except String String
  fileIdentity : ℕ → String → Option (UInt32 × UInt64)
  canonicalPath : String → String
  consumeRequired : Option String → CanonicalEraseArgs → Except String Unit
  sidecar : ℕ → String → Value → Except String Value
  readFile : ℕ → String → Option (List UInt8)
  readReceipt : Value → Except String MutationReceiptV2

inductive Event where
  | capture (identity : Except String DestructiveRequestV2)
  | consume (outcome : Except String Unit)
  | dispatch (command : String) (args : Value) (reply : Except String Value)
  | readHeader (path : String) (bytes : Option (List UInt8))

abbrev Run (α : Type) := Fallible (List Event) String α

variable (v : Volumes) (c : Circumstances) (target : EraseTargetInput)

def check {α : Type} (outcome : Except String α) : Run α := Fallible.ask fun _ => outcome

/-- An answer that is put on record and is no failure of the run. -/
def answered {α : Type} (answer : ℕ → α) (event : α → Event) : Run α := fun log =>
  (.ok (answer log.length), log ++ [event (answer log.length)])

def captureFile (time : ℕ) (path : String) : Except String ExpectedFileIdentity := do
  let canonicalPath ← (c.canonicalize time path).mapError fun error =>
    s!"cannot resolve path '{path}': {error}"
  let (volumeSerialNumber, fileIndex) ← okOr (c.fileIdentity time canonicalPath)
    s!"cannot read stable file identity for '{canonicalPath}'"
  pure ⟨canonicalPath, .new (.file (fromU64 volumeSerialNumber.toUInt64) (fromU64 fileIndex))⟩

def captureIdentity (time : ℕ) : Except String DestructiveRequestV2 :=
  let kind := AsciiText.lower (AsciiText.trim target.kind)
  if kind = "veracrypt" then do
    let path ← okOr target.path "veracrypt target requires a path"
    let expected ← captureFile c time path
    pure expected.request
  else if kind = "bitlocker" then do
    let mountPoint ← okOr target.mountPoint "bitlocker target requires a mount point"
    bitlockerIdentity v.volumeGuid mountPoint
  else .error s!"unknown target kind: {kind}"

def canonicalEraseArgs (identity : DestructiveRequestV2) : CanonicalEraseArgs where
  command := "erase_encrypted_container"
  kind := AsciiText.lower (AsciiText.trim target.kind)
  path := target.path.map c.canonicalPath
  identity := identity
  mountLetter := target.mountLetter.map normDrive
  mountPoint := target.mountPoint.map normDrive
  isOs := isOsTarget target.kind target.mountPoint target.path v.systemDrive
  boundIdentity := identity

/-- The name that must be typed for a target that counts as the system volume. -/
def resolvedVolume : String :=
  if target.kind = "bitlocker" then normDrive (target.mountPoint.getD v.systemDrive)
  else normDrive v.systemDrive

def typedVolume : Bool := target.osVolumeAck.any fun ack => normDrive ack = resolvedVolume v target

def admitErase (token : Option String) : Run (DestructiveRequestV2 × Bool) := do
  check c.requirePaid
  check (refuseIf (c.isAdvancedMode = true)
    "Refused: investigator mode does not crypto-erase containers.")
  check (refuseIf (target.confirmed = false) "Refusing: erase not confirmed.")
  let identity ← recorded id (captureIdentity v c target) .capture
  recorded id (fun _ => c.consumeRequired token (canonicalEraseArgs v c target identity)) .consume
  let isOs := isOsTarget target.kind target.mountPoint target.path v.systemDrive
  check (refuseIf (isOs = true ∧ typedVolume v target = false)
    s!"Refusing OS/system volume erase: a typed confirmation matching '{resolvedVolume v target}' is required.")
  pure (identity, isOs)

def dispatchPaidCommand (command : String) (args : Value) : Run (Except String Value) :=
  answered (fun time => c.sidecar time command args) (.dispatch command args)

def readHeaderPrefix (path : String) : Run (Option (List UInt8)) := do
  let read ← answered (fun time => c.readFile time path) (.readHeader path)
  pure (headerPrefix read)

def validLetter (letter : List Char) : Bool :=
  match letter with
  | [l] | [l, ':'] => l.isAlpha
  | _ => false

def asBool : Value → Option Bool
  | .bool b => some b
  | _ => none

/-- The container is dismounted first if it is mounted; only a reply that says so counts. -/
def dismountFirst : Run Bool :=
  match target.mountLetter with
  | none => pure false
  | some letter => do
      let l := AsciiText.trim letter
      check (refuseIf (validLetter l.toList = false) s!"Invalid mount letter: {letter}")
      let dismount ← dispatchPaidCommand c "Dismount-EncryptedVolume"
        (.object [("DriveLetter", .string l)])
      pure (dismount.toOption.any fun value => (value.get "ok").bind asBool = some true)

def veracryptLabel (path : String) : String :=
  match target.mountLetter with
  | some l => s!"VeraCrypt {l}"
  | none => s!"VeraCrypt container {path}"

def eraseVeracrypt (identity : DestructiveRequestV2) (isOs : Bool) : Run EraseReceipt := do
  let expected ← recorded id (fun time => captureFile c time (target.path.getD ""))
    fun outcome => .capture (outcome.map ExpectedFileIdentity.request)
  let path := expected.canonicalPath
  check (refuseIf (path = "") "veracrypt target requires a path")
  let keyEvicted ← dismountFirst c target
  let preHeader ← readHeaderPrefix c path
  let reply ← dispatchPaidCommand c "Destroy-VeraCryptHeader"
    (insertRequest [("Path", .string path)] identity)
  let res ← check reply
  check (verifyReceipt c.readReceipt res identity)
  let postHeader ← readHeaderPrefix c path
  pure (eraseReceipt "veracrypt" (veracryptLabel target path) res keyEvicted isOs preHeader postHeader)

/-- The volume is locked to evict its key; a failure to do so is tried again at most once. -/
def lockVolume (identity : DestructiveRequestV2) (mountPoint : String) : ℕ → Run Bool
  | 0 => pure false
  | attempts + 1 => do
      let lock ← dispatchPaidCommand c "Lock-BitLockerVolume"
        (insertRequest [("MountPoint", .string mountPoint)] identity)
      check (match lock with
        | .ok value => verifyReceipt c.readReceipt value identity
        | .error _ => .ok ())
      if lock.toOption.bind statusText = some "locked" then pure true
      else lockVolume identity mountPoint attempts

/-- The system volume cannot be locked while it runs. -/
def evictKey (identity : DestructiveRequestV2) (mountPoint : String) (isOs : Bool) : Run Bool :=
  if isOs then pure false else lockVolume c identity mountPoint 2

def eraseBitlocker (identity : DestructiveRequestV2) (isOs : Bool) : Run EraseReceipt := do
  let mountPoint ← check (okOr target.mountPoint "bitlocker target requires a mount point")
  let reply ← dispatchPaidCommand c "Clear-BitLockerKeyProtectors"
    (insertRequest [("DriveLetter", .string mountPoint)] identity)
  let res ← check reply
  check (verifyReceipt c.readReceipt res identity)
  let keyEvicted ← evictKey c identity mountPoint isOs
  pure (eraseReceipt "bitlocker" ("BitLocker " ++ normDrive mountPoint) res keyEvicted isOs none none)

def eraseAdmitted (admitted : DestructiveRequestV2 × Bool) : Run EraseReceipt :=
  if target.kind = "veracrypt" then eraseVeracrypt c target admitted.1 admitted.2
  else if target.kind = "bitlocker" then eraseBitlocker c target admitted.1 admitted.2
  else check (.error s!"unknown target kind: {target.kind}")

def eraseEncryptedContainer (token : Option String) : Run EraseReceipt := do
  let admitted ← admitErase v c target token
  eraseAdmitted c target admitted

end Flow

section Gate

def Event.isDispatch : Event → Bool
  | .dispatch .. => true
  | _ => false

/-- A path in the device namespace of Windows, which reads both slashes alike. -/
def InDeviceNamespace (path : String) : Prop :=
  ∃ start ∈ devicePrefixes,
    start <+: ((AsciiText.trimChars path.toList).map fun c => if c = '/' then '\\' else c)

/-- The target is the system volume, by a mount point that resolves to it or as a raw device. -/
def NamesSystemVolume (v : Volumes) (target : EraseTargetInput) : Prop :=
  (target.kind = "bitlocker" ∧ ∃ mountPoint guid, target.mountPoint = some mountPoint ∧
    bitlockerVolumeGuid v.volumeGuid mountPoint = .ok guid ∧
    bitlockerVolumeGuid v.volumeGuid v.systemDrive = .ok guid) ∨
  (target.kind = "veracrypt" ∧ ∃ path, target.path = some path ∧ InDeviceNamespace path ∧
    v.holdsSystem path = true)

/-- The name of the system volume was typed. -/
def Acknowledges (v : Volumes) (target : EraseTargetInput) : Prop :=
  ∃ ack, target.osVolumeAck = some ack ∧ normDrive ack = normDrive v.systemDrive

/-- A target with these spellings is not dispatched without the name if it is the system volume. -/
def Gated (v : Volumes) (mountPoint path : Option String) : Prop :=
  ∀ c target token, target.mountPoint = mountPoint → target.path = path →
    (∃ e ∈ (eraseEncryptedContainer v c target token []).2, e.isDispatch = true) →
    NamesSystemVolume v target → Acknowledges v target

/-- A mount point of the system volume is spelled as the system drive is, up to case, blanks and
trailing backslashes, and a raw device of it with backslashes. -/
structure SpelledForGate (v : Volumes) (mountPoint path : Option String) : Prop where
  drive : ∀ mp guid, mountPoint = some mp → bitlockerVolumeGuid v.volumeGuid mp = .ok guid →
    bitlockerVolumeGuid v.volumeGuid v.systemDrive = .ok guid →
    normDrive mp = normDrive v.systemDrive
  device : ∀ p, path = some p → InDeviceNamespace p → v.holdsSystem p = true →
    ∃ start ∈ devicePrefixes, start <+: upperPath p

variable {v : Volumes} {c : Circumstances} {target : EraseTargetInput} {token : Option String}

/-- What the admission puts on record is no dispatch. -/
theorem admitErase_stops (v : Volumes) (c : Circumstances) (target : EraseTargetInput)
    (token : Option String) (log : List Event) :
    StopsAt (fun e => e.isDispatch = false) (fun _ => True) (admitErase v c target token) log := by
  have hcheck : ∀ {α : Type} (outcome : Except String α) (log : List Event),
      StopsAt (fun e : Event => e.isDispatch = false) (fun _ => True) (check outcome) log :=
    fun outcome log => stopsAt_quiet rfl
  have hrecorded : ∀ {α : Type} (answer : ℕ → Except String α) (event : Except String α → Event),
      (∀ outcome, (event outcome).isDispatch = false) → ∀ log,
      StopsAt (fun e : Event => e.isDispatch = false) (fun _ => True) (recorded id answer event) log :=
    fun answer event hevent log => stopsAt_recorded (hevent _) fun _ _ => trivial
  refine (hcheck _ _).bind fun _ _ _ => (hcheck _ _).bind fun _ _ _ => (hcheck _ _).bind
    fun _ _ _ => ?_
  refine (hrecorded _ _ (fun _ => rfl) _).bind fun _ _ _ => ?_
  refine (hrecorded _ _ (fun _ => rfl) _).bind fun _ _ _ => ?_
  exact (hcheck _ _).bind fun _ _ _ => stopsAt_quiet rfl

theorem check_ok {α : Type} {outcome : Except String α} {a : α} {log log' : List Event} :
    check outcome log = (.ok a, log') ↔ outcome = .ok a ∧ log = log' := ask_ok

/-- A target that counts as the system volume is admitted with its name only. -/
theorem admitErase_ok {admitted : DestructiveRequestV2 × Bool} {log log' : List Event}
    (h : admitErase v c target token log = (.ok admitted, log')) :
    admitted.2 = isOsTarget target.kind target.mountPoint target.path v.systemDrive ∧
      (admitted.2 = true → typedVolume v target = true) := by
  rw [admitErase] at h
  obtain ⟨_, _, _, h⟩ := Fallible.bind_ok.mp h
  obtain ⟨_, _, _, h⟩ := Fallible.bind_ok.mp h
  obtain ⟨_, _, _, h⟩ := Fallible.bind_ok.mp h
  obtain ⟨identity, log₁, _, h⟩ := Fallible.bind_ok.mp h
  obtain ⟨_, _, _, h⟩ := Fallible.bind_ok.mp h
  obtain ⟨_, _, hgate, h⟩ := Fallible.bind_ok.mp h
  have hadmitted := (Fallible.pure_ok.mp h).1
  have hgate := refuseIf_ok.mp (check_ok.mp hgate).1
  rw [← hadmitted]
  refine ⟨rfl, fun hos => ?_⟩
  by_contra htyped
  exact hgate ⟨hos, Bool.eq_false_of_not_eq_true htyped⟩

/-- Whatever is dispatched was admitted. -/
theorem admitted_of_dispatch
    (h : ∃ e ∈ (eraseEncryptedContainer v c target token []).2, e.isDispatch = true) :
    ∃ admitted log, admitErase v c target token [] = (.ok admitted, log) := by
  obtain ⟨added, hadded⟩ := admitErase_stops v c target token []
  cases hadmitted : admitErase v c target token [] with
  | mk result log =>
    cases result with
    | ok admitted => exact ⟨admitted, log, rfl⟩
    | error e =>
      have hlog : (eraseEncryptedContainer v c target token []).2 = added := by
        rw [eraseEncryptedContainer, bind_apply, hadmitted]
        have hrecord := hadded.record
        rw [hadmitted, List.nil_append] at hrecord
        exact hrecord
      obtain ⟨event, hevent, hdispatch⟩ := h
      rw [hlog] at hevent
      rw [hadded.kinds event hevent] at hdispatch
      cases hdispatch

theorem isSystemDevicePath_of_start {path sys : String}
    (h : ∃ start ∈ devicePrefixes, start <+: upperPath path) :
    isSystemDevicePath path sys = true := by
  obtain ⟨start, hstart, hprefix⟩ := h
  have hany : devicePrefixes.any (fun start => start.isPrefixOf (upperPath path)) = true :=
    List.any_eq_true.mpr ⟨start, hstart, List.isPrefixOf_iff_prefix.mpr hprefix⟩
  rw [isSystemDevicePath, hany, Bool.or_true]

theorem start_of_isSystemDevicePath {path sys : String} (h : isSystemDevicePath path sys = true) :
    ∃ start ∈ devicePrefixes, start <+: upperPath path := by
  rw [isSystemDevicePath, Bool.or_eq_true, List.any_eq_true, List.any_eq_true] at h
  rcases h with ⟨start, hstart, heq⟩ | ⟨start, hstart, hprefix⟩
  · refine ⟨start, hstart, ?_⟩
    rw [of_decide_eq_true heq]
    exact List.prefix_append _ _
  · exact ⟨start, hstart, List.isPrefixOf_iff_prefix.mp hprefix⟩

/-- With such spellings the system volume counts as the system volume. -/
theorem isOsTarget_of_spelled (h : SpelledForGate v target.mountPoint target.path)
    (hnames : NamesSystemVolume v target) :
    isOsTarget target.kind target.mountPoint target.path v.systemDrive = true := by
  rcases hnames with ⟨hkind, mp, guid, hmp, hguid, hsystem⟩ | ⟨hkind, path, hpath, hdevice, hholds⟩
  · have hdrive := h.drive mp guid hmp hguid hsystem
    simp [isOsTarget, hkind, hmp, hdrive]
  · have hstart : isSystemDevicePath path (normDrive v.systemDrive) = true :=
      isSystemDevicePath_of_start (h.device path hpath hdevice hholds)
    simp [isOsTarget, hkind, hpath, hstart]

theorem gated_of_spelled {mountPoint path : Option String} (h : SpelledForGate v mountPoint path) :
    Gated v mountPoint path := by
  intro c target token hmp hpath hdispatch hnames
  subst hmp hpath
  obtain ⟨admitted, log, hadmitted⟩ := admitted_of_dispatch hdispatch
  obtain ⟨hos, htyped⟩ := admitErase_ok hadmitted
  rw [isOsTarget_of_spelled h hnames] at hos
  have htyped := htyped hos
  rw [typedVolume, Option.any_eq_true] at htyped
  obtain ⟨ack, hack, hsame⟩ := htyped
  refine ⟨ack, hack, (of_decide_eq_true hsame).trans ?_⟩
  rcases hnames with ⟨hkind, mp, guid, hmp, hguid, hsystem⟩ | ⟨hkind, _⟩
  · rw [resolvedVolume, if_pos hkind, hmp, Option.getD_some]
    exact h.drive mp guid hmp hguid hsystem
  · have hne : target.kind ≠ "bitlocker" := by
      rw [hkind]
      decide
    rw [resolvedVolume, if_neg hne]

/-- A machine on which every erase is licensed, confirmed and authorised. -/
def willing : Circumstances where
  requirePaid := .ok ()
  isAdvancedMode := false
  canonicalize := fun _ path => .ok ("\\\\?\\" ++ path)
  fileIdentity := fun _ _ => some (1, 2)
  canonicalPath := id
  consumeRequired := fun _ _ => .ok ()
  sidecar := fun _ _ _ => .error "handler failed"
  readFile := fun _ _ => none
  readReceipt := fun _ => .error "missing field"

/-- With all of that given, a target that does not count as the system volume is admitted. -/
theorem willing_admits {target : EraseTargetInput} {identity : DestructiveRequestV2}
    (hconfirmed : target.confirmed = true) (hidentity : captureIdentity v willing target 0 = .ok identity)
    (hos : isOsTarget target.kind target.mountPoint target.path v.systemDrive = false) :
    ∃ log, admitErase v willing target none [] = (.ok (identity, false), log) := by
  have hidle : refuseIf (target.confirmed = false) "Refusing: erase not confirmed." = .ok () :=
    refuseIf_ok.mpr (by simp [hconfirmed])
  have hlast : ∀ e : String,
      refuseIf (false = true ∧ typedVolume v target = false) e = .ok () :=
    fun e => refuseIf_ok.mpr (by simp)
  refine ⟨[.capture (.ok identity), .consume (.ok ())], ?_⟩
  refine Fallible.bind_ok.mpr ⟨(), [], rfl, ?_⟩
  refine Fallible.bind_ok.mpr ⟨(), [], rfl, ?_⟩
  refine Fallible.bind_ok.mpr ⟨(), [], check_ok.mpr ⟨hidle, rfl⟩, ?_⟩
  refine Fallible.bind_ok.mpr ⟨identity, _, recorded_ok.mpr ⟨hidentity, rfl⟩, ?_⟩
  refine Fallible.bind_ok.mpr ⟨(), _, recorded_ok.mpr ⟨rfl, rfl⟩, ?_⟩
  rw [hos]
  exact Fallible.bind_ok.mpr ⟨(), _, check_ok.mpr ⟨hlast _, rfl⟩, Fallible.pure_ok.mpr ⟨rfl, rfl⟩⟩

/-- Under a gate, a named system volume that counts as another one is never dispatched. -/
theorem dispatch_of_gated {mountPoint path : Option String} {target : EraseTargetInput}
    {identity : DestructiveRequestV2} {log : List Event} (h : Gated v mountPoint path)
    (hmp : target.mountPoint = mountPoint) (hpath : target.path = path)
    (hack : target.osVolumeAck = none) (hnames : NamesSystemVolume v target)
    (hadmitted : admitErase v willing target none [] = (.ok (identity, false), log)) :
    ∀ e ∈ (eraseAdmitted willing target (identity, false) log).2, e.isDispatch = false := by
  intro e he
  by_contra hdispatch
  have hmem : e ∈ (eraseEncryptedContainer v willing target none []).2 := by
    rw [eraseEncryptedContainer, bind_of_ok hadmitted]
    exact he
  obtain ⟨ack, hgiven, _⟩ := h willing target none hmp hpath
    ⟨e, hmem, Bool.eq_true_of_not_eq_false hdispatch⟩ hnames
  rw [hack] at hgiven
  cases hgiven

/-- The handler that removes the key protectors is called first of all. -/
theorem bitlocker_dispatches (target : EraseTargetInput) {mp : String}
    (hkind : target.kind = "bitlocker") (hmp : target.mountPoint = some mp)
    (identity : DestructiveRequestV2) (log : List Event) :
    ∃ e ∈ (eraseAdmitted willing target (identity, false) log).2, e.isDispatch = true := by
  refine ⟨.dispatch "Clear-BitLockerKeyProtectors"
    (insertRequest [("DriveLetter", .string mp)] identity) (.error "handler failed"), ?_, rfl⟩
  have hvera : target.kind ≠ "veracrypt" := by
    rw [hkind]
    decide
  have hcheck : check (okOr target.mountPoint "bitlocker target requires a mount point") log =
      (.ok mp, log) := check_ok.mpr ⟨by rw [hmp]; rfl, rfl⟩
  rw [eraseAdmitted, if_neg hvera, if_pos hkind, eraseBitlocker, bind_of_ok hcheck]
  exact List.mem_append_right log (List.mem_singleton_self _)

/-- The handler that destroys the header is called for a container that is not mounted. -/
theorem veracrypt_dispatches (target : EraseTargetInput) {p : String}
    (hkind : target.kind = "veracrypt") (hpath : target.path = some p)
    (hletter : target.mountLetter = none) (identity : DestructiveRequestV2) (log : List Event) :
    ∃ e ∈ (eraseAdmitted willing target (identity, false) log).2, e.isDispatch = true := by
  have hnonempty : "\\\\?\\" ++ p ≠ "" := by
    intro hempty
    have hlength := congrArg String.length hempty
    simp [String.length_append] at hlength
  refine ⟨.dispatch "Destroy-VeraCryptHeader"
    (insertRequest [("Path", .string ("\\\\?\\" ++ p))] identity) (.error "handler failed"), ?_, rfl⟩
  have hcapture : captureFile willing log.length (target.path.getD "") = .ok ⟨"\\\\?\\" ++ p,
      .new (.file (fromU64 (1 : UInt32).toUInt64) (fromU64 2))⟩ := by
    rw [hpath]
    rfl
  have hcheck : ∀ log', check (refuseIf ("\\\\?\\" ++ p = "") "veracrypt target requires a path") log' =
      (.ok (), log') := fun log' => check_ok.mpr ⟨refuseIf_ok.mpr hnonempty, rfl⟩
  have hdismount : ∀ log', dismountFirst willing target log' = (.ok false, log') := by
    intro log'
    rw [dismountFirst, hletter]
    rfl
  rw [eraseAdmitted, if_pos hkind, eraseVeracrypt,
    bind_of_ok (recorded_ok.mpr ⟨hcapture, rfl⟩), bind_of_ok (hcheck _), bind_of_ok (hdismount _)]
  exact List.mem_append_right _ (List.mem_singleton_self _)

theorem bitlocker_captured {target : EraseTargetInput} {mp guid : String} {time : ℕ}
    (hkind : target.kind = "bitlocker") (hmp : target.mountPoint = some mp)
    (hguid : bitlockerVolumeGuid v.volumeGuid mp = .ok guid) :
    captureIdentity v willing target time = .ok (DestructiveRequestV2.new (.bitlockerVolume guid)) := by
  have hplain : AsciiText.lower (AsciiText.trim target.kind) = "bitlocker" := by
    rw [hkind]
    decide
  have hvera : "bitlocker" ≠ "veracrypt" := by decide
  rw [captureIdentity, hplain, if_neg hvera, if_pos rfl]
  refine Outcome.bind_ok.mpr ⟨mp, by rw [hmp]; rfl, ?_⟩
  exact Outcome.bind_ok.mpr ⟨guid, hguid, rfl⟩

theorem veracrypt_captured {target : EraseTargetInput} {p : String} {time : ℕ}
    (hkind : target.kind = "veracrypt") (hpath : target.path = some p) :
    captureIdentity v willing target time =
      .ok (DestructiveRequestV2.new (.file (fromU64 (1 : UInt32).toUInt64) (fromU64 2))) := by
  have hplain : AsciiText.lower (AsciiText.trim target.kind) = "veracrypt" := by
    rw [hkind]
    decide
  rw [captureIdentity, hplain, if_pos rfl]
  exact Outcome.bind_ok.mpr ⟨p, by rw [hpath]; rfl, rfl⟩

/-- A gate needs the spelling. -/
theorem spelled_of_gated {mountPoint path : Option String} (h : Gated v mountPoint path) :
    SpelledForGate v mountPoint path where
  drive := by
    intro mp guid hmp hguid hsystem
    by_contra hne
    let target : EraseTargetInput := ⟨"bitlocker", path, none, mountPoint, true, none⟩
    have hos : isOsTarget target.kind target.mountPoint target.path v.systemDrive = false := by
      simp [isOsTarget, target, hmp, hne]
    have hnames : NamesSystemVolume v target := .inl ⟨rfl, mp, guid, hmp, hguid, hsystem⟩
    obtain ⟨log, hadmitted⟩ := willing_admits rfl (bitlocker_captured rfl hmp hguid) hos
    obtain ⟨e, he, hdispatch⟩ := bitlocker_dispatches target rfl hmp
      (DestructiveRequestV2.new (.bitlockerVolume guid)) log
    rw [dispatch_of_gated h rfl rfl rfl hnames hadmitted e he] at hdispatch
    cases hdispatch
  device := by
    intro p hpath hdevice hholds
    by_contra hnone
    let target : EraseTargetInput := ⟨"veracrypt", path, none, mountPoint, true, none⟩
    have hos : isOsTarget target.kind target.mountPoint target.path v.systemDrive = false := by
      have hnot : isSystemDevicePath p (normDrive v.systemDrive) = false :=
        Bool.eq_false_of_not_eq_true fun hstart => hnone (start_of_isSystemDevicePath hstart)
      simp [isOsTarget, target, hpath, hnot]
    have hnames : NamesSystemVolume v target := .inr ⟨rfl, p, hpath, hdevice, hholds⟩
    obtain ⟨log, hadmitted⟩ := willing_admits rfl (veracrypt_captured rfl hpath) hos
    obtain ⟨e, he, hdispatch⟩ := veracrypt_dispatches target rfl hpath rfl
      (DestructiveRequestV2.new (.file (fromU64 (1 : UInt32).toUInt64) (fromU64 2))) log
    rw [dispatch_of_gated h rfl rfl rfl hnames hadmitted e he] at hdispatch
    cases hdispatch

theorem gated_iff {mountPoint path : Option String} :
    Gated v mountPoint path ↔ SpelledForGate v mountPoint path :=
  ⟨spelled_of_gated, gated_of_spelled⟩

/-- The system volume is gated and receipts are honest, for exactly the spellings that the gate reads
as the system volume and exactly the replies and reads that can be told apart. -/
theorem selective_erase_iff (v : Volumes) (mountPoint path : Option String) (handler : Value)
    (pre post : Option (List UInt8)) :
    Gated v mountPoint path ∧ HonestReceipts handler pre post ↔
      SpelledForGate v mountPoint path ∧ Comparable handler pre post :=
  and_congr gated_iff honestReceipts_iff

/-- A mount point without its colon is the system drive for the resolver and a data drive for the gate,
and a second read of a header that returns one byte more counts as a changed header. -/
theorem missing_colon_and_short_read :
    ¬ Gated ⟨"C:", fun _ => .ok "volume", fun _ => false⟩ (some "C") none ∧
      ¬ HonestReceipts (.object [("status", .string "destroyed")]) (some [1, 2]) (some [1, 2, 3]) := by
  constructor
  · intro h
    have hdrive := (spelled_of_gated h).drive "C" "volume" rfl (by rfl) (by rfl)
    revert hdrive
    decide
  · intro h
    have hsame := (honestReceipts_iff.mp h).headers (by decide) [1, 2] [1, 2, 3] rfl rfl
      (Or.inl ⟨[3], rfl⟩)
    revert hsame
    decide

/-- Every receipt that an erase returns is that of a reply and two reads. -/
theorem receipt_of_erase {receipt : EraseReceipt} {log log' : List Event}
    (h : eraseEncryptedContainer v c target token log = (.ok receipt, log')) :
    ∃ label handler keyEvicted isOs pre post,
      receipt = eraseReceipt target.kind label handler keyEvicted isOs pre post := by
  obtain ⟨⟨identity, isOs⟩, log₁, _, h⟩ := Fallible.bind_ok.mp h
  by_cases hvera : target.kind = "veracrypt"
  · rw [eraseAdmitted, if_pos hvera] at h
    obtain ⟨expected, _, _, h⟩ := Fallible.bind_ok.mp h
    obtain ⟨_, _, _, h⟩ := Fallible.bind_ok.mp h
    obtain ⟨keyEvicted, _, _, h⟩ := Fallible.bind_ok.mp h
    obtain ⟨pre, _, _, h⟩ := Fallible.bind_ok.mp h
    obtain ⟨_, _, _, h⟩ := Fallible.bind_ok.mp h
    obtain ⟨res, _, _, h⟩ := Fallible.bind_ok.mp h
    obtain ⟨_, _, _, h⟩ := Fallible.bind_ok.mp h
    obtain ⟨post, _, _, h⟩ := Fallible.bind_ok.mp h
    rw [hvera]
    exact ⟨_, res, keyEvicted, isOs, pre, post, (Fallible.pure_ok.mp h).1.symm⟩
  · by_cases hbit : target.kind = "bitlocker"
    · rw [eraseAdmitted, if_neg hvera, if_pos hbit] at h
      obtain ⟨mountPoint, _, _, h⟩ := Fallible.bind_ok.mp h
      obtain ⟨_, _, _, h⟩ := Fallible.bind_ok.mp h
      obtain ⟨res, _, _, h⟩ := Fallible.bind_ok.mp h
      obtain ⟨_, _, _, h⟩ := Fallible.bind_ok.mp h
      obtain ⟨keyEvicted, _, _, h⟩ := Fallible.bind_ok.mp h
      rw [hbit]
      exact ⟨_, res, keyEvicted, isOs, none, none, (Fallible.pure_ok.mp h).1.symm⟩
    · rw [eraseAdmitted, if_neg hvera, if_neg hbit] at h
      cases (check_ok.mp h).1

end Gate

end SelectiveErase
