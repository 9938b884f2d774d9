import WinCommander.RebootWipe.Orchestrator

/-!
# Keys before reboot

Stage 2 begins only when every configured target answered with a receipt for its own identity, and the
run ends at the first event that says otherwise.  This holds exactly when the target lists could be
read.
-/

namespace RebootWipe

open Fallible Json WipeAuth

variable {SigningKey VerifyingKey : Type} (machine : Machine SigningKey VerifyingKey)

section Contract

def Target.successStatus : Target → String
  | .drive _ => "ok"
  | .container _ | .device _ => "destroyed"

/-- A reply with a verified receipt for exactly this identity, and the success status. -/
structure Destroys (target : Target) (identity : DestructiveRequestV2) (v : Value) : Prop where
  receipt : ∃ member, v.get "mutation_receipt" = some member ∧
    machine.readReceipt member = .ok ⟨identity.version, identity.target, true⟩
  status : (v.get "status").bind Value.asStr = some target.successStatus

def Confirmed : Event → Prop
  | .readDrives settings | .readVeracrypt settings => ∃ s, settings = .ok s
  | .capture _ identity => ∃ request, identity = .ok request
  | .dispatch target identity _ reply => ∃ v, reply = .ok v ∧ Destroys machine target identity v
  | .deleteKey reply => ∃ v, reply = .ok v
  | .writeToken outcome | .reboot outcome => ∃ u, outcome = .ok u
  | .setBootNext outcome => ∃ entry, outcome = .ok entry

def Event.IsStage2 : Event → Prop
  | .writeToken _ | .setBootNext _ | .reboot _ => True
  | _ => False

/-- The identity of a target and the payload that names it. -/
def captured (time : ℕ) : Target → Except String (DestructiveRequestV2 × List (String × Value))
  | .drive drive => (bitlockerIdentity (machine.volumeGuid time) drive).map fun identity =>
      (identity, drivePayload drive)
  | .container path => (captureFile machine time path).map fun expected =>
      (expected.request, containerPayload expected.canonicalPath)
  | .device device => .ok (rawPartitionIdentity device, devicePayload device)

/-- The events of a target that was captured, dispatched with its own identity, and destroyed. -/
def ErasedAt (time : ℕ) (target : Target) (events : List Event) : Prop :=
  ∃ identity payload v, captured machine time target = .ok (identity, payload) ∧
    machine.sidecar (time + 1) "run_destruct_step" (insertRequest payload identity) = .ok v ∧
    Destroys machine target identity v ∧
    events = [.capture target (.ok identity),
      .dispatch target identity (insertRequest payload identity) (.ok v)]

/-- A step for one target succeeds exactly when it captures the target and destroys it. -/
def Erases {α : Type} (step : Run α) (target : Target) : Prop :=
  ∀ log log', (∃ a, step log = (.ok a, log')) ↔
    ∃ events, ErasedAt machine log.length target events ∧ log' = log ++ events

def AllErased : ℕ → List Target → List Event → Prop
  | _, [], events => events = []
  | time, target :: rest, events => ∃ first more, ErasedAt machine time target first ∧
      AllErased (time + 2) rest more ∧ events = first ++ more

def driveTargets (settings : AppSettings) : List Target :=
  (settings.selfDestruct.cryptoEraseBitlockerDrives.getD []).map .drive

def veracryptTargets (settings : AppSettings) : List Target :=
  (settings.selfDestruct.cryptoEraseVeracryptPaths.getD []).map .container ++
    (settings.selfDestruct.cryptoEraseVeracryptDevices.getD []).map .device

/-- The record of a stage 1 that destroyed every configured target and deleted the TPM key. -/
def Stage1Done (events : List Event) : Prop :=
  ∃ drives veracrypt erased destroyed v,
    AllErased machine 1 (driveTargets drives) erased ∧
    AllErased machine (erased.length + 2) (veracryptTargets veracrypt) destroyed ∧
    events = .readDrives (.ok drives) ::
      (erased ++ .readVeracrypt (.ok veracrypt) :: (destroyed ++ [.deleteKey (.ok v)]))

/-- The first event that is not confirmed is the last one, and the run failed; nothing of stage 2
happens before stage 1 is done. -/
structure KeysFirst (run : Except Failure F6Outcome × List Event) : Prop where
  stops : ∀ before e after, run.2 = before ++ e :: after → ¬ Confirmed machine e →
    after = [] ∧ ∃ failure, run.1 = .error failure
  keys : ∀ before e after, run.2 = before ++ e :: after → e.IsStage2 →
    ∃ events more, before = events ++ more ∧ Stage1Done machine events

/-- The gate lets the run begin. -/
def GateOpen (enabled rebootToUsbEnabled : Option Bool) : Prop :=
  rebootToUsbArmed enabled rebootToUsbEnabled = true ∧ machine.advancedMode = false ∧
    machine.decoyMode = false

/-- The list of drives can be read, and if all of them can be erased, so can the list of VeraCrypt
targets. -/
def ListsReadable : Prop :=
  ∃ drives, machine.bitlockerSettings = .ok drives ∧
    ((∃ events, AllErased machine 1 (driveTargets drives) events) →
      ∃ veracrypt, machine.veracryptSettings = .ok veracrypt)

end Contract

section Targets

theorem verifyReceipt_ok {readReceipt : Value → Except String MutationReceiptV2} {v : Value}
    {request : DestructiveRequestV2} {u : Unit} : verifyReceipt readReceipt v request = .ok u ↔
      ∃ member, v.get "mutation_receipt" = some member ∧
        readReceipt member = .ok ⟨request.version, request.target, true⟩ := by
  simp only [verifyReceipt, Outcome.bind_ok, Outcome.okOr_ok, Outcome.mapError_ok,
    Outcome.refuseIf_ok]
  constructor
  · rintro ⟨member, hmember, ⟨version, target, verified⟩, hreceipt, hsame⟩
    have hverified : verified = true := by by_contra h; simp [h] at hsame
    have hversion : version = request.version := by by_contra h; simp [h] at hsame
    have htarget : target = request.target := by by_contra h; simp [h] at hsame
    rw [hverified, hversion, htarget] at hreceipt
    exact ⟨member, hmember, hreceipt⟩
  · rintro ⟨member, hmember, hreceipt⟩
    exact ⟨member, hmember, _, hreceipt, by simp⟩

theorem cryptoEraseStatusResult_ok {v : Value} {status : String} {u : Unit} :
    cryptoEraseStatusResult v status = .ok u ↔ (v.get "status").bind Value.asStr = some status := by
  unfold cryptoEraseStatusResult
  split
  · rename_i s hs
    by_cases h : s = status
    · simp [h, hs]
    · simp [h, hs]
  · rename_i hnone
    simp [hnone]

@[simp] theorem check_ok {α : Type} {outcome : Except String α} {a : α} {log log' : List Event} :
    check outcome log = (.ok a, log') ↔ outcome = .ok a ∧ log = log' := by
  simp [check]

@[simp] theorem inContext_ok {α : Type} {context : String → String} {step : Run α} {a : α}
    {log log' : List Event} :
    inContext context step log = (.ok a, log') ↔ step log = (.ok a, log') := by
  unfold inContext
  split
  · rename_i h
    simp [h]
  · rfl

theorem runDestructStep_ok {target : Target} {identity : DestructiveRequestV2}
    {payload : List (String × Value)} {v : Value} {log log' : List Event} :
    runDestructStep machine target identity payload log = (.ok v, log') ↔
      machine.sidecar log.length "run_destruct_step" (insertRequest payload identity) = .ok v ∧
        log' = log ++ [.dispatch target identity (insertRequest payload identity) (.ok v)] := by
  rw [runDestructStep]
  exact recorded_ok

/-- A target was captured as `identity`, and the request for it destroys it. -/
def Requests {α : Type} (step : Run α) (target : Target) (identity : DestructiveRequestV2)
    (payload : List (String × Value)) : Prop :=
  ∀ log log', (∃ a, step log = (.ok a, log')) ↔ ∃ v,
    machine.sidecar log.length "run_destruct_step" (insertRequest payload identity) = .ok v ∧
    Destroys machine target identity v ∧
    log' = log ++ [.dispatch target identity (insertRequest payload identity) (.ok v)]

theorem requests_drive (drive : String) (identity : DestructiveRequestV2) :
    Requests machine (do
      let v ← runDestructStep machine (.drive drive) identity (drivePayload drive)
      check (verifyReceipt machine.readReceipt v identity)
      check ((cryptoEraseStatusResult v "ok").mapError fun e => s!"bitlocker_erase: {drive}: {e}")
      pure (escrowWarning drive v)) (.drive drive) identity (drivePayload drive) := by
  intro log log'
  simp only [bind_ok, runDestructStep_ok, check_ok, Outcome.mapError_ok, verifyReceipt_ok, pure_ok,
    cryptoEraseStatusResult_ok]
  constructor
  · rintro ⟨w, v, log₁, ⟨hreply, hlog⟩, u, log₂, ⟨hreceipt, hkept⟩, u', log₃, ⟨hstatus, hkept'⟩, hw,
      hlast⟩
    exact ⟨v, hreply, ⟨hreceipt, hstatus⟩, by rw [← hlast, ← hkept', ← hkept, hlog]⟩
  · rintro ⟨v, hreply, hdestroys, hlog⟩
    exact ⟨_, v, log', ⟨hreply, hlog⟩, (), log', ⟨hdestroys.receipt, rfl⟩, (), log',
      ⟨hdestroys.status, rfl⟩, rfl, rfl⟩

theorem requests_header {target : Target} (htarget : target.successStatus = "destroyed")
    (name : String) (identity : DestructiveRequestV2) (payload : List (String × Value)) :
    Requests machine (destroyHeader machine target name identity payload) target identity
      payload := by
  intro log log'
  simp only [destroyHeader, inContext_ok, bind_ok, runDestructStep_ok, check_ok, verifyReceipt_ok,
    cryptoEraseStatusResult_ok]
  constructor
  · rintro ⟨w, v, log₁, ⟨hreply, hlog⟩, u, log₂, ⟨hreceipt, hkept⟩, hstatus, hkept'⟩
    rw [← htarget] at hstatus
    exact ⟨v, hreply, ⟨hreceipt, hstatus⟩, by rw [← hkept', ← hkept, hlog]⟩
  · rintro ⟨v, hreply, hdestroys, hlog⟩
    have hstatus := hdestroys.status
    rw [htarget] at hstatus
    exact ⟨(), v, log', ⟨hreply, hlog⟩, (), log', ⟨hdestroys.receipt, rfl⟩, hstatus, rfl⟩

/-- A capture of the target, and then a request for what was captured. -/
theorem erases_of_requests {γ α : Type} {answer : ℕ → Except String γ}
    {event : Except String γ → Event} {identityOf : γ → DestructiveRequestV2}
    {payloadOf : γ → List (String × Value)} {target : Target} {rest : γ → Run α}
    (hevent : ∀ c, event (.ok c) = .capture target (.ok (identityOf c)))
    (hcaptured : ∀ time, captured machine time target =
      (answer time).map fun c => (identityOf c, payloadOf c))
    (hrest : ∀ c, Requests machine (rest c) target (identityOf c) (payloadOf c)) :
    Erases machine (recorded .failed answer event >>= rest) target := by
  intro log log'
  simp only [bind_ok, recorded_ok, hevent]
  constructor
  · rintro ⟨a, c, log₁, ⟨hanswer, hlog₁⟩, ha⟩
    obtain ⟨v, hreply, hdestroys, hlog'⟩ := (hrest c log₁ log').mp ⟨a, ha⟩
    rw [hlog₁, List.length_append, List.length_singleton] at hreply
    refine ⟨_, ⟨identityOf c, payloadOf c, v, ?_, hreply, hdestroys, rfl⟩, ?_⟩
    · rw [hcaptured, hanswer]
      rfl
    · rw [hlog', hlog₁, List.append_assoc]
      rfl
  · rintro ⟨events, ⟨identity, payload, v, hidentity, hreply, hdestroys, hevents⟩, hlog'⟩
    rw [hcaptured] at hidentity
    cases hanswer : answer log.length with
    | error e => simp [hanswer, Except.map] at hidentity
    | ok c =>
      simp only [hanswer, Except.map, Except.ok.injEq, Prod.mk.injEq] at hidentity
      rw [← hidentity.1, ← hidentity.2] at hreply hevents
      rw [← hidentity.1] at hdestroys
      have hlength : (log ++ [Event.capture target (.ok (identityOf c))]).length = log.length + 1 := by
        rw [List.length_append, List.length_singleton]
      rw [← hlength] at hreply
      obtain ⟨a, ha⟩ := (hrest c _ log').mpr ⟨v, hreply, hdestroys, by
        rw [hlog', hevents, List.append_assoc]
        rfl⟩
      exact ⟨a, c, _, ⟨rfl, rfl⟩, ha⟩

theorem erases_drive (drive : String) : Erases machine (eraseDrive machine drive) (.drive drive) :=
  erases_of_requests machine (fun _ => rfl) (fun _ => rfl) (requests_drive machine drive)

theorem erases_container (path : String) :
    Erases machine (destroyContainer machine path) (.container path) :=
  erases_of_requests machine (fun _ => rfl) (fun _ => rfl) fun expected =>
    requests_header machine rfl path expected.request (containerPayload expected.canonicalPath)

theorem erases_device (device : VeraCryptDeviceEraseTarget) :
    Erases machine (destroyDevice machine device) (.device device) :=
  erases_of_requests machine (fun _ => rfl) (fun _ => rfl) fun identity =>
    requests_header machine rfl device.devicePath identity (devicePayload device)

end Targets

section Stages

/-- A step succeeds exactly when it destroys these targets in turn. -/
def ErasesAll {α : Type} (step : Run α) (targets : List Target) : Prop :=
  ∀ log log', (∃ a, step log = (.ok a, log')) ↔
    ∃ events, AllErased machine log.length targets events ∧ log' = log ++ events

variable {machine}

theorem ErasedAt.length {time : ℕ} {target : Target} {events : List Event}
    (h : ErasedAt machine time target events) : events.length = 2 := by
  obtain ⟨identity, payload, v, hidentity, hreply, hdestroys, hevents⟩ := h
  rw [hevents]
  rfl

theorem allErased_append {time : ℕ} {targets more : List Target} {events : List Event} :
    AllErased machine time (targets ++ more) events ↔ ∃ first rest,
      AllErased machine time targets first ∧ AllErased machine (time + first.length) more rest ∧
      events = first ++ rest := by
  induction targets generalizing time events with
  | nil => simp [AllErased]
  | cons target targets ih =>
    simp only [List.cons_append, AllErased, ih]
    constructor
    · rintro ⟨one, others, hone, ⟨first, rest, hfirst, hrest, hothers⟩, hevents⟩
      refine ⟨one ++ first, rest, ⟨one, first, hone, hfirst, rfl⟩, ?_, ?_⟩
      · rwa [List.length_append, hone.length, ← Nat.add_assoc]
      · rw [hevents, hothers, List.append_assoc]
    · rintro ⟨first, rest, ⟨one, others, hone, hothers, hfirst⟩, hrest, hevents⟩
      refine ⟨one, others ++ rest, hone, ⟨others, rest, hothers, ?_, rfl⟩, ?_⟩
      · rwa [hfirst, List.length_append, hone.length, ← Nat.add_assoc] at hrest
      · rw [hevents, hfirst, List.append_assoc]

theorem Erases.all {α : Type} {step : Run α} {target : Target} (h : Erases machine step target) :
    ErasesAll machine step [target] := by
  intro log log'
  rw [h log log']
  simp [AllErased]

theorem erasesAll_pure {α : Type} (a : α) : ErasesAll machine (pure a) [] := by
  intro log log'
  simp only [pure_ok, AllErased]
  constructor
  · rintro ⟨b, hb, hlog⟩
    exact ⟨[], rfl, by rw [← hlog, List.append_nil]⟩
  · rintro ⟨events, hevents, hlog⟩
    exact ⟨a, rfl, by rw [hlog, hevents, List.append_nil]⟩

theorem ErasesAll.bind {α β : Type} {step : Run α} {next : α → Run β} {targets more : List Target}
    (hstep : ErasesAll machine step targets) (hnext : ∀ a, ErasesAll machine (next a) more) :
    ErasesAll machine (step >>= next) (targets ++ more) := by
  intro log log'
  simp only [bind_ok, allErased_append]
  constructor
  · rintro ⟨b, a, log₁, ha, hb⟩
    obtain ⟨first, hfirst, hlog₁⟩ := (hstep log log₁).mp ⟨a, ha⟩
    obtain ⟨rest, hrest, hlog'⟩ := (hnext a log₁ log').mp ⟨b, hb⟩
    rw [hlog₁, List.length_append] at hrest
    exact ⟨first ++ rest, ⟨first, rest, hfirst, hrest, rfl⟩, by
      rw [hlog', hlog₁, List.append_assoc]⟩
  · rintro ⟨events, ⟨first, rest, hfirst, hrest, hevents⟩, hlog'⟩
    obtain ⟨a, ha⟩ := (hstep log (log ++ first)).mpr ⟨first, hfirst, rfl⟩
    rw [← List.length_append] at hrest
    obtain ⟨b, hb⟩ := (hnext a (log ++ first) log').mpr ⟨rest, hrest, by
      rw [hlog', hevents, List.append_assoc]⟩
    exact ⟨b, a, log ++ first, ha, hb⟩

theorem erasesAll_collect {α β : Type} {step : α → Run β} {target : α → Target}
    (h : ∀ a, Erases machine (step a) (target a)) (xs : List α) :
    ErasesAll machine (collect step xs) (xs.map target) := by
  induction xs with
  | nil => exact erasesAll_pure []
  | cons x xs ih =>
    apply (h x).all.bind
    intro b
    have hrest := ih.bind fun bs => @erasesAll_pure _ _ machine _ (b :: bs)
    rwa [List.append_nil] at hrest

theorem erasesAll_each {α : Type} {step : α → Run Unit} {target : α → Target}
    (h : ∀ a, Erases machine (step a) (target a)) (xs : List α) :
    ErasesAll machine (each step xs) (xs.map target) := by
  induction xs with
  | nil => exact erasesAll_pure ()
  | cons x xs ih => exact (h x).all.bind fun _ => ih

variable (machine)

theorem erasesAll_drives (drives : List String) :
    ErasesAll machine (collect (eraseDrive machine) drives) (drives.map .drive) :=
  erasesAll_collect (erases_drive machine) drives

theorem erasesAll_veracrypt (paths : List String) (devices : List VeraCryptDeviceEraseTarget) :
    ErasesAll machine (do
      each (destroyContainer machine) paths
      each (destroyDevice machine) devices) (paths.map .container ++ devices.map .device) :=
  (erasesAll_each (erases_container machine) paths).bind fun _ =>
    erasesAll_each (erases_device machine) devices

theorem bitlockerErase_ok {log' : List Event} :
    (∃ w, bitlockerErase machine [] = (.ok w, log')) ↔ ∃ events,
      AllErased machine 1 ((configuredDrives machine.bitlockerSettings).map .drive) events ∧
      log' = .readDrives machine.bitlockerSettings :: events := by
  apply Iff.trans _ (erasesAll_drives machine (configuredDrives machine.bitlockerSettings)
    [.readDrives machine.bitlockerSettings] log')
  simp only [bitlockerErase, bind_ok, observe_ok, pure_ok]
  constructor
  · rintro ⟨w, u, log₁, hread, warnings, log₂, hwarnings, hw, hlog⟩
    rw [hread, hlog] at hwarnings
    exact ⟨warnings, hwarnings⟩
  · rintro ⟨warnings, hwarnings⟩
    exact ⟨_, ⟨⟩, _, rfl, warnings, log', hwarnings, rfl, rfl⟩

theorem veracryptDestroy_ok {u : Unit} {log log' : List Event}
    (h : veracryptDestroy machine log = (.ok u, log')) : ∃ events,
      AllErased machine (log.length + 1)
        ((configuredVeracrypt machine.veracryptSettings).1.map .container ++
          (configuredVeracrypt machine.veracryptSettings).2.map .device) events ∧
      log' = log ++ .readVeracrypt machine.veracryptSettings :: events := by
  obtain ⟨v, log₁, hread, hrest⟩ := bind_ok.mp h
  rw [observe_ok.mp hread] at hrest
  obtain ⟨events, hevents, hlog'⟩ := (erasesAll_veracrypt machine _ _ _ log').mp ⟨u, hrest⟩
  rw [List.length_append, List.length_singleton] at hevents
  exact ⟨events, hevents, by rw [hlog', List.append_assoc]; rfl⟩

theorem vaultTpmDelete_ok {u : Unit} {log log' : List Event}
    (h : vaultTpmDelete machine log = (.ok u, log')) : ∃ v, log' = log ++ [.deleteKey (.ok v)] := by
  simp only [vaultTpmDelete, bind_ok, recorded_ok, pure_ok] at h
  obtain ⟨v, log₁, ⟨hv, hlog₁⟩, hu, hlog'⟩ := h
  exact ⟨v, by rw [← hlog', hlog₁]⟩

end Stages

section Stopping

def Event.IsStage1 (e : Event) : Prop := ¬ e.IsStage2

theorem inContext_record {α : Type} (context : String → String) (step : Run α) (log : List Event) :
    (inContext context step log).2 = (step log).2 := by
  unfold inContext
  split
  · rename_i h
    rw [h]
  · rfl

theorem quiet_check {α : Type} (outcome : Except String α) : Quiet (check outcome) := quiet_ask _

theorem stopsAt_inContext {α : Type} {kind good : Event → Prop} {step : Run α} {log : List Event}
    (h : StopsAt kind good step log) (context : String → String) :
    StopsAt kind good (inContext context step) log := by
  obtain ⟨added, hadded⟩ := h
  refine ⟨added, (inContext_record context step log).trans hadded.record, hadded.kinds,
    hadded.before, ?_⟩
  intro a ha
  have hstep : RebootWipe.inContext context step log =
      (.ok a, (RebootWipe.inContext context step log).2) := by rw [← ha]
  rw [inContext_ok] at hstep
  exact hadded.success a (by rw [hstep])

variable {good : Event → Prop} (hgood : ∀ e, Confirmed machine e → good e) (log : List Event)

section
include hgood

theorem stopsAt_request {α : Type} {step : Run α} {target : Target}
    {identity : DestructiveRequestV2} {payload : List (String × Value)}
    (hstep : Requests machine step target identity payload)
    (hrecord : (step log).2 = (runDestructStep machine target identity payload log).2) :
    StopsAt Event.IsStage1 good step log := by
  apply stopsAt_one hrecord (by simp [Event.IsStage1, Event.IsStage2])
  intro a ha
  obtain ⟨v, hreply, hdestroys, hlog⟩ := (hstep log (step log).2).mp ⟨a, by rw [← ha]⟩
  exact hgood _ ⟨v, hreply, hdestroys⟩

theorem stopsAt_drive (drive : String) :
    StopsAt Event.IsStage1 good (eraseDrive machine drive) log := by
  apply StopsAt.bind
  · apply stopsAt_recorded (by simp [Event.IsStage1, Event.IsStage2])
    intro identity hidentity
    exact hgood _ ⟨identity, rfl⟩
  · intro identity log' _
    apply stopsAt_request machine hgood log' (requests_drive machine drive identity)
    apply bind_record
    intro v
    exact (quiet_check _).bind fun _ => (quiet_check _).bind fun _ => quiet_pure _

theorem stopsAt_header {target : Target} (htarget : target.successStatus = "destroyed")
    (name : String) (identity : DestructiveRequestV2) (payload : List (String × Value)) :
    StopsAt Event.IsStage1 good (destroyHeader machine target name identity payload) log := by
  apply stopsAt_request machine hgood log (requests_header machine htarget name identity payload)
  rw [destroyHeader, inContext_record]
  apply bind_record
  intro v
  exact (quiet_check _).bind fun _ => quiet_check _

theorem stopsAt_container (path : String) :
    StopsAt Event.IsStage1 good (destroyContainer machine path) log := by
  apply StopsAt.bind
  · apply stopsAt_recorded (by simp [Event.IsStage1, Event.IsStage2])
    intro expected _
    exact hgood _ ⟨expected.request, rfl⟩
  · intro expected log' _
    exact stopsAt_header machine hgood log' rfl path _ _

theorem stopsAt_device (device : VeraCryptDeviceEraseTarget) :
    StopsAt Event.IsStage1 good (destroyDevice machine device) log := by
  apply StopsAt.bind
  · apply stopsAt_recorded (by simp [Event.IsStage1, Event.IsStage2])
    intro identity _
    exact hgood _ ⟨identity, rfl⟩
  · intro identity log' _
    exact stopsAt_header machine hgood log' rfl device.devicePath _ _

theorem stopsAt_bitlocker (hread : good (.readDrives machine.bitlockerSettings)) :
    StopsAt Event.IsStage1 good (bitlockerErase machine) log := by
  apply StopsAt.bind
  · exact stopsAt_observe (by simp [Event.IsStage1, Event.IsStage2]) hread
  · intro _ log' _
    apply StopsAt.bind (StopsAt.collect (fun drive log => stopsAt_drive machine hgood log drive) _ _)
    intro _ _ _
    exact stopsAt_quiet rfl

theorem stopsAt_headers (paths : List String) (devices : List VeraCryptDeviceEraseTarget) :
    StopsAt Event.IsStage1 good (do
      each (destroyContainer machine) paths
      each (destroyDevice machine) devices) log := by
  apply StopsAt.bind
    (StopsAt.each (fun path log => stopsAt_container machine hgood log path) paths log)
  intro _ log' _
  exact StopsAt.each (fun device log => stopsAt_device machine hgood log device) devices log'

theorem stopsAt_veracrypt (hread : good (.readVeracrypt machine.veracryptSettings)) :
    StopsAt Event.IsStage1 good (veracryptDestroy machine) log := by
  apply StopsAt.bind
  · exact stopsAt_observe (by simp [Event.IsStage1, Event.IsStage2]) hread
  · intro _ log' _
    exact stopsAt_headers machine hgood log' _ _

theorem stopsAt_tpm : StopsAt Event.IsStage1 good (vaultTpmDelete machine) log := by
  apply StopsAt.bind
  · apply stopsAt_recorded (by simp [Event.IsStage1, Event.IsStage2])
    intro v _
    exact hgood _ ⟨v, rfl⟩
  · intro _ _ _
    exact stopsAt_quiet rfl

theorem stopsAt_stage1 (hdrives : good (.readDrives machine.bitlockerSettings))
    (hveracrypt : (∃ w log', bitlockerErase machine log = (.ok w, log')) →
      good (.readVeracrypt machine.veracryptSettings)) :
    StopsAt Event.IsStage1 good (runStage1 (productionStage1 machine)) log := by
  apply StopsAt.bind
  · exact stopsAt_inContext (stopsAt_bitlocker machine hgood log hdrives) _
  · intro w log₁ hw
    have hread := hveracrypt ⟨w, log₁, inContext_ok.mp hw⟩
    apply StopsAt.bind
    · exact stopsAt_inContext (stopsAt_veracrypt machine hgood log₁ hread) _
    · intro _ log₂ _
      exact stopsAt_inContext (stopsAt_tpm machine hgood log₂) _

theorem stopsAt_stage2 {deps : F6Deps SigningKey} (hboot : deps.setBootNext = setBootNext machine)
    (hreboot : deps.reboot = restartComputer machine) (usbRoot : String) :
    StopsAt (fun _ => True) good (stage2 machine deps usbRoot) log := by
  apply StopsAt.bind (stopsAt_quiet rfl)
  intro token log₁ _
  apply StopsAt.bind
  · exact stopsAt_recorded trivial fun u _ => hgood _ ⟨u, rfl⟩
  intro _ log₂ _
  rw [hboot, hreboot]
  apply StopsAt.bind
  · exact stopsAt_recorded trivial fun entry _ => hgood _ ⟨entry, rfl⟩
  intro _ log₃ _
  apply StopsAt.bind
  · exact stopsAt_recorded trivial fun u _ => hgood _ ⟨u, rfl⟩
  intro _ log₄ _
  exact stopsAt_quiet rfl

end

end Stopping

section Runs

variable {deps : F6Deps SigningKey} {enabled rebootToUsbEnabled : Option Bool}

theorem buildProductionDeps_ok (h : buildProductionDeps machine = .ok deps) :
    deps.stage1 = productionStage1 machine ∧ deps.setBootNext = setBootNext machine ∧
      deps.reboot = restartComputer machine := by
  obtain ⟨signingKey, hkey, hdeps⟩ := Outcome.bind_ok.mp h
  rw [← Outcome.pure_ok.mp hdeps]
  exact ⟨rfl, rfl, rfl⟩

theorem gate_ok {u : Unit} : gate machine enabled rebootToUsbEnabled = .ok u ↔
    GateOpen machine enabled rebootToUsbEnabled := by
  simp [gate, GateOpen, Outcome.bind_ok]

/-- What comes after the gate. -/
def afterGate (deps : F6Deps SigningKey) : Run F6Outcome := do
  runStage1 deps.stage1
  afterStage1 machine deps

theorem execute_of_open (h : GateOpen machine enabled rebootToUsbEnabled) :
    executeRebootToUsbWipe machine enabled rebootToUsbEnabled deps [] = afterGate machine deps [] :=
  have hgate : check (gate machine enabled rebootToUsbEnabled) [] = (.ok (), []) :=
    check_ok.mpr ⟨(gate_ok machine).mpr h, rfl⟩
  bind_of_ok hgate

theorem execute_of_closed (deps : F6Deps SigningKey)
    (h : ¬ GateOpen machine enabled rebootToUsbEnabled) :
    (executeRebootToUsbWipe machine enabled rebootToUsbEnabled deps []).2 = [] := by
  rw [executeRebootToUsbWipe, bind_apply]
  cases hgate : gate machine enabled rebootToUsbEnabled with
  | error e => rfl
  | ok u => exact absurd ((gate_ok machine).mp hgate) h

theorem stopsAt_afterStage1 {good : Event → Prop} (hgood : ∀ e, Confirmed machine e → good e)
    (hdeps : buildProductionDeps machine = .ok deps) (log : List Event) :
    StopsAt (fun _ => True) good (afterStage1 machine deps) log := by
  have hbuilt := buildProductionDeps_ok machine hdeps
  unfold afterStage1
  cases machine.findWipeUsb with
  | none => exact stopsAt_quiet rfl
  | some usbRoot => exact stopsAt_stage2 machine hgood log hbuilt.2.1 hbuilt.2.2 usbRoot

/-- A stage 1 that succeeds is done. -/
theorem stage1_done (h : ListsReadable machine) {u : Unit} {log : List Event}
    (hok : runStage1 (productionStage1 machine) [] = (.ok u, log)) : Stage1Done machine log := by
  obtain ⟨drives, hdrives, hveracrypt⟩ := h
  obtain ⟨w, log₁, hw, hok⟩ := bind_ok.mp hok
  obtain ⟨u₁, log₂, hu₁, hok⟩ := bind_ok.mp hok
  obtain ⟨erased, herased, hlog₁⟩ := (bitlockerErase_ok machine).mp ⟨w, inContext_ok.mp hw⟩
  obtain ⟨destroyed, hdestroyed, hlog₂⟩ := veracryptDestroy_ok machine (inContext_ok.mp hu₁)
  obtain ⟨v, hlog⟩ := vaultTpmDelete_ok machine (inContext_ok.mp hok)
  rw [hdrives] at herased hlog₁
  obtain ⟨veracrypt, hread⟩ := hveracrypt ⟨erased, herased⟩
  rw [hread] at hdestroyed hlog₂
  refine ⟨drives, veracrypt, erased, destroyed, v, herased, ?_, ?_⟩
  · rwa [hlog₁, List.length_cons, Nat.add_assoc] at hdestroyed
  · rw [hlog, hlog₂, hlog₁]
    simp

theorem stopsAt_of_listsReadable (h : ListsReadable machine) :
    StopsAt Event.IsStage1 (Confirmed machine) (runStage1 (productionStage1 machine)) [] := by
  obtain ⟨drives, hdrives, hveracrypt⟩ := h
  apply stopsAt_stage1 machine (fun _ => id) [] ⟨drives, hdrives⟩
  rintro ⟨w, log', hw⟩
  obtain ⟨erased, herased, -⟩ := (bitlockerErase_ok machine).mp ⟨w, hw⟩
  rw [hdrives] at herased
  exact hveracrypt ⟨erased, herased⟩

theorem keysFirst_of_listsReadable (hdeps : buildProductionDeps machine = .ok deps)
    (h : ListsReadable machine) : KeysFirst machine (afterGate machine deps []) := by
  have hstage1 := stopsAt_of_listsReadable machine h
  rw [← (buildProductionDeps_ok machine hdeps).1] at hstage1
  have hrun : StopsAt (fun _ => True) (Confirmed machine) (afterGate machine deps) [] :=
    (hstage1.mono fun _ _ => trivial).bind fun _ log _ =>
      stopsAt_afterStage1 machine (fun _ => id) hdeps log
  constructor
  · intro before e after hlog he
    exact hrun.split hlog he
  · intro before e after hlog he
    obtain ⟨added, hadded⟩ := hstage1
    cases hresult : runStage1 deps.stage1 [] with
    | mk r log =>
      rw [hresult] at hadded
      have hlog₁ : log = added := hadded.record
      have hkinds : e ∉ log := by
        rw [hlog₁]
        exact fun hmem => hadded.kinds e hmem he
      cases r with
      | error failure =>
        rw [afterGate, bind_apply, hresult] at hlog
        have hlast : log = before ++ e :: after := hlog
        exact absurd (by simp [hlast]) hkinds
      | ok u =>
        obtain ⟨more, hmore⟩ :=
          (stopsAt_afterStage1 machine (fun _ => id) hdeps log).extends
        rw [afterGate, bind_of_ok hresult, hmore] at hlog
        obtain ⟨rest, hrest⟩ := before_of_append hlog hkinds
        rw [(buildProductionDeps_ok machine hdeps).1] at hresult
        exact ⟨log, rest, hrest, stage1_done machine h hresult⟩

/-- A list of drives that cannot be read is taken for an empty one. -/
theorem bitlockerErase_unread {e : String} (h : machine.bitlockerSettings = .error e) :
    ∃ w, bitlockerErase machine [] = (.ok w, [.readDrives (.error e)]) := by
  apply (bitlockerErase_ok machine).mpr
  rw [h]
  exact ⟨[], rfl, rfl⟩

theorem veracryptDestroy_unread {e : String} (h : machine.veracryptSettings = .error e)
    (log : List Event) :
    veracryptDestroy machine log = (.ok (), log ++ [.readVeracrypt (.error e)]) := by
  unfold veracryptDestroy
  rw [h]
  rfl

theorem vaultTpmDelete_record (log : List Event) :
    ∃ reply, (vaultTpmDelete machine log).2 = log ++ [.deleteKey reply] :=
  ⟨_, bind_record (fun _ => quiet_pure ()) log⟩

/-- A run adds to what stage 1 recorded, and stage 1 to what its second step did. -/
theorem afterGate_extends (hdeps : buildProductionDeps machine = .ok deps) {w : Option String}
    {log : List Event} (h : bitlockerErase machine [] = (.ok w, log)) :
    ∃ more, (afterGate machine deps []).2 = ((do
      stage1Step "veracrypt_destroy" (veracryptDestroy machine)
      stage1Step "vault_tpm_delete" (vaultTpmDelete machine)) log).2 ++ more := by
  have hstage1 : runStage1 deps.stage1 [] = (do
      stage1Step "veracrypt_destroy" (veracryptDestroy machine)
      stage1Step "vault_tpm_delete" (vaultTpmDelete machine)) log := by
    rw [(buildProductionDeps_ok machine hdeps).1]
    exact bind_of_ok (inContext_ok.mpr h)
  rw [← hstage1]
  exact bind_extends (fun _ log => stopsAt_afterStage1 machine (fun _ => id) hdeps log) []

/-- After the drives the run goes on to the VeraCrypt targets. -/
theorem reaches_veracrypt (hdeps : buildProductionDeps machine = .ok deps) {w : Option String}
    {log : List Event} (h : bitlockerErase machine [] = (.ok w, log)) : ∃ more,
    (afterGate machine deps []).2 = log ++ .readVeracrypt machine.veracryptSettings :: more := by
  obtain ⟨last, hlast⟩ := afterGate_extends machine hdeps h
  have hkey : ∃ key, ((do
      stage1Step "veracrypt_destroy" (veracryptDestroy machine)
      stage1Step "vault_tpm_delete" (vaultTpmDelete machine)) log).2 =
        (veracryptDestroy machine log).2 ++ key := by
    rw [← inContext_record _ (veracryptDestroy machine) log]
    exact bind_extends
      (fun _ log => stopsAt_inContext (stopsAt_tpm machine (fun _ => id) log) _) log
  have hheaders : ∃ headers, (veracryptDestroy machine log).2 =
      (log ++ [.readVeracrypt machine.veracryptSettings]) ++ headers :=
    bind_extends (fun _ log => stopsAt_headers machine (fun _ => id) log _ _) log
  obtain ⟨key, hkey⟩ := hkey
  obtain ⟨headers, hheaders⟩ := hheaders
  rw [hlast, hkey, hheaders]
  exact ⟨headers ++ (key ++ last), by simp⟩

/-- After a list of VeraCrypt targets that cannot be read the run goes on to the TPM key. -/
theorem reaches_delete (hdeps : buildProductionDeps machine = .ok deps) {w : Option String}
    {log : List Event} (h : bitlockerErase machine [] = (.ok w, log)) {e : String}
    (hunread : machine.veracryptSettings = .error e) : ∃ reply more,
    (afterGate machine deps []).2 =
      log ++ .readVeracrypt (.error e) :: .deleteKey reply :: more := by
  obtain ⟨last, hlast⟩ := afterGate_extends machine hdeps h
  obtain ⟨reply, hreply⟩ := vaultTpmDelete_record machine (log ++ [.readVeracrypt (.error e)])
  have hveracrypt : stage1Step "veracrypt_destroy" (veracryptDestroy machine) log =
      (.ok (), log ++ [.readVeracrypt (.error e)]) :=
    inContext_ok.mpr (veracryptDestroy_unread machine hunread log)
  rw [hlast, bind_of_ok hveracrypt, stage1Step, inContext_record, hreply]
  exact ⟨reply, last, by simp⟩

theorem listsReadable_of_keysFirst (hdeps : buildProductionDeps machine = .ok deps)
    (h : KeysFirst machine (afterGate machine deps [])) : ListsReadable machine := by
  cases hdrives : machine.bitlockerSettings with
  | error e =>
    obtain ⟨w, hw⟩ := bitlockerErase_unread machine hdrives
    obtain ⟨more, hmore⟩ := reaches_veracrypt machine hdeps hw
    have hunconfirmed : ¬ Confirmed machine (.readDrives (.error e)) := by simp [Confirmed]
    exact absurd (h.stops [] _ _ hmore hunconfirmed).1 (by simp)
  | ok drives =>
    refine ⟨drives, hdrives, ?_⟩
    rintro ⟨erased, herased⟩
    cases hveracrypt : machine.veracryptSettings with
    | ok veracrypt => exact ⟨veracrypt, rfl⟩
    | error e =>
      obtain ⟨w, hw⟩ := (bitlockerErase_ok machine).mpr ⟨erased, by rwa [hdrives], rfl⟩
      obtain ⟨reply, more, hmore⟩ := reaches_delete machine hdeps hw hveracrypt
      have hunconfirmed : ¬ Confirmed machine (.readVeracrypt (.error e)) := by simp [Confirmed]
      exact absurd (h.stops _ _ _ hmore hunconfirmed).1 (by simp)

theorem keysFirst_iff (hdeps : buildProductionDeps machine = .ok deps) :
    KeysFirst machine (executeRebootToUsbWipe machine enabled rebootToUsbEnabled deps []) ↔
      (GateOpen machine enabled rebootToUsbEnabled → ListsReadable machine) := by
  by_cases hopen : GateOpen machine enabled rebootToUsbEnabled
  · rw [execute_of_open machine hopen]
    constructor
    · intro h _
      exact listsReadable_of_keysFirst machine hdeps h
    · intro h
      exact keysFirst_of_listsReadable machine hdeps (h hopen)
  · constructor
    · intro _ h
      exact absurd h hopen
    · intro _
      have hlog := execute_of_closed machine deps hopen
      constructor
      · intro before e after hsplit
        rw [hlog] at hsplit
        exact absurd hsplit (by simp)
      · intro before e after hsplit
        rw [hlog] at hsplit
        exact absurd hsplit (by simp)

end Runs

section Samples

private def markedScheme : Scheme Unit Unit where
  encode := Base64Url.encode
  decode := Base64Url.decode
  verifyingKey := id
  isWeak _ := false
  sign _ _ := List.replicate 64 0
  verifyStrict _ _ signature := decide (signature = List.replicate 64 0)
  decode_encode := Base64Url.decode_encode
  dot_notMem_encode := Base64Url.dot_notMem_encode
  length_sign _ _ := rfl
  isWeak_verifyingKey _ := rfl
  verifyStrict_sign _ _ := decide_eq_true rfl

private def oneDrive : AppSettings where
  deviceId := "device-1"
  selfDestruct := {
    cryptoEraseBitlockerDrives := some ["C:"]
    cryptoEraseVeracryptPaths := none
    cryptoEraseVeracryptDevices := none }

private def systemVolume : DestructiveRequestV2 :=
  .new (.bitlockerVolume "\\\\?\\Volume\x7b5d6c2a10-0000-0000-0000-100000000000\x7d\\")

private def erasedReply : Value :=
  .object [("status", .string "ok"), ("mutation_receipt", .object [("version", .string "v2"),
    ("target", systemVolume.target.toValue), ("verified", .bool true)])]

/-- One drive is configured, and everything works but perhaps the settings. -/
private def oneDriveMachine (settings : Except String AppSettings) : Machine Unit Unit where
  scheme := markedScheme
  deviceSigningKey := .ok ()
  deviceSettings := settings
  bitlockerSettings := settings
  veracryptSettings := settings
  advancedMode := false
  decoyMode := false
  volumeGuid _ root :=
    if root = "C:\\" then .ok "\\\\?\\Volume\x7b5d6c2a10-0000-0000-0000-100000000000\x7d\\"
    else .error "cannot resolve Windows volume GUID"
  canonicalize _ path := .ok path
  fileIdentity _ _ := none
  sidecar _ _ args :=
    if args = insertRequest (drivePayload "C:") systemVolume then .ok erasedReply else .ok .null
  readReceipt v :=
    if (v.get "target") = some systemVolume.target.toValue then
      .ok ⟨"v2", systemVolume.target, true⟩
    else .error "missing field"
  findWipeUsb := some "D:\\"
  nowUnix := 1751000000
  nonce := ⟨List.replicate 32 7, rfl⟩
  writeWipeToken _ _ _ := .ok ()
  usbBootEntry := .ok (some "usb")
  setBootNextUsb := .ok
  reboot := .ok ()

private def oneDriveDeps (settings : Except String AppSettings) (deviceId : String) :
    F6Deps Unit where
  stage1 := productionStage1 (oneDriveMachine settings)
  setBootNext := setBootNext (oneDriveMachine settings)
  reboot := restartComputer (oneDriveMachine settings)
  nowUnix := 1751000000
  signingKey := ()
  deviceId := deviceId

theorem keysFirst_oneDrive : KeysFirst (oneDriveMachine (.ok oneDrive))
    (executeRebootToUsbWipe (oneDriveMachine (.ok oneDrive)) (some true) (some true)
      (oneDriveDeps (.ok oneDrive) "device-1") []) :=
  (keysFirst_iff (oneDriveMachine (.ok oneDrive)) rfl).mpr fun _ =>
    ⟨oneDrive, rfl, fun _ => ⟨oneDrive, rfl⟩⟩

private abbrev unread : Except String AppSettings := .error "settings file is locked"

/-- With settings that cannot be read the machine reboots, and the drive was never dispatched. -/
theorem reboots_unread : buildProductionDeps (oneDriveMachine unread) =
      .ok (oneDriveDeps unread "unknown-device") ∧
    (executeRebootToUsbWipe (oneDriveMachine unread) (some true) (some true)
      (oneDriveDeps unread "unknown-device") []).1 = .ok .rebootTriggered ∧
    ¬ KeysFirst (oneDriveMachine unread) (executeRebootToUsbWipe (oneDriveMachine unread)
      (some true) (some true) (oneDriveDeps unread "unknown-device") []) := by
  refine ⟨rfl, by decide +kernel, ?_⟩
  intro h
  rw [execute_of_open (oneDriveMachine unread) ⟨rfl, rfl, rfl⟩] at h
  obtain ⟨drives, hdrives, -⟩ := listsReadable_of_keysFirst (oneDriveMachine unread) rfl h
  cases hdrives

end Samples

end RebootWipe
