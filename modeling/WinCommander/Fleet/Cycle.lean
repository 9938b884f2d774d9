import Mathlib
import WinCommander.Fleet.Dispatch

/-!
# Check-in cycles

The client state that survives from one check-in to the next, and the cycle that enrols if
needed, exchanges one request with the server and processes the response.  What the network, the
clock and the request authentication do in a cycle is its input.
-/

namespace FleetAgent

open Json FleetProto Outcome

variable {Key : Type}

/-- What the server answers to an enrolment. -/
structure EnrollResponse where
  deviceId : String
  commandPubkeyB64 : Option String
  serverSigningKeyB64 : Option String
  checkinSecretB64 : Option String

structure PendingSearchJob where
  jobId : String
  query : String
  maxHitsPerDevice : UInt64

/-- What the server answers to a check-in. -/
structure CheckinResponse where
  commands : List SignedCommand
  allClear : Bool
  policy : Option Document
  pendingSearchJobs : List PendingSearchJob

/-- The client state. -/
structure FleetClientState where
  deviceId : Option String
  pinnedPubkeyB64 : Option String
  pinnedServerKeyB64 : Option String
  checkinSecret : Option (List UInt8)
  seenNonces : NonceMap
  deadManMisses : UInt32
  lastCheckinAt : Option String

/-- The part of the configuration that decides. -/
structure FleetConfig (Key : Type) where
  cmdPubkey : Key
  maxCmdSkewSecs : Int64
  checkinSecret : List UInt8

/-- What the cycle is built on: the signature scheme and the reader of policy envelopes. -/
structure Platform (Key : Type) where
  crypto : Crypto Key
  readPolicy : Document → Except String PolicyEnvelope

/-- What the environment decides in one cycle; `authenticate` makes the request code of this
cycle's body under a secret. -/
structure CycleInput where
  now : Int64
  decoy : Bool
  enrollReply : Except String EnrollResponse
  authenticate : List UInt8 → Except String String
  checkinReply : Except String CheckinResponse
  stamp : ℕ → String
  nowRfc3339 : String

variable (platform : Platform Key) (config : FleetConfig Key)

/-- A key that the reply brings must decode. -/
def refuseUndecodable (received : Option String) : Except String Unit :=
  match received with
  | some key => (decodeVerifyingKey platform.crypto key).map fun _ => ()
  | none => .ok ()

/-- A key that was pinned before must not change. -/
def refuseChangedPin (existing received : Option String) (message : String) : Except String Unit :=
  match existing, received with
  | some e, some r => refuseIf (e ≠ r) message
  | _, _ => .ok ()

/-- Enrol, if the device has no identity yet: both keys of the reply must decode, and neither may
differ from a pin. -/
def enroll (s : FleetClientState) (reply : Except String EnrollResponse) :
    Except String (String × FleetClientState) :=
  match s.deviceId with
  | some id => .ok (id, s)
  | none => do
    let resp ← reply
    refuseUndecodable platform resp.commandPubkeyB64
    refuseUndecodable platform resp.serverSigningKeyB64
    refuseChangedPin s.pinnedPubkeyB64 resp.commandPubkeyB64
      "fleet server returned a different operator command_pubkey on re-enroll — REFUSING"
    refuseChangedPin s.pinnedServerKeyB64 resp.serverSigningKeyB64
      "fleet server returned a different server signing key on re-enroll — REFUSING"
    let secret := (resp.checkinSecretB64.map platform.crypto.b64Decode).bind Except.toOption
    return (resp.deviceId, { s with
      deviceId := some resp.deviceId
      pinnedPubkeyB64 := s.pinnedPubkeyB64.or resp.commandPubkeyB64
      pinnedServerKeyB64 := s.pinnedServerKeyB64.or resp.serverSigningKeyB64
      checkinSecret := secret.or s.checkinSecret })

/-- The result of a cycle: whether it succeeded, the state and the platform calls. -/
structure CycleResult where
  ok : Bool
  state : FleetClientState
  calls : List Call

/-- Count a check-in without an all-clear. -/
def deadManMiss (ok : Bool) (s : FleetClientState) (calls : List Call) : CycleResult where
  ok := ok
  state := { s with deadManMisses := s.deadManMisses + 1 }
  calls := calls ++ [.deadManMiss (s.deadManMisses + 1)]

/-- The keys and the clock with which the commands of a cycle are processed. -/
def checkinContext (s : FleetClientState) (i : CycleInput) : CheckinContext Key where
  operatorKey := some config.cmdPubkey
  serverKey := (s.pinnedServerKeyB64.map (decodeVerifyingKey platform.crypto)).bind Except.toOption
  now := i.now
  maxSkewSecs := config.maxCmdSkewSecs
  stamp := i.stamp

/-- A policy envelope reaches the platform when the pinned server key signed it. -/
def policyCalls (s : FleetClientState) (policy : Option Document) : List Call :=
  match policy with
  | none => []
  | some value =>
    match platform.readPolicy value with
    | .error _ => []
    | .ok p =>
      if s.pinnedServerKeyB64 = some p.signerKey ∧
          verifySignatureB64 platform.crypto p.signerKey p.preimage p.signature = true
      then [.onPolicyEnvelope value] else []

/-- Everything a real cycle does with the response. -/
def applyResponse (s : FleetClientState) (i : CycleInput) (resp : CheckinResponse) : CycleResult :=
  let progress := processCheckin platform.crypto (checkinContext platform config s i) s.seenNonces
    resp.commands
  let s' := { s with seenNonces := progress.seenNonces }
  let searchCalls := if resp.pendingSearchJobs.isEmpty then [] else [.searchRunner]
  let calls := progress.calls ++ policyCalls platform s resp.policy ++ searchCalls
  if resp.allClear then
    { ok := true
      state := { s' with deadManMisses := 0, lastCheckinAt := some i.nowRfc3339 }
      calls := calls ++ [.allClear] }
  else deadManMiss true s' calls

/-- One check-in cycle.  A decoy neither samples the device nor applies the response. -/
def runCheckinCycleInner (s : FleetClientState) (i : CycleInput) : CycleResult :=
  match enroll platform s i.enrollReply with
  | .error _ => deadManMiss false s []
  | .ok (_, s) =>
    let sampled := if i.decoy then [] else [.sampleResources, .sampleHealth]
    match i.authenticate (s.checkinSecret.getD config.checkinSecret) with
    | .error _ => { ok := false, state := s, calls := sampled }
    | .ok _ =>
      match i.checkinReply with
      | .error _ => deadManMiss false s sampled
      | .ok resp =>
        if i.decoy then { ok := true, state := s, calls := sampled }
        else
          let r := applyResponse platform config s i resp
          { r with calls := sampled ++ r.calls }

section Runs

/-- The machine of check-in cycles. -/
def cycleStep (s : FleetClientState) (i : CycleInput) : FleetClientState :=
  (runCheckinCycleInner platform config s i).state

/-- The response that a cycle applies, with the state it finds; most failures apply none. -/
def appliedResponse (s : FleetClientState) (i : CycleInput) :
    Option (FleetClientState × CheckinResponse) :=
  match enroll platform s i.enrollReply with
  | .error _ => none
  | .ok (_, s) =>
    match i.authenticate (s.checkinSecret.getD config.checkinSecret), i.checkinReply with
    | .ok _, .ok resp => if i.decoy then none else some (s, resp)
    | _, _ => none

/-- A command that was verified, and the clock at that time. -/
structure Acceptance where
  now : Int64
  command : SignedCommand

/-- A command of a response, if its verification succeeds at its place. -/
def acceptedCommand (crypto : Crypto Key) (ctx : CheckinContext Key) (p : Progress)
    (cmd : SignedCommand) : List SignedCommand :=
  if (verifySelected crypto ctx p.seenNonces cmd).toBool then [cmd] else []

/-- The commands of a response that are verified, in order. -/
def acceptedCommands (crypto : Crypto Key) (ctx : CheckinContext Key) (seenNonces : NonceMap)
    (commands : List SignedCommand) : List SignedCommand :=
  Machine.outputs (handleCommand crypto ctx) (acceptedCommand crypto ctx)
    (startCheckin ctx seenNonces) commands

/-- The commands that a cycle verifies and dispatches. -/
def acceptances (s : FleetClientState) (i : CycleInput) : List Acceptance :=
  match appliedResponse platform config s i with
  | none => []
  | some (s, resp) =>
    (acceptedCommands platform.crypto (checkinContext platform config s i) s.seenNonces
      resp.commands).map fun cmd => ⟨i.now, cmd⟩

/-- The commands that a run of cycles verifies and dispatches, in order. -/
def acceptanceLog (s : FleetClientState) (inputs : List CycleInput) : List Acceptance :=
  Machine.outputs (cycleStep platform config) (acceptances platform config) s inputs

end Runs

section Enrolment

variable {platform} {s s' : FleetClientState} {reply : Except String EnrollResponse} {id : String}

theorem enroll_enrolled (h : s.deviceId = some id) : enroll platform s reply = .ok (id, s) := by
  rw [enroll, h]

/-- Enrolment leaves an identity and does not touch the nonces. -/
theorem enroll_ok (h : enroll platform s reply = .ok (id, s')) :
    s'.deviceId = some id ∧ s'.seenNonces = s.seenNonces := by
  cases hid : s.deviceId with
  | some known =>
    rw [enroll_enrolled hid] at h
    cases h
    exact ⟨hid, rfl⟩
  | none =>
    rw [enroll, hid] at h
    simp only [bind_ok, pure_ok] at h
    obtain ⟨resp, _, _, _, _, _, _, _, _, _, heq⟩ := h
    cases heq
    exact ⟨rfl, rfl⟩

end Enrolment

section Effects

variable {platform config} {s : FleetClientState} {i : CycleInput}

@[simp] theorem seenNonces_applyResponse (resp : CheckinResponse) :
    (applyResponse platform config s i resp).state.seenNonces =
      (processCheckin platform.crypto (checkinContext platform config s i) s.seenNonces
        resp.commands).seenNonces := by
  unfold applyResponse deadManMiss
  simp only
  split <;> rfl

@[simp] theorem deviceId_applyResponse (resp : CheckinResponse) :
    (applyResponse platform config s i resp).state.deviceId = s.deviceId := by
  unfold applyResponse deadManMiss
  simp only
  split <;> rfl

/-- What a cycle can do to the identity and the nonces: nothing, or what the response that it
applies does. -/
theorem cycleStep_cases (platform : Platform Key) (config : FleetConfig Key)
    (s : FleetClientState) (i : CycleInput) :
    (appliedResponse platform config s i = none ∧
      (cycleStep platform config s i).seenNonces = s.seenNonces ∧
      ∀ id, s.deviceId = some id → (cycleStep platform config s i).deviceId = some id) ∨
    ∃ t resp, appliedResponse platform config s i = some (t, resp) ∧
      t.seenNonces = s.seenNonces ∧ (∀ id, s.deviceId = some id → t = s) ∧
      cycleStep platform config s i = (applyResponse platform config t i resp).state := by
  unfold cycleStep runCheckinCycleInner appliedResponse
  cases henroll : enroll platform s i.enrollReply with
  | error e => exact Or.inl ⟨rfl, rfl, fun _ h => h⟩
  | ok result =>
    obtain ⟨id, t⟩ := result
    have hseen := (enroll_ok henroll).2
    have hsame : ∀ id, s.deviceId = some id → t = s := by
      intro id' h
      rw [enroll_enrolled h] at henroll
      cases henroll
      rfl
    have hdevice : ∀ id, s.deviceId = some id → t.deviceId = some id := by
      intro id' h
      rw [hsame id' h, h]
    simp only
    cases i.authenticate (t.checkinSecret.getD config.checkinSecret) with
    | error e => exact Or.inl ⟨rfl, hseen, hdevice⟩
    | ok code =>
      cases i.checkinReply with
      | error e => exact Or.inl ⟨rfl, hseen, hdevice⟩
      | ok resp =>
        cases i.decoy with
        | true => exact Or.inl ⟨rfl, hseen, hdevice⟩
        | false => exact Or.inr ⟨t, resp, rfl, hseen, hsame, rfl⟩

/-- An enrolled device keeps its identity. -/
theorem deviceId_cycleStep {id : String} (h : s.deviceId = some id) :
    (cycleStep platform config s i).deviceId = some id := by
  rcases cycleStep_cases platform config s i with
    ⟨_, _, hdevice⟩ | ⟨t, resp, _, _, hsame, hstep⟩
  · exact hdevice id h
  · rw [hstep, deviceId_applyResponse, hsame id h, h]

end Effects

section Processing

variable {crypto : Crypto Key} {ctx : CheckinContext Key} {p : Progress} {cmd : SignedCommand}
  {nonce : String} {t : Int64} {seenNonces : NonceMap} {commands : List SignedCommand}

/-- A remembered nonce survives the processing of a command. -/
private theorem seenNonces_handleCommand (h : p.seenNonces nonce = some t) :
    (handleCommand crypto ctx p cmd).seenNonces nonce = some t := by
  unfold handleCommand
  cases hv : verifySelected crypto ctx p.seenNonces cmd with
  | error e => exact h
  | ok seen' =>
    unfold verifySelected at hv
    simp only at hv
    split at hv
    · simp at hv
    · exact seen_kept_by_verify hv h

/-- An accepted command was verified under some key. -/
private theorem accepted_verified {c : SignedCommand}
    (h : c ∈ acceptedCommand crypto ctx p cmd) :
    c = cmd ∧ ∃ key, verifyCommand crypto cmd key ctx.now ctx.maxSkewSecs p.seenNonces =
      .ok (handleCommand crypto ctx p cmd).seenNonces := by
  unfold acceptedCommand at h
  split at h
  · next haccepted =>
    refine ⟨List.mem_singleton.mp h, ?_⟩
    unfold handleCommand
    cases hv : verifySelected crypto ctx p.seenNonces cmd with
    | error e => simp [hv, Except.toBool] at haccepted
    | ok seen' =>
      unfold verifySelected at hv
      simp only at hv
      split at hv
      · simp at hv
      · next key _ => exact ⟨key, hv⟩
  · simp at h

private theorem seenNonces_run (h : p.seenNonces nonce = some t) (cmds : List SignedCommand) :
    (Machine.run (handleCommand crypto ctx) p cmds).seenNonces nonce = some t :=
  Machine.run_invariant (I := fun q : Progress => q.seenNonces nonce = some t)
    (P := fun _ _ => True) (fun _ _ hq _ => seenNonces_handleCommand hq) h
    (Machine.Throughout.of_forall (fun _ _ => trivial) _ _)

/-- A nonce that survives the eviction survives the response. -/
theorem seenNonces_processCheckin
    (h : evictStaleNonces seenNonces ctx.now ctx.maxSkewSecs nonce = some t) :
    (processCheckin crypto ctx seenNonces commands).seenNonces nonce = some t :=
  seenNonces_run h commands

/-- At the end of a response the nonces of its accepted commands are remembered. -/
theorem seenNonces_of_accepted {c : SignedCommand}
    (h : c ∈ acceptedCommands crypto ctx seenNonces commands) (hnonce : c.nonce ≠ "") :
    (processCheckin crypto ctx seenNonces commands).seenNonces c.nonce = some ctx.now := by
  obtain ⟨before, cmd, after, rfl, hc⟩ := Machine.mem_outputs.mp h
  obtain ⟨rfl, key, hverify⟩ := accepted_verified hc
  rw [processCheckin, Machine.run_append, Machine.run_cons]
  exact seenNonces_run (seen_after_verify hverify hnonce).2 after

/-- A command is not accepted while its nonce is remembered. -/
theorem forgotten_of_accepted {c : SignedCommand}
    (h : c ∈ acceptedCommands crypto ctx seenNonces commands) (hnonce : c.nonce ≠ "") :
    evictStaleNonces seenNonces ctx.now ctx.maxSkewSecs c.nonce = none ∧
      Fresh ctx.now ctx.maxSkewSecs c := by
  obtain ⟨before, cmd, after, rfl, hc⟩ := Machine.mem_outputs.mp h
  obtain ⟨rfl, key, hverify⟩ := accepted_verified hc
  refine ⟨?_, (verifyCommand_ok_iff.mp hverify).2.1⟩
  by_contra hstart
  obtain ⟨t, ht⟩ := Option.ne_none_iff_exists'.mp hstart
  have hlater : (processCheckin crypto ctx seenNonces before).seenNonces c.nonce = some t :=
    seenNonces_processCheckin ht
  rw [processCheckin, (seen_after_verify hverify hnonce).1] at hlater
  exact absurd hlater (by simp)

/-- One response has no two accepted commands of one nonce. -/
theorem acceptedCommands_pairwise :
    (acceptedCommands crypto ctx seenNonces commands).Pairwise
      fun c d => c.nonce ≠ "" → c.nonce ≠ d.nonce := by
  refine Machine.outputs_pairwise (V := fun _ => True) (Q := fun _ _ => True)
    (K := fun _ (c : SignedCommand) (q : Progress) =>
      c.nonce ≠ "" → q.seenNonces c.nonce = some ctx.now) ?_ ?_ ?_ (fun _ _ => trivial)
    (List.pairwise_of_forall fun _ _ => trivial) _
  · intro q cmd _
    unfold acceptedCommand
    split <;> simp
  · intro q cmd c _ hc hnonce
    obtain ⟨rfl, key, hverify⟩ := accepted_verified hc
    exact (seen_after_verify hverify hnonce).2
  · intro q _ cmd c _ _ hk
    refine ⟨fun hnonce => seenNonces_handleCommand (hk hnonce), ?_⟩
    intro d hd hnonce heq
    obtain ⟨rfl, key, hverify⟩ := accepted_verified hd
    have hnew := (seen_after_verify hverify (heq ▸ hnonce)).1
    rw [← heq, hk hnonce] at hnew
    exact absurd hnew (by simp)

end Processing

end FleetAgent
