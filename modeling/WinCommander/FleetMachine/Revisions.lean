import Mathlib
import WinCommander.Library.MachineInt
import WinCommander.Library.Register
import WinCommander.FleetMachine.Run

/-!
# Revisions of the stored policy

An install compares three revisions and, where they repeat, the settings and the shield.  The
clipboard switch is outside that comparison, so a signer can change it under the revisions of the
stored policy.
-/

namespace FleetMachinePolicy

open FleetProto Outcome

/-- The three revisions of a policy. -/
structure Revisions where
  config : Option Int64
  resolution : Option Int64
  shield : Int64

def revisionsOf (policy : PolicyEnvelope) : Revisions where
  config := policy.configRevision
  resolution := policy.resolutionRevision
  shield := policy.shieldRevision

section Order

/-- A present revision stays present and does not go back. -/
def RevisionKept (a b : Option Int64) : Prop := ∀ v, a = some v → ∃ w, b = some w ∧ v ≤ w

private theorem revisionKept_refl (a : Option Int64) : RevisionKept a a :=
  fun v hv => ⟨v, hv, le_refl v⟩

private theorem RevisionKept.trans {a b c : Option Int64} (hab : RevisionKept a b)
    (hbc : RevisionKept b c) : RevisionKept a c := by
  intro v hv
  obtain ⟨w, hw, hvw⟩ := hab v hv
  obtain ⟨u, hu, hwu⟩ := hbc w hw
  exact ⟨u, hu, le_trans hvw hwu⟩

instance : Preorder Revisions where
  le a b := RevisionKept a.config b.config ∧ RevisionKept a.resolution b.resolution ∧
    a.shield ≤ b.shield
  le_refl a := ⟨revisionKept_refl _, revisionKept_refl _, le_refl _⟩
  le_trans _ _ _ hab hbc :=
    ⟨hab.1.trans hbc.1, hab.2.1.trans hbc.2.1, le_trans hab.2.2 hbc.2.2⟩

end Order

/-- A delivered policy, or a restart. -/
inductive PolicyCall where
  | install (policy : PolicyEnvelope) (writeFails : Bool)
  | restart (faults : OpenFaults)

def PolicyCall.toCall : PolicyCall → Call
  | .install policy writeFails => .perform (.install policy) writeFails
  | .restart faults => .restart faults

variable {Key : Type} (host : Host Key)

def policyStep (m : Machine) (call : PolicyCall) : Machine := step host m call.toCall

/-- The policy in the file. -/
def Machine.policy (m : Machine) : Option PolicyEnvelope := (m.durable host).bind Record.policy

/-- The revisions of the policy in the file and of the one in memory. -/
def Machine.revisions (m : Machine) : Register Revisions where
  durable := (m.policy host).map revisionsOf
  active := (m.active.bind Record.policy).map revisionsOf

/-- No revision goes back in the run, and no step replaces the stored policy by a different one
that carries the same three revisions. -/
structure InstallMonotone (m : Machine) (calls : List PolicyCall) : Prop where
  revisions : Register.NeverRollsBack (policyStep host) (Machine.revisions host) m calls
  envelope : Machine.Throughout (policyStep host) (fun m call => ∀ old new,
    m.policy host = some old → (policyStep host m call).policy host = some new →
      revisionsOf new = revisionsOf old → old.Agree new) m calls

/-- A policy that verifies, can be written and repeats the revisions, settings and shield of the
stored one also repeats its clipboard switch and its signature. -/
def RepeatsSwitch (m : Machine) : PolicyCall → Prop
  | .restart _ => True
  | .install policy writeFails =>
    ∀ state r old, m.memory = some state → state.record = some r → r.policy = some old →
      verifyPolicy host.toPlatform r.trust policy = .ok () →
      (persist host { state with record := some { r with policy := some policy } }
        writeFails).toBool = true →
      revisionsOf policy = revisionsOf old →
      Option.Rel ConfigEpoch.Agree old.config policy.config → old.shield = policy.shield →
        policy.clipboardGuardEnabled = old.clipboardGuardEnabled ∧
          policy.signature = old.signature

/-- The policy in memory verifies under the trust in memory. -/
def Machine.Verified (m : Machine) : Prop :=
  ∀ r policy, m.active = some r → r.policy = some policy →
    verifyPolicy host.toPlatform r.trust policy = .ok ()

variable {host}

/-- What an accepted comparison says about two policies. -/
private theorem compareRevisions_ok {old policy : PolicyEnvelope}
    (h : compareRevisions old policy = .ok ()) :
    revisionsOf old ≤ revisionsOf policy ∧
      (revisionsOf policy = revisionsOf old →
        Option.Rel ConfigEpoch.Agree old.config policy.config ∧ old.shield = policy.shield) := by
  simp only [compareRevisions, bind_ok, refuseIf_ok, okOr_ok, exists_const, Int64.not_lt] at h
  obtain ⟨hshield, oldConfig, holdConfig, config, hconfig, hle, oldResolution, holdResolution,
    resolution, hresolution, hle', hconflict⟩ := h
  refine ⟨⟨?_, ?_, hshield⟩, fun hsame => ?_⟩
  · intro v hv
    have hv' : oldConfig = v := Option.some.inj (holdConfig.symm.trans hv)
    exact ⟨config, hconfig, hv' ▸ hle⟩
  · intro v hv
    have hv' : oldResolution = v := Option.some.inj (holdResolution.symm.trans hv)
    exact ⟨resolution, hresolution, hv' ▸ hle'⟩
  · simp only [revisionsOf, Revisions.mk.injEq, hconfig, holdConfig, hresolution, holdResolution,
      Option.some.injEq] at hsame
    obtain ⟨hconfigs, hresolutions, hshields⟩ := hsame
    simp only [hconfigs, hresolutions, hshields, true_and, not_or, not_not] at hconflict
    exact hconflict

/-- The comparison accepts a repetition of the stored revisions, settings and shield. -/
private theorem compareRevisions_repeats {old policy : PolicyEnvelope}
    (hconfigRevision : old.configRevision ≠ none) (hresolution : old.resolutionRevision ≠ none)
    (hsame : revisionsOf policy = revisionsOf old)
    (hconfig : Option.Rel ConfigEpoch.Agree old.config policy.config)
    (hshield : old.shield = policy.shield) : compareRevisions old policy = .ok () := by
  obtain ⟨c, hc⟩ := Option.ne_none_iff_exists'.mp hconfigRevision
  obtain ⟨n, hn⟩ := Option.ne_none_iff_exists'.mp hresolution
  simp only [revisionsOf, Revisions.mk.injEq, hc, hn] at hsame
  simp only [compareRevisions, bind_ok, refuseIf_ok, okOr_ok, exists_const, Int64.not_lt]
  refine ⟨?_, c, hc, c, hsame.1, le_refl c, n, hn, n, hsame.2.1, le_refl n, ?_⟩
  · rw [hsame.2.2]
  · simp [hconfig, hshield]

/-- An install changes nothing, or it passed the comparison and its policy is now stored. -/
private theorem policyStep_install (host : Host Key) (m : Machine) (policy : PolicyEnvelope)
    (writeFails : Bool) :
    policyStep host m (.install policy writeFails) = m ∨
    ∃ state r bytes, m.memory = some state ∧ state.record = some r ∧
      verifyPolicy host.toPlatform r.trust policy = .ok () ∧
      (∀ old, r.policy = some old → compareRevisions old policy = .ok ()) ∧
      persist host { state with record := some { r with policy := some policy } } writeFails =
        .ok bytes ∧
      policyStep host m (.install policy writeFails) =
        ⟨some bytes, some { state with record := some { r with policy := some policy } }⟩ := by
  unfold policyStep PolicyCall.toCall step
  rcases respond_cases host m (.perform (.install policy) writeFails) with
    heq | ⟨op, writeFails', state, next, answer, bytes, hcall, hmemory, hop, hpersist, heq⟩ |
      ⟨faults, hcall⟩
  · exact Or.inl heq
  · obtain ⟨rfl, rfl⟩ := Call.perform.inj hcall
    obtain ⟨a, hinstall, _⟩ := map_ok hop
    obtain ⟨r, hr, hverified, hcompared, hnext⟩ := install_ok hinstall
    obtain rfl := hnext next rfl
    exact Or.inr ⟨state, r, bytes, hmemory, hr, hverified, hcompared, hpersist, by rw [heq]⟩
  · exact absurd hcall (by simp)

/-- A verified policy that is not the stored one is written when the comparison lets it pass. -/
private theorem policyStep_stores {m : Machine} {policy old : PolicyEnvelope} {writeFails : Bool}
    {state : State} {r : Record} {bytes : List UInt8} (hmemory : m.memory = some state)
    (hr : state.record = some r) (hold : r.policy = some old)
    (hverified : verifyPolicy host.toPlatform r.trust policy = .ok ())
    (hcompared : compareRevisions old policy = .ok ()) (hdiffers : ¬ old.Agree policy)
    (hpersist : persist host { state with record := some { r with policy := some policy } }
      writeFails = .ok bytes) :
    policyStep host m (.install policy writeFails) =
      ⟨some bytes, some { state with record := some { r with policy := some policy } }⟩ := by
  have hinstall : install host policy state =
      .ok (some { state with record := some { r with policy := some policy } }, ()) := by
    simp only [install, currentRecord, hr, okOr_some]
    apply bind_ok.mpr
    refine ⟨r, rfl, bind_ok.mpr ⟨(), hverified, ?_⟩⟩
    simp only [hold]
    apply bind_ok.mpr
    refine ⟨(), hcompared, ?_⟩
    rw [if_neg hdiffers]
    rfl
  have hdecided : decideOn host state (.install policy) =
      .ok (some { state with record := some { r with policy := some policy } }, .done) := by
    rw [decideOn, hinstall]
    rfl
  exact congrArg Prod.fst (Machine.perform_written hmemory hdecided hpersist)

private theorem revisions_stored {state : State} {r : Record} {policy : PolicyEnvelope}
    {writeFails : Bool} {bytes : List UInt8}
    (hpersist : persist host { state with record := some { r with policy := some policy } }
      writeFails = .ok bytes) :
    Machine.revisions host
        ⟨some bytes, some { state with record := some { r with policy := some policy } }⟩ =
      ⟨some (revisionsOf policy), some (revisionsOf policy)⟩ := by
  apply Register.ext
  · show Option.map _ (Option.bind (Machine.durable host _) _) = _
    rw [durable_of_persist hpersist]
    rfl
  · rfl

/-- Every call moves the revisions as a register may move. -/
private theorem move_policyStep (m : Machine) (call : PolicyCall) :
    Register.Move (m.revisions host) ((policyStep host m call).revisions host) := by
  cases call with
  | install policy writeFails =>
    rcases policyStep_install host m policy writeFails with
      heq | ⟨state, r, bytes, hmemory, hr, _, hcompared, hpersist, heq⟩
    · rw [heq]
      exact Register.Move.keep
    · rw [heq, revisions_stored hpersist]
      apply Register.Move.store
      intro current hcurrent
      have hactive := active_of_memory hmemory hr
      obtain ⟨old, hold, rfl⟩ := Option.map_eq_some_iff.mp hcurrent
      rw [hactive] at hold
      exact (compareRevisions_ok (hcompared old hold)).1
  | restart faults =>
    obtain ⟨hfile, hactive⟩ := m.restart_cases host faults
    have hdurable : (m.restart host faults).1.policy host = m.policy host := by
      unfold Machine.policy Machine.durable
      rw [hfile]
    have heq : (policyStep host m (.restart faults)).revisions host =
        ⟨(m.revisions host).durable, ((m.restart host faults).1.active.bind Record.policy).map
          revisionsOf⟩ := by
      apply Register.ext
      · exact congrArg (Option.map revisionsOf) hdurable
      · rfl
    rw [heq]
    apply Register.Move.reload
    rcases hactive with hnone | ⟨r, hr, hdisk, _⟩
    · exact Or.inl (by rw [hnone]; rfl)
    · refine Or.inr ?_
      rw [hr]
      show _ = Option.map revisionsOf (Option.bind (m.durable host) Record.policy)
      rw [hdisk]

private theorem register_synced {m : Machine} (h : m.Synced host) :
    (m.revisions host).Synced := by
  intro v hv
  obtain ⟨policy, hpolicy, rfl⟩ := Option.map_eq_some_iff.mp hv
  obtain ⟨r, hr, hpolicy⟩ := Option.bind_eq_some_iff.mp hpolicy
  show Option.map revisionsOf (Option.bind (m.durable host) Record.policy) = _
  rw [h r hr, Option.bind_some, hpolicy]
  rfl

private theorem durableKept_policyStep {m : Machine} (h : m.Synced host) (call : PolicyCall) :
    Register.DurableKept (m.revisions host) ((policyStep host m call).revisions host) := by
  by_cases hactive : (m.revisions host).active = none
  · cases call with
    | restart faults =>
      obtain ⟨hfile, _⟩ := m.restart_cases host faults
      intro v hv
      refine ⟨v, ?_, le_refl v⟩
      rw [← hv]
      show Option.map _ (Option.bind (Option.bind (Option.bind (m.restart host faults).1.file _) _)
        _) = _
      rw [hfile]
      rfl
    | install policy writeFails =>
      rcases policyStep_install host m policy writeFails with heq | ⟨state, r, bytes, hmemory, hr, _, _, _, _⟩
      · rw [heq]
        exact Register.durableKept_refl _
      · have hrecord := active_of_memory hmemory hr
        have hnone : r.policy = none := by
          simpa [Machine.revisions, hrecord] using hactive
        intro v hv
        exact absurd hv (by simp [Machine.revisions, Machine.policy, h r hrecord, hnone])
  · exact (move_policyStep m call).durableKept (register_synced h) hactive

private theorem synced_policyStep {m : Machine} (h : m.Synced host) (call : PolicyCall) :
    (policyStep host m call).Synced host := synced_step h call.toCall

/-- No revision of the stored policy ever goes back. -/
theorem revisions_neverRollBack (host : Host Key) (file : Option (List UInt8))
    (calls : List PolicyCall) :
    Register.NeverRollsBack (policyStep host) (Machine.revisions host) (Machine.off file) calls := by
  apply (Register.neverRollsBack_iff_throughout move_policyStep
    (register_synced (synced_off file)) calls).mpr
  apply Machine.Throughout.strengthen (I := fun m : Machine => m.Synced host)
    (P := fun _ _ => True)
  · exact fun _ call h _ => synced_policyStep h call
  · exact fun _ call h _ => durableKept_policyStep h call
  · exact synced_off file
  · exact Machine.Throughout.of_forall (fun _ _ => trivial) _ calls

private theorem verified_off (file : Option (List UInt8)) : (Machine.off file).Verified host := by
  intro r policy hr
  exact absurd hr (by simp [Machine.active, Machine.off])

private theorem checkRecord_policy {r : Record} {policy : PolicyEnvelope}
    (h : checkRecord host r = .ok ()) (hpolicy : r.policy = some policy) :
    verifyPolicy host.toPlatform r.trust policy = .ok () := by
  simp only [checkRecord, bind_ok, hpolicy] at h
  obtain ⟨_, _, hverified⟩ := h
  exact hverified

private theorem verified_policyStep {m : Machine} (h : m.Verified host) (call : PolicyCall) :
    (policyStep host m call).Verified host := by
  cases call with
  | install policy writeFails =>
    rcases policyStep_install host m policy writeFails with
      heq | ⟨state, r, bytes, _, _, hverified, _, _, heq⟩
    · rw [heq]
      exact h
    · rw [heq]
      intro r' policy' hr' hpolicy'
      obtain rfl : { r with policy := some policy } = r' := Option.some.inj hr'
      obtain rfl : policy = policy' := Option.some.inj hpolicy'
      exact hverified
  | restart faults =>
    intro r policy hr hpolicy
    obtain ⟨_, hnone | ⟨r', hr', _, hcheck⟩⟩ := m.restart_cases host faults
    · exact absurd (hnone.symm.trans hr) (by simp)
    · obtain rfl : r' = r := Option.some.inj (hr'.symm.trans hr)
      exact checkRecord_policy hcheck hpolicy

/-- A step keeps the stored envelope under its revisions exactly when the delivered policy repeats
its switch and signature. -/
private theorem envelopeKept_iff {m : Machine} (hsynced : m.Synced host)
    (hverified : m.Verified host) (call : PolicyCall) :
    (∀ old new, m.policy host = some old → (policyStep host m call).policy host = some new →
      revisionsOf new = revisionsOf old → old.Agree new) ↔ RepeatsSwitch host m call := by
  cases call with
  | restart faults =>
    refine iff_of_true (fun old new hold hnew _ => ?_) trivial
    have hfile := (m.restart_cases host faults).1
    have hsame : (policyStep host m (.restart faults)).policy host = m.policy host := by
      show Option.bind (Option.bind (Option.bind (m.restart host faults).1.file _) _) _ = _
      rw [hfile]
      rfl
    obtain rfl : old = new := Option.some.inj (hold.symm.trans (hsame.symm.trans hnew))
    exact PolicyEnvelope.Agree.refl old
  | install policy writeFails =>
    constructor
    · intro h state r old hmemory hr hold hpolicy hpersist hsame hconfig hshield
      have hactive := active_of_memory hmemory hr
      have hbound := verifyPolicy_boundTo (hverified r old hactive hold)
      have hcompared := compareRevisions_repeats hbound.configRevision hbound.resolutionRevision
        hsame hconfig hshield
      have hagree : old.Agree policy := by
        by_contra hdiffers
        cases hbytes : persist host { state with record := some { r with policy := some policy } }
          writeFails with
        | error e => simp [hbytes, Except.toBool] at hpersist
        | ok bytes =>
          have hstep := policyStep_stores hmemory hr hold hpolicy hcompared hdiffers hbytes
          apply hdiffers
          apply h old policy
          · rw [Machine.policy, hsynced r hactive]
            exact hold
          · rw [hstep, Machine.policy, durable_of_persist hbytes]
            rfl
          · exact hsame
      exact ⟨hagree.1.clipboardGuardEnabled.symm, hagree.2.1.symm⟩
    · intro h old new hold hnew hsame
      rcases policyStep_install host m policy writeFails with
        heq | ⟨state, r, bytes, hmemory, hr, hpolicy, hcompared, hpersist, heq⟩
      · rw [heq] at hnew
        obtain rfl : old = new := Option.some.inj (hold.symm.trans hnew)
        exact PolicyEnvelope.Agree.refl old
      · have hactive := active_of_memory hmemory hr
        have hstored : r.policy = some old := by
          rw [Machine.policy, hsynced r hactive] at hold
          exact hold
        obtain rfl : policy = new := by
          rw [heq, Machine.policy, durable_of_persist hpersist] at hnew
          exact Option.some.inj hnew
        obtain ⟨hconfig, hshield⟩ := (compareRevisions_ok (hcompared old hstored)).2 hsame
        obtain ⟨hswitch, hsignature⟩ := h state r old hmemory hr hstored hpolicy
          (by rw [hpersist]; rfl) hsame hconfig hshield
        simp only [revisionsOf, Revisions.mk.injEq] at hsame
        exact agree_of_boundTo (verifyPolicy_boundTo (hverified r old hactive hstored))
          (verifyPolicy_boundTo hpolicy) hswitch.symm hsame.1.symm hsame.2.1.symm hconfig hshield
          hsame.2.2.symm hsignature.symm

private theorem synced_and_verified_run (host : Host Key) (file : Option (List UInt8)) (calls : List PolicyCall) :
    (Machine.run (policyStep host) (Machine.off file) calls).Synced host ∧
      (Machine.run (policyStep host) (Machine.off file) calls).Verified host :=
  Machine.run_invariant (I := fun m : Machine => m.Synced host ∧ m.Verified host)
    (P := fun _ _ => True)
    (fun _ call h _ => ⟨synced_policyStep h.1 call, verified_policyStep h.2 call⟩)
    ⟨synced_off file, verified_off file⟩ (Machine.Throughout.of_forall (fun _ _ => trivial) _ calls)

private theorem envelope_iff (file : Option (List UInt8)) (calls : List PolicyCall) :
    Machine.Throughout (policyStep host) (fun m call => ∀ old new, m.policy host = some old →
      (policyStep host m call).policy host = some new → revisionsOf new = revisionsOf old →
        old.Agree new) (Machine.off file) calls ↔
      Machine.Throughout (policyStep host) (RepeatsSwitch host) (Machine.off file) calls := by
  simp only [Machine.throughout_iff]
  constructor
  · intro h xs call ys hcalls
    obtain ⟨hsynced, hverified⟩ := synced_and_verified_run host file xs
    exact (envelopeKept_iff hsynced hverified call).mp (h xs call ys hcalls)
  · intro h xs call ys hcalls
    obtain ⟨hsynced, hverified⟩ := synced_and_verified_run host file xs
    exact (envelopeKept_iff hsynced hverified call).mpr (h xs call ys hcalls)

/-- Over a run of installs and restarts the revisions never go back, and the stored envelope stays
the same under its revisions exactly when every delivered repetition repeats the switch and the
signature. -/
theorem installMonotone_iff (host : Host Key) (file : Option (List UInt8))
    (calls : List PolicyCall) :
    InstallMonotone host (Machine.off file) calls ↔
      Machine.Throughout (policyStep host) (RepeatsSwitch host) (Machine.off file) calls := by
  rw [← envelope_iff]
  exact ⟨fun h => h.envelope, fun h => ⟨revisions_neverRollBack host file calls, h⟩⟩

section SwitchedPolicy

open FleetProto.Recorded

private def plainSignature : List UInt8 :=
  [96, 112, 221, 6, 170, 106, 97, 133, 219, 177, 120, 234, 223, 237, 190, 106, 64, 118, 214, 193,
    197, 99, 201, 9, 102, 16, 6, 32, 93, 102, 221, 211, 35, 178, 33, 111, 139, 159, 100, 78, 41,
    10, 15, 24, 102, 88, 177, 158, 75, 251, 189, 31, 153, 146, 41, 57, 147, 244, 165, 194, 201,
    119, 227, 7]

private def switchedSignature : List UInt8 :=
  [147, 207, 211, 14, 64, 70, 193, 210, 183, 60, 118, 127, 146, 103, 249, 99, 225, 81, 146, 157,
    79, 44, 59, 105, 121, 177, 197, 108, 79, 136, 247, 247, 122, 174, 158, 177, 215, 9, 237, 43,
    101, 249, 157, 251, 46, 155, 16, 11, 11, 86, 78, 126, 187, 194, 55, 41, 68, 170, 254, 148, 25,
    206, 148, 6]

private def trust : FleetTrust where
  orgId := "org-1"
  deviceId := "dev-1"
  enrollmentGeneration := "bbbbbbbb-bbbb-4bbb-8bbb-bbbbbbbbbbbb"
  signerKey := serverKeyB64

/-- The first policy that the server signs for the machine. -/
private def plain : PolicyEnvelope where
  clipboardGuardEnabled := false
  orgId := "org-1"
  deviceId := "dev-1"
  enrollmentGeneration := some "bbbbbbbb-bbbb-4bbb-8bbb-bbbbbbbbbbbb"
  configRevision := some 1
  resolutionRevision := some 1
  config := none
  shield := none
  shieldRevision := 0
  signature :=
    "YHDdBqpqYYXbsXjq3+2+akB21sHFY8kJZhAGIF1m3dMjsiFvi59kTikKDxhmWLGeS/u9H5mSKTmT9KXCyXfjBw=="
  signerKey := serverKeyB64

/-- The same revisions with the clipboard switch on, signed as well. -/
private def switched : PolicyEnvelope :=
  { plain with
    clipboardGuardEnabled := true
    signature :=
      "k8/TDkBGwdK3PHZ/kmf5Y+FRkp1PLDtpebHFbE+I9/d6rp6x1wntK2X5nfsumxALC1ZOfrvCNylEqv6UGc6UBg==" }

private def storedRecord (policy : PolicyEnvelope) : Record where
  trust
  policy := some policy
  audit := []
  contact := none
  origins := []
  transportProfile := none
  credential := none
  credentialRevision := 0
  connectionRevision := 0
  cleared := none
  runtimeProfileChanged := false
  serviceEnabled := true

private def stored (policy : PolicyEnvelope) : State where
  record := some (storedRecord policy)
  pending := none
  contactChallenge := none

/-- The file up to the first member of the policy, the rest of that member's name, and what
follows it. -/
private def policyFile (first : Char) (name signature : String) : List UInt8 :=
  Json.utf8 (("\x7b\"record\":\x7b\"trust\":\x7b\"org_id\":\"org-1\",\"device_id\":\"dev-1\"," ++
    "\"enrollment_generation\":\"bbbbbbbb-bbbb-4bbb-8bbb-bbbbbbbbbbbb\",\"signer_key\":\"" ++
    serverKeyB64 ++ "\"\x7d,\"policy\":\x7b\"").toList ++ first :: (name ++
    "\"org-1\",\"device_id\":\"dev-1\",\"enrollment_generation\":" ++
    "\"bbbbbbbb-bbbb-4bbb-8bbb-bbbbbbbbbbbb\",\"config_revision\":1,\"resolution_revision\":1," ++
    "\"config\":null,\"shield\":null,\"shield_revision\":0,\"signature\":\"" ++ signature ++
    "\",\"signer_key\":\"" ++ serverKeyB64 ++ "\"\x7d,\"audit\":[],\"contact\":null," ++
    "\"origins\":[],\"transport_profile\":null,\"credential\":null,\"credential_revision\":0," ++
    "\"connection_revision\":0,\"cleared\":null,\"runtime_profile_changed\":false," ++
    "\"service_enabled\":true\x7d,\"pending\":null\x7d").toList)

private def plainFile : List UInt8 := policyFile 'o' "rg_id\":" plain.signature

private def switchedFile : List UInt8 :=
  policyFile 'c' "lipboard_guard_enabled\":true,\"org_id\":" switched.signature

private theorem policyFile_first {c d : Char} {name name' signature signature' : String}
    (h : policyFile c name signature = policyFile d name' signature') : c = d := by
  unfold policyFile at h
  have htext := List.append_cancel_left (Json.utf8_injective h)
  exact (List.cons.inj htext).1

private theorem plainFile_ne_switchedFile : plainFile ≠ switchedFile :=
  fun h => absurd (policyFile_first h) (by decide)

private theorem preimages_differ : plain.preimage ≠ switched.preimage := by
  intro h
  have hagree := (policyEnvelope_normalize_iff _ _).mp (canonicalJsonBytes_eq_iff_normalize.mp h)
  exact absurd hagree.clipboardGuardEnabled (by decide)

private def policyRecording : Recording where
  texts := [(serverKeyB64, serverKey), (plain.signature, plainSignature),
    (switched.signature, switchedSignature)]
  signed := [(serverKey, plain.preimage, plainSignature),
    (serverKey, switched.preimage, switchedSignature)]

private def policyValueOf (policy : PolicyEnvelope) : Json.Value :=
  .object (policyEnvelopeMembers policy.signingInput)

/-- The service as it reads the two preimages and the two files. -/
private def policyHost : Host (List UInt8) where
  crypto := policyRecording.crypto
  sha256 := id
  parseUrl _ := none
  parseJson bytes :=
    if bytes = plain.preimage then some (policyValueOf plain)
    else if bytes = switched.preimage then some (policyValueOf switched) else none
  parseJson_canonical := by
    intro v w h
    split at h
    · next heq =>
      rw [← Option.some.inj h]
      exact (canonicalJsonBytes_eq_iff_normalize.mp heq).symm
    · split at h
      · next heq =>
        rw [← Option.some.inj h]
        exact (canonicalJsonBytes_eq_iff_normalize.mp heq).symm
      · exact absurd h (by simp)
  codec := StateCodec.ofTwo (stored plain) (stored switched) plainFile_ne_switchedFile rfl rfl

private theorem signerKey_text : policyRecording.texts.lookup serverKeyB64 = some serverKey := rfl

private theorem plain_verified : verifyPolicy policyHost.toPlatform trust plain = .ok () := by
  have htext : policyRecording.texts.lookup plain.signature = some plainSignature := rfl
  have hparsed : policyHost.parseJson plain.preimage = some (policyValueOf plain) := by
    simp [policyHost]
  have hsigned : verifySignatureB64 policyRecording.crypto serverKeyB64 plain.preimage
      plain.signature = true :=
    policyRecording.verifies signerKey_text htext (by decide) List.mem_cons_self
  simp only [verifyPolicy, bind_ok, refuseIf_ok, okOr_ok]
  refine ⟨(), by decide, policyValueOf plain, hparsed, (), by decide, (), by decide, (), by decide,
    (), ?_, rfl⟩
  show ¬ verifySignatureB64 policyRecording.crypto serverKeyB64 _ _ = false
  rw [hsigned]
  decide

private theorem switched_verified : verifyPolicy policyHost.toPlatform trust switched = .ok () := by
  have htext : policyRecording.texts.lookup switched.signature = some switchedSignature := rfl
  have hparsed : policyHost.parseJson switched.preimage = some (policyValueOf switched) := by
    simp [policyHost, preimages_differ.symm]
  have hsigned : verifySignatureB64 policyRecording.crypto serverKeyB64 switched.preimage
      switched.signature = true :=
    policyRecording.verifies signerKey_text htext (by decide)
      (List.mem_cons_of_mem _ List.mem_cons_self)
  simp only [verifyPolicy, bind_ok, refuseIf_ok, okOr_ok]
  refine ⟨(), by decide, policyValueOf switched, hparsed, (), by decide, (), by decide, (),
    by decide, (), ?_, rfl⟩
  show ¬ verifySignatureB64 policyRecording.crypto serverKeyB64 _ _ = false
  rw [hsigned]
  decide

private theorem stored_checked {policy : PolicyEnvelope}
    (hverified : verifyPolicy policyHost.toPlatform trust policy = .ok ()) :
    ∀ r, (stored policy).record = some r → checkRecord policyHost r = .ok () := by
  intro r hr
  have htrusted : validateTrust policyHost.toPlatform trust = .ok () := by rfl
  obtain rfl : storedRecord policy = r := Option.some.inj hr
  exact bind_ok.mpr ⟨(), htrusted, hverified⟩

private theorem plainFile_read : policyHost.codec.fromSlice plainFile = some (stored plain) := by
  simp [policyHost, StateCodec.ofTwo]

private theorem plainFile_opened : policyStep policyHost (Machine.off (some plainFile))
    (.restart ⟨false, none⟩) = ⟨some plainFile, some (stored plain)⟩ :=
  step_opened (openStore_of_check rfl plainFile_read (stored_checked plain_verified))

private theorem switched_persisted :
    persist policyHost (stored switched) false = .ok switchedFile := by
  have hne : stored switched ≠ stored plain := by decide
  have hbytes : policyHost.codec.toVec (stored switched) = some switchedFile := by
    simp [policyHost, StateCodec.ofTwo, hne]
  exact bind_ok.mpr ⟨_, okOr_ok.mpr hbytes, bind_ok.mpr ⟨(), refuseIf_neg _ (by simp), rfl⟩⟩


private theorem switched_step : policyStep policyHost ⟨some plainFile, some (stored plain)⟩
    (.install switched false) = ⟨some switchedFile, some (stored switched)⟩ := by
  have hcompared : compareRevisions plain switched = .ok () :=
    compareRevisions_repeats (by decide) (by decide) rfl .none rfl
  have hdiffers : ¬ plain.Agree switched :=
    fun hagree => absurd hagree.1.clipboardGuardEnabled (by decide)
  have hrecord : (stored plain).record = some (storedRecord plain) := rfl
  have hpolicy : (storedRecord plain).policy = some plain := rfl
  exact policyStep_stores rfl hrecord hpolicy switched_verified hcompared hdiffers
    switched_persisted

private theorem plain_policy (memory : Option State) :
    Machine.policy policyHost ⟨some plainFile, memory⟩ = some plain := by
  rw [Machine.policy, durable_of_read plainFile_read]
  rfl

private theorem switched_policy (memory : Option State) :
    Machine.policy policyHost ⟨some switchedFile, memory⟩ = some switched := by
  rw [Machine.policy, durable_of_persist switched_persisted]
  rfl

/-- A signed policy with the clipboard switch on replaces the stored one under its revisions. -/
theorem switched_policy_stored : ¬ InstallMonotone policyHost (Machine.off (some plainFile))
    [.restart ⟨false, none⟩, .install switched false] := by
  intro h
  have hkept := h.envelope.2.1
  rw [plainFile_opened, switched_step] at hkept
  have hagree := hkept plain switched (plain_policy _) (switched_policy _) rfl
  exact absurd hagree.1.clipboardGuardEnabled (by decide)

end SwitchedPolicy

end FleetMachinePolicy
