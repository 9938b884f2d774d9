import Mathlib
import WinCommander.FleetMachine.Run

/-!
# Recovery of the fleet machine store

The checks of an open read the trust and the policy of a record.  Each operation keeps both, or
verifies the policy that it puts in, or validates the trust that it puts in without a policy, so
what it writes is opened again.
-/

namespace FleetMachinePolicy

open FleetProto Outcome

variable {Key : Type} {host : Host Key}

/-- What an operation does to the trust and the policy of the record. -/
inductive PolicyMove (host : Host Key) (before : Option Record) : Option Record → Prop
  | same : PolicyMove host before before
  | keep (r r' : Record) (hr : before = some r) (htrust : r'.trust = r.trust)
      (hpolicy : r'.policy = r.policy) : PolicyMove host before (some r')
  | install (r r' : Record) (policy : PolicyEnvelope) (hr : before = some r)
      (htrust : r'.trust = r.trust) (hpolicy : r'.policy = some policy)
      (hverified : verifyPolicy host.toPlatform r.trust policy = .ok ()) :
      PolicyMove host before (some r')
  | replace (r' : Record) (htrust : validateTrust host.toPlatform r'.trust = .ok ())
      (hpolicy : r'.policy = none) : PolicyMove host before (some r')

section Moves

variable {state next : State} {answer : Answer}

private theorem policyMove_beginEnrollment {deviceId signerKey : String} {origins : List String}
    {profile : Option TransportProfile} {challenge : Option String} {a : String}
    (h : beginEnrollment host deviceId signerKey origins profile challenge state =
      .ok (some next, a)) : PolicyMove host state.record next.record := by
  have hrecord : next.record = state.record := by
    unfold beginEnrollment at h
    obtain ⟨_, _, h⟩ := bind_ok.mp h
    obtain ⟨_, _, h⟩ := bind_ok.mp h
    cases profile with
    | none =>
      simp only [bind_ok, okOr_ok, pure_ok, Prod.mk.injEq, Option.some.injEq] at h
      obtain ⟨_, _, rfl, _⟩ := h
      rfl
    | some profile =>
      simp only [bind_ok, okOr_ok, pure_ok, Prod.mk.injEq, Option.some.injEq] at h
      obtain ⟨_, _, _, _, rfl, _⟩ := h
      rfl
  rw [hrecord]
  exact PolicyMove.same

private theorem policyMove_replaceTrust {previous replacement : FleetTrust}
    {signature actor : String} {unixTime : Option UInt64}
    (h : replaceTrust host previous replacement signature actor unixTime state =
      .ok (some next, ())) : PolicyMove host state.record next.record := by
  simp only [replaceTrust, bind_ok, pure_ok, Prod.mk.injEq, Option.some.injEq] at h
  obtain ⟨_, _, ⟨⟩, htrust, _, _, _, _, _, _, _, _, _, _, _, _, _, _, rfl, _⟩ := h
  exact PolicyMove.replace _ htrust rfl

private theorem policyMove_bindOrigins {expected : FleetTrust} {signature actor : String}
    {unixTime : Option UInt64}
    (h : bindOrigins host expected signature actor unixTime state = .ok (some next, ())) :
    PolicyMove host state.record next.record := by
  simp only [bindOrigins, currentRecord, bind_ok, okOr_ok] at h
  obtain ⟨_, _, r, hr, _, _, _, _, h⟩ := h
  split at h
  · simp only [bind_ok, pure_ok, Prod.mk.injEq, Option.some.injEq] at h
    obtain ⟨_, _, _, _, _, _, rfl, _⟩ := h
    exact PolicyMove.keep r _ hr rfl rfl
  · simp only [pure_ok, Prod.mk.injEq, Option.some.injEq] at h
    obtain ⟨rfl, _⟩ := h
    exact PolicyMove.keep r r hr rfl rfl

private theorem policyMove_observeRuntimeTransport {expected : FleetTrust} {origins : List String}
    {profile : Option TransportProfile} {token : String} {a : Bool}
    (h : observeRuntimeTransport host expected origins profile token state =
      .ok (some next, a)) : PolicyMove host state.record next.record := by
  simp only [observeRuntimeTransport, currentRecord, bind_ok, okOr_ok] at h
  obtain ⟨r, hr, _, _, _, _, h⟩ := h
  split at h
  · exact absurd h (by simp [pure, Except.pure])
  · split at h
    · exact absurd h (by simp [pure, Except.pure])
    · simp only [bind_ok, pure_ok, Prod.mk.injEq, Option.some.injEq] at h
      obtain ⟨_, _, rfl, _⟩ := h
      exact PolicyMove.keep r _ hr rfl rfl

private theorem policyMove_install {policy : PolicyEnvelope}
    (h : install host policy state = .ok (some next, ())) :
    PolicyMove host state.record next.record := by
  obtain ⟨r, hr, hverified, _, hnext⟩ := install_ok h
  rw [hnext next rfl]
  exact PolicyMove.install r _ policy hr rfl rfl hverified

private theorem prepareCandidate_writes_none {trust : FleetTrust} {token : String}
    {origins : List String} {profile : TransportProfile} {origin : String} {secret : List UInt8}
    {protector : Protector} {written : Option State} {a : Option CandidateContext}
    (h : prepareCandidate host trust token origins profile origin secret protector state =
      .ok (written, a)) : written = none := by
  simp only [prepareCandidate, bind_ok] at h
  obtain ⟨_, _, _, _, _, _, _, _, _, _, _, _, _, _, _, _, h⟩ := h
  split at h
  · exact (Prod.mk.inj (Except.ok.inj h)).1.symm
  · exact (Prod.mk.inj (Except.ok.inj h)).1.symm

private theorem policyMove_commitCandidate {context : CandidateContext} {secret : List UInt8}
    {protector : Protector} {a : UInt64}
    (h : commitCandidate host context secret protector state = .ok (some next, a)) :
    PolicyMove host state.record next.record := by
  simp only [commitCandidate, currentRecord, bind_ok, okOr_ok, pure_ok, Prod.mk.injEq,
    Option.some.injEq] at h
  obtain ⟨r, hr, _, _, _, _, _, _, rfl, _⟩ := h
  exact PolicyMove.keep r _ hr rfl rfl

private theorem policyMove_startConnection {expected : FleetTrust} {token connToken : String}
    {a : String × String}
    (h : startConnection host expected token connToken state = .ok (some next, a)) :
    PolicyMove host state.record next.record := by
  simp only [startConnection, currentRecord, bind_ok, okOr_ok, pure_ok, Prod.mk.injEq,
    Option.some.injEq] at h
  obtain ⟨r, hr, _, _, _, _, _, _, rfl, _⟩ := h
  exact PolicyMove.keep r _ hr rfl rfl

private theorem policyMove_clearCredential {token connToken : String} {a : Bool}
    (h : clearCredential host token connToken state = .ok (some next, a)) :
    PolicyMove host state.record next.record := by
  unfold clearCredential at h
  cases hr : state.record with
  | none =>
    rw [hr] at h
    exact absurd h (by simp [pure, Except.pure])
  | some r =>
    simp only [hr] at h
    split at h
    · exact absurd h (by simp [pure, Except.pure])
    · split at h
      · exact absurd h (by simp [pure, Except.pure])
      · simp only [bind_ok, pure_ok, Prod.mk.injEq, Option.some.injEq] at h
        obtain ⟨_, _, _, _, rfl, _⟩ := h
        exact PolicyMove.keep r _ rfl rfl rfl

theorem policyMove_of_decideOn {op : Operation}
    (h : decideOn host state op = .ok (some next, answer)) :
    PolicyMove host state.record next.record := by
  cases op with
  | beginEnrollment => exact policyMove_beginEnrollment (map_ok h).choose_spec.1
  | replaceTrust => exact policyMove_replaceTrust (map_ok h).choose_spec.1
  | bindOrigins => exact policyMove_bindOrigins (map_ok h).choose_spec.1
  | observeRuntimeTransport => exact policyMove_observeRuntimeTransport (map_ok h).choose_spec.1
  | install => exact policyMove_install (map_ok h).choose_spec.1
  | prepareCandidate =>
    exact absurd (prepareCandidate_writes_none (map_ok h).choose_spec.1) (by simp)
  | commitCandidate => exact policyMove_commitCandidate (map_ok h).choose_spec.1
  | startConnection => exact policyMove_startConnection (map_ok h).choose_spec.1
  | clearCredential => exact policyMove_clearCredential (map_ok h).choose_spec.1

end Moves

section Checked

/-- The record, if there is one, passes the checks of an open. -/
def Checked (host : Host Key) (record : Option Record) : Prop :=
  ∀ r, record = some r → checkRecord host r = .ok ()

theorem checkRecord_ok_iff (r : Record) : checkRecord host r = .ok () ↔
    validateTrust host.toPlatform r.trust = .ok () ∧
      ∀ policy, r.policy = some policy → verifyPolicy host.toPlatform r.trust policy = .ok () := by
  simp only [checkRecord, bind_ok]
  cases hpolicy : r.policy with
  | none =>
    constructor
    · intro h
      obtain ⟨⟨⟩, htrust, _⟩ := h
      exact ⟨htrust, fun policy hnone => absurd hnone (by simp)⟩
    · intro h
      exact ⟨(), h.1, rfl⟩
  | some policy =>
    constructor
    · intro h
      obtain ⟨_, htrust, hverified⟩ := h
      exact ⟨htrust, fun policy' hpolicy' => Option.some.inj hpolicy' ▸ hverified⟩
    · intro h
      exact ⟨(), h.1, h.2 policy rfl⟩

/-- No move makes a record that an open refuses. -/
theorem PolicyMove.checked {before after : Option Record} (h : PolicyMove host before after)
    (hbefore : Checked host before) : Checked host after := by
  cases h with
  | same => exact hbefore
  | keep r r' hr htrust hpolicy =>
    intro r'' hr''
    cases hr''
    have hcheck := hbefore r hr
    rw [checkRecord_ok_iff] at hcheck ⊢
    rw [htrust, hpolicy]
    exact hcheck
  | install r r' policy hr htrust hpolicy hverified =>
    intro r'' hr''
    cases hr''
    have hcheck := (checkRecord_ok_iff r).mp (hbefore r hr)
    rw [checkRecord_ok_iff, htrust, hpolicy]
    refine ⟨hcheck.1, fun policy' hpolicy' => ?_⟩
    rw [← Option.some.inj hpolicy']
    exact hverified
  | replace r' htrust hpolicy =>
    intro r'' hr''
    cases hr''
    rw [checkRecord_ok_iff, hpolicy]
    exact ⟨htrust, fun policy hsome => absurd hsome (by simp)⟩

theorem checked_step {m : Machine} (h : Checked host m.active) (call : Call) :
    Checked host (step host m call).active := by
  unfold step
  rcases respond_cases host m call with
    heq | ⟨op, writeFails, state, next, answer, bytes, rfl, hmemory, hop, _, heq⟩ | ⟨faults, rfl⟩
  · rw [heq]
    exact h
  · rw [heq]
    have hbefore : Checked host state.record := by
      intro r hr
      exact h r (active_of_memory hmemory hr)
    exact (policyMove_of_decideOn hop).checked hbefore
  · intro r hr
    obtain ⟨_, hnone | ⟨r', hactive, _, hcheck⟩⟩ := m.restart_cases host faults
    · exact absurd (hnone.symm.trans hr) (by simp)
    · have heq : r' = r := Option.some.inj (hactive.symm.trans hr)
      exact heq ▸ hcheck

theorem checked_run (file : Option (List UInt8)) (calls : List Call) :
    Checked host (Machine.run (step host) (Machine.off file) calls).active :=
  Machine.run_invariant (I := fun m : Machine => Checked host m.active) (P := fun _ _ => True)
    (fun _ call h _ => checked_step h call)
    (fun r hr => absurd hr (by simp [Machine.active, Machine.off]))
    (Machine.Throughout.of_forall (fun _ _ => trivial) _ calls)

/-- What is written of a checked state is opened as that state, without its challenge. -/
theorem openStore_of_persist {next : State} {writeFails : Bool} {bytes : List UInt8}
    (hcheck : Checked host next.record) (h : persist host next writeFails = .ok bytes) :
    openStore host (some bytes) ⟨false, none⟩ = .ok { next with contactChallenge := none } := by
  simp only [persist, bind_ok, okOr_ok, pure_ok] at h
  obtain ⟨stored, hstored, _, _, rfl⟩ := h
  exact openStore_of_check rfl (host.codec.fromSlice_toVec hstored) hcheck

end Checked

section Recovery

variable (host)

/-- Over a run the policy in memory verifies under the trust and generation beside it, and what a
call writes is opened as the state that it took over. -/
structure Recoverable (file : Option (List UInt8)) (calls : List Call) : Prop where
  verified : ∀ xs ys r policy, calls = xs ++ ys →
    (Machine.run (step host) (Machine.off file) xs).active = some r → r.policy = some policy →
      verifyPolicy host.toPlatform r.trust policy = .ok () ∧ BoundTo r.trust policy
  opened : ∀ xs op writeFails ys state next answer bytes,
    calls = xs ++ .perform op writeFails :: ys →
      (Machine.run (step host) (Machine.off file) xs).memory = some state →
        decideOn host state op = .ok (some next, answer) →
          persist host next writeFails = .ok bytes →
            Machine.run (step host) (Machine.off file) (xs ++ [.perform op writeFails]) =
                ⟨some bytes, some next⟩ ∧
              openStore host (some bytes) ⟨false, none⟩ =
                .ok { next with contactChallenge := none }

/-- No order of operations, failed writes and restarts leaves a store that cannot be opened. -/
theorem recoverable (file : Option (List UInt8)) (calls : List Call) :
    Recoverable host file calls where
  verified := by
    intro xs ys r policy _ hr hpolicy
    have hcheck := (checkRecord_ok_iff r).mp (checked_run file xs r hr)
    have hverified := hcheck.2 policy hpolicy
    exact ⟨hverified, verifyPolicy_boundTo hverified⟩
  opened := by
    intro xs op writeFails ys state next answer bytes _ hmemory hop hpersist
    have hbefore : Checked host state.record := by
      intro r hr
      exact checked_run file xs r (active_of_memory hmemory hr)
    constructor
    · rw [Machine.run_append]
      exact congrArg Prod.fst (Machine.perform_written hmemory hop hpersist)
    · exact openStore_of_persist ((policyMove_of_decideOn hop).checked hbefore) hpersist

end Recovery

end FleetMachinePolicy
