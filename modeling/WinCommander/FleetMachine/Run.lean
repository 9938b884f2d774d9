import Mathlib
import WinCommander.Library.Run
import WinCommander.FleetMachine.Store

/-!
# Runs of the fleet machine store

A run interleaves the operations of an enrolled machine with restarts.  Whatever the order, the
two revisions of the record in the file only grow, and only a re-enrolment enables a service that
was cleared.
-/

namespace FleetMachinePolicy

open FleetProto Outcome

/-- The operations of an enrolled machine, with what they read from the environment. -/
inductive Operation where
  | beginEnrollment (deviceId signerKey : String) (allowedOrigins : List String)
      (transportProfile : Option TransportProfile) (challenge : Option String)
  | replaceTrust (previous replacement : FleetTrust) (signature actor : String)
      (unixTime : Option UInt64)
  | bindOrigins (expected : FleetTrust) (signature actor : String) (unixTime : Option UInt64)
  | observeRuntimeTransport (expected : FleetTrust) (observedOrigins : List String)
      (observedProfile : Option TransportProfile) (token : String)
  | install (policy : PolicyEnvelope)
  | prepareCandidate (trust : FleetTrust) (token : String) (observedOrigins : List String)
      (profile : TransportProfile) (origin : String) (secret : List UInt8) (protector : Protector)
  | commitCandidate (context : CandidateContext) (secret : List UInt8) (protector : Protector)
  | startConnection (expected : FleetTrust) (token connToken : String)
  | clearCredential (token connToken : String)

inductive Answer where
  | done
  | challenge (challenge : String)
  | authorized (ok : Bool)
  | prepared (context : Option CandidateContext)
  | committed (revision : UInt64)
  | connection (connToken token : String)
  | cleared (ok : Bool)

inductive Call where
  | perform (op : Operation) (writeFails : Bool)
  | restart (faults : OpenFaults)

section Step

variable {Key : Type} (host : Host Key)

def answerWith {α : Type} (f : α → Answer) (change : Change α) : Change Answer :=
  (change.1, f change.2)

def decideOn (state : State) : Operation → Except String (Change Answer)
  | .beginEnrollment deviceId signerKey allowedOrigins transportProfile challenge =>
    (beginEnrollment host deviceId signerKey allowedOrigins transportProfile challenge state).map
      (answerWith .challenge)
  | .replaceTrust previous replacement signature actor unixTime =>
    (replaceTrust host previous replacement signature actor unixTime state).map
      (answerWith fun _ => .done)
  | .bindOrigins expected signature actor unixTime =>
    (bindOrigins host expected signature actor unixTime state).map (answerWith fun _ => .done)
  | .observeRuntimeTransport expected observedOrigins observedProfile token =>
    (observeRuntimeTransport host expected observedOrigins observedProfile token state).map
      (answerWith .authorized)
  | .install policy => (install host policy state).map (answerWith fun _ => .done)
  | .prepareCandidate trust token observedOrigins profile origin secret protector =>
    (prepareCandidate host trust token observedOrigins profile origin secret protector state).map
      (answerWith .prepared)
  | .commitCandidate context secret protector =>
    (commitCandidate host context secret protector state).map (answerWith .committed)
  | .startConnection expected token connToken =>
    (startConnection host expected token connToken state).map
      (answerWith fun tokens => .connection tokens.1 tokens.2)
  | .clearCredential token connToken =>
    (clearCredential host token connToken state).map (answerWith .cleared)

def respond (m : Machine) : Call → Machine × Except String Answer
  | .perform op writeFails => m.perform host writeFails fun state => decideOn host state op
  | .restart faults =>
    ((m.restart host faults).1, (m.restart host faults).2.map fun _ => .done)

def step (m : Machine) (call : Call) : Machine := (respond host m call).1

end Step

section Records

variable {Key : Type} {host : Host Key} {state next : State} {answer : Answer}

theorem map_ok {α : Type} {x : Except String (Change α)} {f : α → Answer}
    {change : Change Answer} (h : x.map (answerWith f) = .ok change) :
    ∃ a, x = .ok (change.1, a) ∧ change.2 = f a := by
  cases x with
  | error e => exact absurd h (by simp [Except.map])
  | ok found =>
    simp only [Except.map, Except.ok.injEq] at h
    subst h
    exact ⟨found.2, rfl, rfl⟩

private theorem nextRevision_ok {r r' : UInt64} (h : nextRevision r = .ok r') :
    r'.toNat = r.toNat + 1 := by
  simp only [nextRevision, bind_ok, refuseIf_ok, pure_ok, exists_const] at h
  obtain ⟨hfits, rfl⟩ := h
  have hlt := r.toNat_lt
  rw [UInt64.toNat_add]
  simp only [UInt64.reduceToNat]
  omega

/-- The two operations that enable a cleared service again. -/
def Operation.reenables : Operation → Bool
  | .replaceTrust .. => true
  | .bindOrigins .. => true
  | _ => false

/-- How the record that an operation writes follows the one before it. -/
structure RecordMove (reenables : Bool) (r r' : Record) : Prop where
  credential : r.credentialRevision.toNat ≤ r'.credentialRevision.toNat
  connection : r.connectionRevision.toNat ≤ r'.connectionRevision.toNat
  trust : r'.connectionRevision.toNat = r.connectionRevision.toNat → r'.trust = r.trust
  enabled : reenables = false → r'.serviceEnabled = true → r.serviceEnabled = true

private theorem recordMove_same {b : Bool} {r r' : Record} (htrust : r'.trust = r.trust)
    (hcredential : r'.credentialRevision = r.credentialRevision)
    (hconnection : r'.connectionRevision = r.connectionRevision)
    (henabled : r'.serviceEnabled = r.serviceEnabled) : RecordMove b r r' := by
  refine ⟨?_, ?_, fun _ => htrust, fun _ h => henabled ▸ h⟩
  · rw [hcredential]
  · rw [hconnection]

private theorem recordMove_next {b : Bool} {r r' : Record}
    (hcredential : nextRevision r.credentialRevision = .ok r'.credentialRevision)
    (hconnection : nextRevision r.connectionRevision = .ok r'.connectionRevision)
    (henabled : b = false → r'.serviceEnabled = true → r.serviceEnabled = true) :
    RecordMove b r r' := by
  have hcredential' := nextRevision_ok hcredential
  have hconnection' := nextRevision_ok hconnection
  refine ⟨by omega, by omega, fun heq => ?_, henabled⟩
  omega

private theorem recordMove_credential {b : Bool} {r r' : Record} (htrust : r'.trust = r.trust)
    (hcredential : nextRevision r.credentialRevision = .ok r'.credentialRevision)
    (hconnection : r'.connectionRevision = r.connectionRevision)
    (henabled : r'.serviceEnabled = r.serviceEnabled) : RecordMove b r r' := by
  have hcredential' := nextRevision_ok hcredential
  refine ⟨by omega, ?_, fun _ => htrust, fun _ h => henabled ▸ h⟩
  rw [hconnection]

/-- What an operation may write over the record in memory. -/
def Writes (reenables : Bool) (state : State) (next : State) : Prop :=
  next.record = state.record ∨
    ∃ r r', state.record = some r ∧ next.record = some r' ∧ RecordMove reenables r r'

variable {b : Bool}

private theorem writes_beginEnrollment {deviceId signerKey : String} {origins : List String}
    {profile : Option TransportProfile} {challenge : Option String} {a : String}
    (h : beginEnrollment host deviceId signerKey origins profile challenge state =
      .ok (some next, a)) : Writes b state next := by
  unfold beginEnrollment at h
  obtain ⟨_, _, h⟩ := bind_ok.mp h
  obtain ⟨_, _, h⟩ := bind_ok.mp h
  refine Or.inl ?_
  cases profile with
  | none =>
    simp only [bind_ok, okOr_ok, pure_ok, Prod.mk.injEq, Option.some.injEq] at h
    obtain ⟨_, _, rfl, _⟩ := h
    rfl
  | some profile =>
    simp only [bind_ok, okOr_ok, pure_ok, Prod.mk.injEq, Option.some.injEq] at h
    obtain ⟨_, _, _, _, rfl, _⟩ := h
    rfl

private theorem writes_replaceTrust {previous replacement : FleetTrust} {signature actor : String}
    {unixTime : Option UInt64}
    (h : replaceTrust host previous replacement signature actor unixTime state =
      .ok (some next, ())) : Writes true state next := by
  simp only [replaceTrust, currentRecord, bind_ok, okOr_ok, pure_ok, Prod.mk.injEq,
    Option.some.injEq] at h
  obtain ⟨_, _, _, _, _, _, r, hr, _, _, _, _, _, _, _, hcredential, _, hconnection, rfl, _⟩ := h
  exact Or.inr ⟨r, _, hr, rfl, recordMove_next hcredential hconnection (by simp)⟩

private theorem writes_bindOrigins {expected : FleetTrust} {signature actor : String}
    {unixTime : Option UInt64}
    (h : bindOrigins host expected signature actor unixTime state = .ok (some next, ())) :
    Writes true state next := by
  simp only [bindOrigins, currentRecord, bind_ok, okOr_ok] at h
  obtain ⟨_, _, r, hr, _, _, _, _, h⟩ := h
  split at h
  · simp only [bind_ok, pure_ok, Prod.mk.injEq, Option.some.injEq] at h
    obtain ⟨_, _, _, hcredential, _, hconnection, rfl, _⟩ := h
    exact Or.inr ⟨r, _, hr, rfl, recordMove_next hcredential hconnection (by simp)⟩
  · simp only [pure_ok, Prod.mk.injEq, Option.some.injEq] at h
    obtain ⟨rfl, _⟩ := h
    exact Or.inl hr.symm

/-- What a call that names the current connection found in memory. -/
theorem observeRuntimeTransport_ok {expected : FleetTrust} {origins : List String}
    {profile : Option TransportProfile} {token : String} {written : Option State} {a : Bool}
    (h : observeRuntimeTransport host expected origins profile token state = .ok (written, a)) :
    ∃ r, state.record = some r ∧ connectionToken host r = token ∧
      ∀ next, written = some next → Writes b state next := by
  simp only [observeRuntimeTransport, currentRecord, bind_ok, okOr_ok, refuseIf_ok,
    exists_const] at h
  obtain ⟨r, hr, hbinding, _, h⟩ := h
  rw [not_or, not_not, not_not] at hbinding
  refine ⟨r, hr, hbinding.2, fun next hnext => ?_⟩
  subst hnext
  split at h
  · exact absurd h (by simp [pure, Except.pure])
  · split at h
    · exact absurd h (by simp [pure, Except.pure])
    · simp only [bind_ok, pure_ok, Prod.mk.injEq, Option.some.injEq] at h
      obtain ⟨_, hcredential, rfl, _⟩ := h
      exact Or.inr ⟨r, _, hr, rfl, recordMove_credential rfl hcredential rfl rfl⟩

/-- What an accepted policy replaces. -/
theorem install_ok {policy : PolicyEnvelope} {written : Option State}
    (h : install host policy state = .ok (written, ())) :
    ∃ r, state.record = some r ∧ verifyPolicy host.toPlatform r.trust policy = .ok () ∧
      (∀ old, r.policy = some old → compareRevisions old policy = .ok ()) ∧
      ∀ next, written = some next →
        next = { state with record := some { r with policy := some policy } } := by
  simp only [install, currentRecord, bind_ok, okOr_ok] at h
  obtain ⟨r, hr, ⟨⟩, hverified, h⟩ := h
  refine ⟨r, hr, hverified, ?_⟩
  cases hpolicy : r.policy with
  | none =>
    simp only [hpolicy, pure_ok, Prod.mk.injEq] at h
    refine ⟨fun old hold => absurd hold (by simp), fun next hnext => ?_⟩
    rw [hnext] at h
    exact (Option.some.inj h.1).symm
  | some old =>
    simp only [hpolicy, bind_ok] at h
    obtain ⟨⟨⟩, hcompared, h⟩ := h
    refine ⟨fun old' hold => Option.some.inj hold ▸ hcompared, fun next hnext => ?_⟩
    subst hnext
    split at h
    · exact absurd h (by simp [pure, Except.pure])
    · simp only [pure_ok, Prod.mk.injEq, Option.some.injEq] at h
      exact h.1.symm

private theorem writes_install {policy : PolicyEnvelope}
    (h : install host policy state = .ok (some next, ())) : Writes b state next := by
  obtain ⟨r, hr, _, _, hnext⟩ := install_ok h
  rw [hnext next rfl]
  exact Or.inr ⟨r, _, hr, rfl, recordMove_same rfl rfl rfl rfl⟩

/-- Preparing writes nothing, and a context carries the revisions it was prepared at. -/
theorem prepareCandidate_ok {trust : FleetTrust} {token : String} {origins : List String}
    {profile : TransportProfile} {origin : String} {secret : List UInt8} {protector : Protector}
    {written : Option State} {context : Option CandidateContext}
    (h : prepareCandidate host trust token origins profile origin secret protector state =
      .ok (written, context)) :
    written = none ∧ ∃ r, state.record = some r ∧ connectionToken host r = token ∧
      ∀ c, context = some c → c.revision = r.credentialRevision ∧
        c.connectionRevision = r.connectionRevision := by
  simp only [prepareCandidate, currentRecord, bind_ok, okOr_ok, refuseIf_ok, exists_const] at h
  obtain ⟨_, r, hr, htoken, _, _, _, _, _, _, _, h⟩ := h
  rw [not_not] at htoken
  split at h
  · simp only [pure_ok, Prod.mk.injEq] at h
    exact ⟨h.1.symm, r, hr, htoken, fun c hc => absurd (h.2.trans hc) (by simp)⟩
  · simp only [pure_ok, Prod.mk.injEq] at h
    refine ⟨h.1.symm, r, hr, htoken, fun c hc => ?_⟩
    rw [hc, Option.some.injEq] at h
    rw [← h.2]
    exact ⟨rfl, rfl⟩

/-- A commit finds the revisions of its context and uses the credential revision up. -/
theorem commitCandidate_ok {context : CandidateContext} {secret : List UInt8}
    {protector : Protector} {written : Option State} {revision : UInt64}
    (h : commitCandidate host context secret protector state = .ok (written, revision)) :
    ∃ r r' next, state.record = some r ∧ r.credentialRevision = context.revision ∧
      r.connectionRevision = context.connectionRevision ∧ written = some next ∧
      next.record = some r' ∧
      r'.credentialRevision.toNat = r.credentialRevision.toNat + 1 ∧ RecordMove b r r' := by
  simp only [commitCandidate, currentRecord, bind_ok, okOr_ok, refuseIf_ok, exists_const, pure_ok,
    Prod.mk.injEq, not_or, not_not] at h
  obtain ⟨r, hr, ⟨_, _, _, _, hcredential, hconnection, _⟩, _, _, _, hnext, rfl, _⟩ := h
  exact ⟨r, _, _, hr, hcredential, hconnection, rfl, rfl, nextRevision_ok hnext,
    recordMove_credential rfl hnext rfl rfl⟩

theorem startConnection_ok {expected : FleetTrust} {token connToken : String}
    {written : Option State} {tokens : String × String}
    (h : startConnection host expected token connToken state = .ok (written, tokens)) :
    ∃ r, state.record = some r ∧ connectionToken host r = connToken ∧
      ∀ next, written = some next → Writes b state next := by
  simp only [startConnection, currentRecord, bind_ok, okOr_ok, refuseIf_ok, exists_const, pure_ok,
    Prod.mk.injEq, not_or, not_not] at h
  obtain ⟨r, hr, ⟨_, _, htoken⟩, _, hcredential, _, hconnection, rfl, _⟩ := h
  refine ⟨r, hr, htoken, fun next hnext => ?_⟩
  rw [← Option.some.inj hnext]
  exact Or.inr ⟨r, _, hr, rfl, recordMove_next hcredential hconnection fun _ henabled => henabled⟩

/-- A clear that changes the record names the current connection and leaves the service disabled;
any other clear writes nothing. -/
theorem clearCredential_ok {token connToken : String} {written : Option State} {a : Bool}
    (h : clearCredential host token connToken state = .ok (written, a)) :
    (written = none ∧ (a = true → ∃ r, state.record = some r ∧ r.serviceEnabled = false)) ∨
    ∃ r r' next, state.record = some r ∧ connectionToken host r = connToken ∧
      written = some next ∧ next.record = some r' ∧ r'.serviceEnabled = false ∧
      RecordMove b r r' := by
  unfold clearCredential at h
  cases hr : state.record with
  | none =>
    simp only [hr, pure_ok, Prod.mk.injEq] at h
    exact Or.inl ⟨h.1.symm, fun ha => absurd (h.2.trans ha) (by simp)⟩
  | some r =>
    simp only [hr] at h
    split at h
    · next hcleared =>
      simp only [pure_ok, Prod.mk.injEq] at h
      exact Or.inl ⟨h.1.symm, fun _ => ⟨r, rfl, hcleared.1⟩⟩
    · split at h
      · simp only [pure_ok, Prod.mk.injEq] at h
        exact Or.inl ⟨h.1.symm, fun ha => absurd (h.2.trans ha) (by simp)⟩
      · next htokens =>
        rw [not_or, not_not, not_not] at htokens
        simp only [bind_ok, pure_ok, Prod.mk.injEq] at h
        obtain ⟨_, hconnection, _, hcredential, rfl, _⟩ := h
        exact Or.inr ⟨r, _, _, rfl, htokens.2, rfl, rfl, rfl,
          recordMove_next hcredential hconnection fun _ henabled => absurd henabled (by simp)⟩

/-- Every operation writes the record it found, or one that follows it. -/
theorem writes_of_decideOn {op : Operation} (h : decideOn host state op = .ok (some next, answer)) :
    Writes op.reenables state next := by
  cases op with
  | beginEnrollment => exact writes_beginEnrollment (map_ok h).choose_spec.1
  | replaceTrust => exact writes_replaceTrust (map_ok h).choose_spec.1
  | bindOrigins => exact writes_bindOrigins (map_ok h).choose_spec.1
  | observeRuntimeTransport =>
    obtain ⟨_, _, _, hwrites⟩ := observeRuntimeTransport_ok (map_ok h).choose_spec.1
    exact hwrites next rfl
  | install => exact writes_install (map_ok h).choose_spec.1
  | prepareCandidate =>
    exact absurd (prepareCandidate_ok (map_ok h).choose_spec.1).1 (by simp)
  | commitCandidate =>
    obtain ⟨r, r', _, hr, _, _, hnext, hr', _, hmove⟩ :=
      commitCandidate_ok (map_ok h).choose_spec.1
    exact Or.inr ⟨r, r', hr, Option.some.inj hnext ▸ hr', hmove⟩
  | startConnection =>
    obtain ⟨_, _, _, hwrites⟩ := startConnection_ok (map_ok h).choose_spec.1
    exact hwrites next rfl
  | clearCredential =>
    rcases clearCredential_ok (map_ok h).choose_spec.1 with
      ⟨hnone, _⟩ | ⟨r, r', _, hr, _, hnext, hr', _, hmove⟩
    · exact absurd hnone (by simp)
    · exact Or.inr ⟨r, r', hr, Option.some.inj hnext ▸ hr', hmove⟩

end Records

section Machines

variable {Key : Type} {host : Host Key}

/-- A call leaves the machine alone, or it is an operation whose next state is now in the file and
in memory, or a restart. -/
theorem respond_cases (host : Host Key) (m : Machine) (call : Call) :
    (respond host m call).1 = m ∨
    (∃ op writeFails state next answer bytes, call = .perform op writeFails ∧
      m.memory = some state ∧ decideOn host state op = .ok (some next, answer) ∧
      persist host next writeFails = .ok bytes ∧
      respond host m call = ({ file := some bytes, memory := some next }, .ok answer)) ∨
    ∃ faults, call = .restart faults := by
  cases call with
  | restart faults => exact Or.inr (Or.inr ⟨faults, rfl⟩)
  | perform op writeFails =>
    rcases m.perform_cases host writeFails fun state => decideOn host state op with
      heq | ⟨state, next, answer, bytes, hmemory, hop, hpersist, heq⟩
    · exact Or.inl heq
    · exact Or.inr (Or.inl
        ⟨op, writeFails, state, next, answer, bytes, rfl, hmemory, hop, hpersist, heq⟩)

/-- A failed operation leaves the machine alone. -/
theorem respond_error {m : Machine} {op : Operation} {writeFails : Bool} {e : String}
    (h : (respond host m (.perform op writeFails)).2 = .error e) :
    step host m (.perform op writeFails) = m :=
  Machine.perform_error h

/-- A successful operation decided its answer on the state in memory. -/
theorem respond_ok {m : Machine} {op : Operation} {writeFails : Bool} {answer : Answer}
    (h : (respond host m (.perform op writeFails)).2 = .ok answer) :
    ∃ state next, m.memory = some state ∧ decideOn host state op = .ok (next, answer) :=
  Machine.perform_ok h

theorem active_of_memory {m : Machine} {state : State} {r : Record} (hmemory : m.memory = some state)
    (hr : state.record = some r) : m.active = some r := by
  rw [Machine.active, hmemory]
  exact hr

theorem memory_of_active {m : Machine} {r : Record} (h : m.active = some r) :
    ∃ state, m.memory = some state ∧ state.record = some r :=
  Option.bind_eq_some_iff.mp h

private theorem synced_written {next : State} {writeFails : Bool} {bytes : List UInt8}
    (h : persist host next writeFails = .ok bytes) :
    Machine.Synced host { file := some bytes, memory := some next } := by
  intro r hr
  rw [durable_of_persist h]
  exact hr

theorem synced_step {m : Machine} (h : m.Synced host) (call : Call) :
    (step host m call).Synced host := by
  unfold step
  rcases respond_cases host m call with
    heq | ⟨op, writeFails, state, next, answer, bytes, rfl, _, _, hpersist, heq⟩ | ⟨faults, rfl⟩
  · rw [heq]
    exact h
  · rw [heq]
    exact synced_written hpersist
  · intro r hr
    obtain ⟨hfile, hnone | ⟨r', hactive, hdurable, _⟩⟩ := m.restart_cases host faults
    · exact absurd (hnone.symm.trans hr) (by simp)
    · have heq : r' = r := Option.some.inj (hactive.symm.trans hr)
      show Option.bind (Option.bind (m.restart host faults).1.file _) _ = _
      rw [hfile, ← heq]
      exact hdurable

/-- A service that has not opened its file. -/
def Machine.off (file : Option (List UInt8)) : Machine := ⟨file, none⟩

/-- A service that opens its file holds the state of the file. -/
theorem step_opened {file : Option (List UInt8)} {faults : OpenFaults} {state : State}
    (h : openStore host file faults = .ok state) :
    step host (Machine.off file) (.restart faults) = ⟨file, some state⟩ := by
  show (Machine.restart host (Machine.off file) faults).1 = _
  simp only [Machine.restart, Machine.off, h]

theorem synced_off (file : Option (List UInt8)) : (Machine.off file).Synced host := by
  intro r hr
  exact absurd hr (by simp [Machine.active, Machine.off])

theorem synced_run (file : Option (List UInt8)) (calls : List Call) :
    (Machine.run (step host) (Machine.off file) calls).Synced host :=
  Machine.run_invariant (I := fun m : Machine => m.Synced host) (P := fun _ _ => True)
    (fun _ call h _ => synced_step h call) (synced_off file)
    (Machine.Throughout.of_forall (fun _ _ => trivial) _ calls)

end Machines

end FleetMachinePolicy
