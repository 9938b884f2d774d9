import Mathlib
import WinCommander.Library.Run
import WinCommander.FleetMachine.Run

/-!
# Credential fencing

A candidate credential is prepared at two revisions and committed only at them.  Every operation that
moves a revision moves it forward, and a restart reads back what was written, so that neither a context
nor a connection token outlives its revision.
-/

namespace FleetMachinePolicy

open FleetProto Outcome Json

section Statements

variable {Key : Type} (host : Host Key)

/-- The service that has opened the file and answered the calls. -/
def reached (file : Option (List UInt8)) (calls : List Call) : Machine :=
  Machine.run (step host) (Machine.off file) calls

/-- The two revisions of the record in the file. -/
def Machine.fence (m : Machine) : Option (UInt64 × UInt64) :=
  (m.durable host).map fun r => (r.credentialRevision, r.connectionRevision)

def Prepares (m : Machine) (context : CandidateContext) (call : Call) : Prop :=
  ∃ trust token origins profile origin secret protector writeFails,
    call = .perform (.prepareCandidate trust token origins profile origin secret protector)
      writeFails ∧ (respond host m call).2 = .ok (.prepared (some context))

def Commits (m : Machine) (context : CandidateContext) (call : Call) : Prop :=
  ∃ secret protector writeFails revision,
    call = .perform (.commitCandidate context secret protector) writeFails ∧
      (respond host m call).2 = .ok (.committed revision)

def Clears (m : Machine) (call : Call) : Prop :=
  ∃ token connToken writeFails, call = .perform (.clearCredential token connToken) writeFails ∧
    (respond host m call).2 = .ok (.cleared true)

/-- A re-enrolment or a binding of the origins that succeeds. -/
def Reenables (m : Machine) (call : Call) : Prop :=
  ∃ op writeFails answer, call = .perform op writeFails ∧ op.reenables = true ∧
    (respond host m call).2 = .ok answer

/-- The connection token that an operation has to name. -/
def Operation.connToken : Operation → Option String
  | .observeRuntimeTransport _ _ _ token => some token
  | .prepareCandidate _ token _ _ _ _ _ => some token
  | .startConnection _ _ connToken => some connToken
  | .clearCredential _ connToken => some connToken
  | _ => none

/-- A call that is refused, or that answers a clear without one. -/
def Ineffective (m : Machine) (call : Call) : Prop :=
  step host m call = m ∧
    ∀ answer, (respond host m call).2 = .ok answer → ∃ ok, answer = .cleared ok

/-- Two texts with one digest. -/
def Collision : Prop :=
  ∃ x y, x ≠ y ∧ host.crypto.b64Encode (host.sha256 x) = host.crypto.b64Encode (host.sha256 y)

/-- No late answer of an old connection brings back a credential. -/
structure Fenced (file : Option (List UInt8)) : Prop where
  /-- A context is committed once. -/
  once : ∀ before between context commit commit',
    Commits host (reached host file before) context commit →
      ¬ Commits host (reached host file (before ++ commit :: between)) context commit'
  /-- It is committed only where no call since its preparation has moved a revision. -/
  unmoved : ∀ before between context prepare commit,
    Prepares host (reached host file before) context prepare →
      Commits host (reached host file (before ++ prepare :: between)) context commit →
        Machine.Throughout (step host) (fun m call => (step host m call).fence host = m.fence host)
          (reached host file before) (prepare :: between)
  /-- Once a revision has moved it is never committed again. -/
  contexts : ∀ before between later context prepare commit,
    Prepares host (reached host file before) context prepare →
      (reached host file (before ++ prepare :: between)).fence host ≠
        (reached host file before).fence host →
        ¬ Commits host (reached host file (before ++ prepare :: (between ++ later))) context commit
  /-- A token of an older connection has no effect, at whatever later time. -/
  tokens : ∀ before between later r r',
    (reached host file before).active = some r →
      (reached host file (before ++ between)).active = some r' →
        r'.connectionRevision ≠ r.connectionRevision →
          ∀ op writeFails, op.connToken = some (connectionToken host r) →
            Ineffective host (reached host file (before ++ between ++ later))
              (.perform op writeFails) ∨ Collision host
  /-- A cleared credential stays away until the service is enabled again. -/
  cleared : ∀ before between clear, Clears host (reached host file before) clear →
    Machine.Throughout (step host) (fun m call => ¬ Reenables host m call)
      (reached host file (before ++ [clear])) between →
      ∀ state, (reached host file (before ++ clear :: between)).memory = some state →
        ∀ protector snapshot, credentialSnapshot host protector state ≠ .ok (some snapshot)
  /-- A refused operation leaves the file and the memory alone. -/
  errors : ∀ calls op writeFails e,
    (respond host (reached host file calls) (.perform op writeFails)).2 = .error e →
      step host (reached host file calls) (.perform op writeFails) = reached host file calls

end Statements

section Growth

variable {Key : Type} {host : Host Key} {m m' : Machine} {file : Option (List UInt8)}

/-- The record in the file comes from an earlier one, and its revisions have not gone back. -/
def Machine.Grows (host : Host Key) (m m' : Machine) : Prop :=
  ∀ r', m'.durable host = some r' → ∃ r, m.durable host = some r ∧
    r.credentialRevision.toNat ≤ r'.credentialRevision.toNat ∧
    r.connectionRevision.toNat ≤ r'.connectionRevision.toNat

theorem Machine.Grows.refl (m : Machine) : m.Grows host m :=
  fun r hr => ⟨r, hr, Nat.le_refl _, Nat.le_refl _⟩

theorem Machine.Grows.trans {m m' m'' : Machine} (h : m.Grows host m') (h' : m'.Grows host m'') :
    m.Grows host m'' := by
  intro r'' hr''
  obtain ⟨r', hr', hcredential', hconnection'⟩ := h' r'' hr''
  obtain ⟨r, hr, hcredential, hconnection⟩ := h r' hr'
  exact ⟨r, hr, Nat.le_trans hcredential hcredential', Nat.le_trans hconnection hconnection'⟩

theorem grows_step (h : m.Synced host) (call : Call) : m.Grows host (step host m call) := by
  unfold step
  rcases respond_cases host m call with
    heq | ⟨op, writeFails, state, next, answer, bytes, _, hmemory, hop, hpersist, heq⟩ |
      ⟨faults, rfl⟩
  · rw [heq]
    exact Machine.Grows.refl m
  · rw [heq]
    intro r' hr'
    rw [durable_of_persist hpersist] at hr'
    rcases writes_of_decideOn hop with hsame | ⟨r, r'', hr, hr'', hmove⟩
    · rw [hsame] at hr'
      exact ⟨r', h r' (active_of_memory hmemory hr'), Nat.le_refl _, Nat.le_refl _⟩
    · have hrecord : r'' = r' := Option.some.inj (hr''.symm.trans hr')
      rw [← hrecord]
      exact ⟨r, h r (active_of_memory hmemory hr), hmove.credential, hmove.connection⟩
  · obtain ⟨hfile, _⟩ := m.restart_cases host faults
    intro r' hr'
    have hdurable : m.durable host = some r' := by
      rw [← hr']
      show _ = Option.bind (Option.bind (m.restart host faults).1.file _) _
      rw [hfile]
      rfl
    exact ⟨r', hdurable, Nat.le_refl _, Nat.le_refl _⟩

theorem synced_reached (calls : List Call) : (reached host file calls).Synced host :=
  synced_run file calls

theorem reached_append (before after : List Call) :
    reached host file (before ++ after) =
      Machine.run (step host) (reached host file before) after :=
  Machine.run_append _ before after

theorem reached_cons (before after : List Call) (call : Call) :
    reached host file (before ++ call :: after) =
      Machine.run (step host) (step host (reached host file before) call) after := by
  rw [reached_append]
  rfl

theorem grows_run (h : m.Synced host) (calls : List Call) :
    m.Grows host (Machine.run (step host) m calls) :=
  Machine.run_relates (I := fun m : Machine => m.Synced host) (P := fun _ _ => True)
    (R := fun m m' => m.Grows host m') Machine.Grows.refl Machine.Grows.trans
    (fun _ call hs _ => synced_step hs call) (fun _ call hs _ => grows_step hs call) h
    (Machine.Throughout.of_forall (fun _ _ => trivial) _ calls)

theorem grows_reached (before after : List Call) :
    (reached host file before).Grows host (reached host file (before ++ after)) := by
  rw [reached_append]
  exact grows_run (synced_reached before) after

end Growth

section Contexts

variable {Key : Type} {host : Host Key} {m : Machine} {context : CandidateContext} {call : Call}

theorem step_of_nothing_written {state : State} {op : Operation} {writeFails : Bool}
    {written : Option State} {answer : Answer} (hmemory : m.memory = some state)
    (hop : decideOn host state op = .ok (written, answer)) (hwritten : written = none) :
    step host m (.perform op writeFails) = m := by
  rw [hwritten] at hop
  simp only [step, respond, Machine.perform, hmemory, hop]

theorem step_of_written {state next : State} {op : Operation} {writeFails : Bool}
    {written : Option State} {answer answer' : Answer} (hmemory : m.memory = some state)
    (hop : decideOn host state op = .ok (written, answer)) (hwritten : written = some next)
    (h : (respond host m (.perform op writeFails)).2 = .ok answer') :
    ∃ bytes, persist host next writeFails = .ok bytes ∧
      step host m (.perform op writeFails) = ⟨some bytes, some next⟩ := by
  rw [hwritten] at hop
  simp only [respond, Machine.perform, hmemory, hop] at h
  cases hpersist : persist host next writeFails with
  | error e =>
    simp only [hpersist] at h
    cases h
  | ok bytes =>
    refine ⟨bytes, rfl, ?_⟩
    exact congrArg Prod.fst (Machine.perform_written hmemory hop hpersist)

/-- Preparing leaves the machine alone and takes the revisions of the record. -/
theorem Prepares.sound (h : Prepares host m context call) (hs : m.Synced host) :
    step host m call = m ∧ m.fence host = some (context.revision, context.connectionRevision) := by
  obtain ⟨trust, token, origins, profile, origin, secret, protector, writeFails, rfl, hanswer⟩ := h
  obtain ⟨state, next, hmemory, hop⟩ := respond_ok hanswer
  obtain ⟨found, hprepared, hfound⟩ := map_ok hop
  obtain ⟨hnone, r, hr, _, hrevisions⟩ := prepareCandidate_ok hprepared
  obtain ⟨hcredential, hconnection⟩ := hrevisions context (Answer.prepared.inj hfound).symm
  constructor
  · exact step_of_nothing_written hmemory hop hnone
  · rw [Machine.fence, hs r (active_of_memory hmemory hr), Option.map_some, hcredential, hconnection]

/-- A commit finds the revisions of its context in the file and moves the first of them. -/
theorem Commits.sound (h : Commits host m context call) (hs : m.Synced host) :
    m.fence host = some (context.revision, context.connectionRevision) ∧
      ∃ r', (step host m call).durable host = some r' ∧
        r'.credentialRevision.toNat = context.revision.toNat + 1 := by
  obtain ⟨secret, protector, writeFails, revision, rfl, hanswer⟩ := h
  obtain ⟨state, written, hmemory, hop⟩ := respond_ok hanswer
  obtain ⟨found, hcommitted, _⟩ := map_ok hop
  obtain ⟨r, r', next, hr, hcredential, hconnection, hwritten, hr', hnext, _⟩ :=
    commitCandidate_ok (b := false) hcommitted
  constructor
  · rw [Machine.fence, hs r (active_of_memory hmemory hr), Option.map_some, hcredential, hconnection]
  · refine ⟨r', ?_, by rw [hnext, hcredential]⟩
    obtain ⟨bytes, hpersist, hstep⟩ := step_of_written hmemory hop hwritten hanswer
    rw [hstep, durable_of_persist hpersist]
    exact hr'

/-- A fence that is reached again was in place all the time between. -/
theorem fence_between {m m' m'' : Machine} {fence : UInt64 × UInt64} (h : m.Grows host m')
    (h' : m'.Grows host m'') (hm : m.fence host = some fence) (hm'' : m''.fence host = some fence) :
    m'.fence host = some fence := by
  obtain ⟨r'', hr'', hfence''⟩ := Option.map_eq_some_iff.mp hm''
  obtain ⟨r', hr', hcredential', hconnection'⟩ := h' r'' hr''
  obtain ⟨r, hr, hcredential, hconnection⟩ := h r' hr'
  rw [Machine.fence, hr, Option.map_some, Option.some.injEq] at hm
  rw [← hm, Prod.mk.injEq] at hfence''
  rw [hfence''.1] at hcredential'
  rw [hfence''.2] at hconnection'
  rw [Machine.fence, hr', Option.map_some, ← hm, Option.some.injEq, Prod.mk.injEq]
  exact ⟨UInt64.toNat_inj.mp (Nat.le_antisymm hcredential' hcredential),
    UInt64.toNat_inj.mp (Nat.le_antisymm hconnection' hconnection)⟩

variable {file : Option (List UInt8)} {before between : List Call} {prepare commit : Call}

theorem commits_once {commit' : Call}
    (h : Commits host (reached host file before) context commit) :
    ¬ Commits host (reached host file (before ++ commit :: between)) context commit' := by
  intro h'
  obtain ⟨_, r', hr', hnext⟩ := h.sound (synced_reached before)
  have hfence := (h'.sound (synced_reached _)).1
  obtain ⟨r'', hr'', hrevisions⟩ := Option.map_eq_some_iff.mp hfence
  have hgrows : (step host (reached host file before) commit).Grows host
      (reached host file (before ++ commit :: between)) := by
    rw [reached_cons]
    exact grows_run (synced_step (synced_reached before) commit) between
  obtain ⟨r, hr, hcredential, _⟩ := hgrows r'' hr''
  have hrecord : r = r' := Option.some.inj (hr.symm.trans hr')
  rw [(Prod.mk.inj hrevisions).1, hrecord, hnext] at hcredential
  omega

theorem fence_until_commit {xs ys : List Call}
    (hprepare : Prepares host (reached host file before) context prepare)
    (hcommit : Commits host (reached host file (before ++ (xs ++ ys))) context commit) :
    (reached host file (before ++ xs)).fence host =
      some (context.revision, context.connectionRevision) := by
  have hsound := (hcommit.sound (synced_reached _)).1
  rw [← List.append_assoc] at hsound
  exact fence_between (grows_reached before xs) (grows_reached (before ++ xs) ys)
    (hprepare.sound (synced_reached before)).2 hsound

theorem unmoved_until_commit
    (hprepare : Prepares host (reached host file before) context prepare)
    (hcommit : Commits host (reached host file (before ++ prepare :: between)) context commit) :
    Machine.Throughout (step host) (fun m call => (step host m call).fence host = m.fence host)
      (reached host file before) (prepare :: between) := by
  apply (Machine.throughout_iff _ _).mpr
  intro xs call ys hsplit
  rw [hsplit] at hcommit
  have hbefore := fence_until_commit hprepare hcommit
  have hcall : xs ++ call :: ys = (xs ++ [call]) ++ ys := by simp
  rw [hcall] at hcommit
  have hafter := fence_until_commit hprepare hcommit
  rw [reached_append] at hbefore
  rw [reached_append, Machine.run_append] at hafter
  exact hafter.trans hbefore.symm

end Contexts

section Tokens

variable {Key : Type} {host : Host Key} {m : Machine} {op : Operation} {writeFails : Bool}
  {token : String}

/-- An operation that has an effect names the token of the record in memory. -/
theorem ineffective_or_current (hname : op.connToken = some token) :
    Ineffective host m (.perform op writeFails) ∨
      ∃ r, m.active = some r ∧ connectionToken host r = token := by
  cases hanswer : (respond host m (.perform op writeFails)).2 with
  | error e =>
    refine Or.inl ⟨respond_error hanswer, ?_⟩
    intro answer h
    rw [hanswer] at h
    cases h
  | ok answer =>
    obtain ⟨state, written, hmemory, hop⟩ := respond_ok hanswer
    have hcurrent : (∃ r, state.record = some r ∧ connectionToken host r = token) →
        Ineffective host m (.perform op writeFails) ∨
          ∃ r, m.active = some r ∧ connectionToken host r = token := by
      intro hrecord
      obtain ⟨r, hr, htoken⟩ := hrecord
      exact Or.inr ⟨r, active_of_memory hmemory hr, htoken⟩
    cases op with
    | beginEnrollment => cases hname
    | replaceTrust => cases hname
    | bindOrigins => cases hname
    | install => cases hname
    | commitCandidate => cases hname
    | observeRuntimeTransport expected origins profile named =>
      obtain ⟨r, hr, htoken, _⟩ := observeRuntimeTransport_ok (b := false) (map_ok hop).choose_spec.1
      exact hcurrent ⟨r, hr, htoken.trans (Option.some.inj hname)⟩
    | prepareCandidate trust named origins profile origin secret protector =>
      obtain ⟨_, r, hr, htoken, _⟩ := prepareCandidate_ok (map_ok hop).choose_spec.1
      exact hcurrent ⟨r, hr, htoken.trans (Option.some.inj hname)⟩
    | startConnection expected clearing named =>
      obtain ⟨r, hr, htoken, _⟩ := startConnection_ok (b := false) (map_ok hop).choose_spec.1
      exact hcurrent ⟨r, hr, htoken.trans (Option.some.inj hname)⟩
    | clearCredential clearing named =>
      obtain ⟨found, hcleared, hok⟩ := map_ok hop
      rcases clearCredential_ok (b := false) hcleared with ⟨hnone, _⟩ | ⟨r, _, _, hr, htoken, _⟩
      · refine Or.inl ⟨step_of_nothing_written hmemory hop hnone, ?_⟩
        intro answer' h
        rw [hanswer] at h
        exact ⟨found, (Except.ok.inj h).symm.trans hok⟩
      · exact hcurrent ⟨r, hr, htoken.trans (Option.some.inj hname)⟩

/-- Two records with one token have one connection revision, or their texts collide. -/
theorem connectionToken_eq {r r' : Record} (h : connectionToken host r = connectionToken host r') :
    r.connectionRevision = r'.connectionRevision ∨ Collision host := by
  by_cases hrevision : r.connectionRevision = r'.connectionRevision
  · exact Or.inl hrevision
  · refine Or.inr ⟨_, _, ?_, h⟩
    intro htexts
    have hvalues := Value.array.inj (Value.write_injective (utf8_injective htexts))
    simp only [List.map_cons, List.map_nil, List.cons.injEq, Value.string.injEq] at hvalues
    exact hrevision (UInt64.toNat_inj.mp (Nat.repr_injective hvalues.2.2.2.2.2.1))

variable {file : Option (List UInt8)} {before between later : List Call} {r r' : Record}

theorem token_of_older_connection (hr : (reached host file before).active = some r)
    (hr' : (reached host file (before ++ between)).active = some r')
    (hmoved : r'.connectionRevision ≠ r.connectionRevision)
    (hname : op.connToken = some (connectionToken host r)) :
    Ineffective host (reached host file (before ++ between ++ later)) (.perform op writeFails) ∨
      Collision host := by
  cases @ineffective_or_current Key host (reached host file (before ++ between ++ later)) op
    writeFails _ hname with
  | inl hineffective => exact Or.inl hineffective
  | inr hcurrent =>
    obtain ⟨r'', hr'', htoken⟩ := hcurrent
    refine Or.inr ((connectionToken_eq htoken).resolve_left ?_)
    intro hrevision
    have hdurable := synced_reached before r hr
    have hdurable' := synced_reached (before ++ between) r' hr'
    have hdurable'' := synced_reached (before ++ between ++ later) r'' hr''
    obtain ⟨_, hfound', _, hconnection'⟩ := grows_reached (before ++ between) later r'' hdurable''
    obtain ⟨_, hfound, _, hconnection⟩ := grows_reached before between r' hdurable'
    rw [Option.some.inj (hfound'.symm.trans hdurable')] at hconnection'
    rw [Option.some.inj (hfound.symm.trans hdurable)] at hconnection
    rw [hrevision] at hconnection'
    exact hmoved (UInt64.toNat_inj.mp (Nat.le_antisymm hconnection' hconnection))

end Tokens

section Cleared

variable {Key : Type} {host : Host Key} {m : Machine} {call : Call}

/-- The service of the record in the file is not enabled. -/
def Machine.Disabled (host : Host Key) (m : Machine) : Prop :=
  ∀ r, m.durable host = some r → r.serviceEnabled = false

theorem Clears.disabled (h : Clears host m call) (hs : m.Synced host) :
    (step host m call).Disabled host := by
  obtain ⟨token, connToken, writeFails, rfl, hanswer⟩ := h
  obtain ⟨state, written, hmemory, hop⟩ := respond_ok hanswer
  obtain ⟨found, hcleared, hfound⟩ := map_ok hop
  have htrue : found = true := (Answer.cleared.inj hfound).symm
  intro r hr
  rcases clearCredential_ok (b := false) hcleared with
    ⟨hnone, hdisabled⟩ | ⟨_, r', next, _, _, hwritten, hr', hdisabled, _⟩
  · obtain ⟨r', hr', hservice⟩ := hdisabled htrue
    rw [step_of_nothing_written hmemory hop hnone, hs r' (active_of_memory hmemory hr')] at hr
    rw [← Option.some.inj hr]
    exact hservice
  · obtain ⟨bytes, hpersist, hstep⟩ := step_of_written hmemory hop hwritten hanswer
    rw [hstep, durable_of_persist hpersist, hr'] at hr
    rw [← Option.some.inj hr]
    exact hdisabled

theorem disabled_step (h : m.Synced host ∧ m.Disabled host) (hcall : ¬ Reenables host m call) :
    (step host m call).Synced host ∧ (step host m call).Disabled host := by
  refine ⟨synced_step h.1 call, ?_⟩
  intro r hr
  unfold step at hr
  rcases respond_cases host m call with
    heq | ⟨op, writeFails, state, next, answer, bytes, hop, hmemory, hdecided, hpersist, heq⟩ |
      ⟨faults, rfl⟩
  · rw [heq] at hr
    exact h.2 r hr
  · rw [heq, durable_of_persist hpersist] at hr
    have hkeeps : op.reenables = false := by
      rw [← Bool.not_eq_true]
      intro hreenables
      exact hcall ⟨op, writeFails, answer, hop, hreenables, by rw [heq]⟩
    rcases writes_of_decideOn hdecided with hsame | ⟨r₀, r', hr₀, hr', hmove⟩
    · rw [hsame] at hr
      exact h.2 r (h.1 r (active_of_memory hmemory hr))
    · have hrecord : r' = r := Option.some.inj (hr'.symm.trans hr)
      have hbefore := h.2 r₀ (h.1 r₀ (active_of_memory hmemory hr₀))
      rw [← Bool.not_eq_true, ← hrecord]
      intro henabled
      rw [hmove.enabled hkeeps henabled] at hbefore
      cases hbefore
  · obtain ⟨hfile, _⟩ := m.restart_cases host faults
    apply h.2 r
    rw [← hr]
    show _ = Option.bind (Option.bind (m.restart host faults).1.file _) _
    rw [hfile]
    rfl

theorem no_snapshot_of_disabled {state : State} {protector : Protector}
    {snapshot : CredentialSnapshot} (h : m.Synced host ∧ m.Disabled host)
    (hmemory : m.memory = some state) :
    credentialSnapshot host protector state ≠ .ok (some snapshot) := by
  intro hsnapshot
  unfold credentialSnapshot at hsnapshot
  cases hr : state.record with
  | none =>
    rw [hr] at hsnapshot
    cases hsnapshot
  | some r =>
    have hdisabled := h.2 r (h.1 r (active_of_memory hmemory hr))
    rw [hr] at hsnapshot
    simp only [hdisabled, if_true] at hsnapshot
    cases hsnapshot

end Cleared

end FleetMachinePolicy
