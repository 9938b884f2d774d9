import Mathlib
import WinCommander.Library.MachineInt
import WinCommander.Shield.Journal

/-!
# Runs of the Privacy Shield journal

Every update is one of three moves, each under the next sequence number.  The state in the file
only moves forward, whatever fails, and what a later number superseded is never current again.
-/

namespace ShieldJournal

open Outcome

section Moves

/-- The three things that an update does to the state. -/
inductive Move (state : State) : State → Prop
  | reserve (sid : String) (sessionId : UInt32) (fleetOwned : Bool) (n : UInt64)
      (hn : n.toNat = state.sequence.toNat + 1) (hsid : sid ≠ "") (hsession : sessionId ≠ 0) :
      Move state { state with sequence := n, pending := some ⟨sid, sessionId, fleetOwned, n⟩ }
  | launch (identity : LaunchIdentity) (fleetOwned : Bool) (n : UInt64)
      (hn : n.toNat = state.sequence.toNat + 1) (hvalid : identity.valid = true) :
      Move state
        { state with sequence := n, launch := some ⟨identity, fleetOwned, n⟩, pending := none }
  | stop (n : UInt64) (hn : n.toNat = state.sequence.toNat + 1)
      (howner : state.launch.isSome = true ∨ state.pending.isSome = true) :
      Move state { state with sequence := n, stopSequence := some n }

variable {state next : State} {receipt : LaunchReceipt} {answer : Answer}

theorem nextSequence_ok {n : UInt64} (h : state.nextSequence = .ok n) :
    n.toNat = state.sequence.toNat + 1 := by
  unfold State.nextSequence at h
  split at h
  · next hbound =>
    cases h
    rw [UInt64.toNat_add]
    exact Nat.mod_eq_of_lt hbound
  · exact absurd h (by simp)

private theorem owner_of_localOwner {sid : String} {sessionId : UInt32} {allowed : Bool}
    (h : state.localOwner sid sessionId = .ok allowed) :
    state.launch.isSome = true ∨ state.pending.isSome = true := by
  unfold State.localOwner at h
  split at h
  · next hpending => exact Or.inr (by rw [hpending]; rfl)
  · next hlaunch => exact Or.inl (by rw [hlaunch]; rfl)
  · exact absurd h (by simp)

/-- What an operation does is one of the moves, and it answers with the new number. -/
theorem move_of_apply {op : Operation} (hargs : op.checkArguments = .ok ())
    (h : op.apply state = .ok (answer, next)) :
    Move state next ∧ answer.number = next.sequence := by
  cases op with
  | reserveLaunch sid sessionId fleetOwned =>
    simp only [Operation.apply, State.reserveLaunch, bind_ok, pure_ok, Prod.mk.injEq] at h
    obtain ⟨n, hn, rfl, rfl⟩ := h
    simp only [Operation.checkArguments, refuseIf_ok, not_or] at hargs
    exact ⟨Move.reserve sid sessionId fleetOwned n (nextSequence_ok hn) hargs.1 hargs.2, rfl⟩
  | recordVerifiedLaunch expected identity fleetOwned =>
    simp only [Operation.apply, State.recordVerifiedLaunch, bind_ok, pure_ok, Prod.mk.injEq] at h
    obtain ⟨_, _, _, _, _, _, n, hn, rfl, rfl⟩ := h
    simp only [Operation.checkArguments, refuseIf_ok, Bool.not_eq_false] at hargs
    exact ⟨Move.launch identity fleetOwned n (nextSequence_ok hn) hargs, rfl⟩
  | recordLocalStop sid sessionId =>
    simp only [Operation.apply, State.recordLocalStop, bind_ok, pure_ok, Prod.mk.injEq] at h
    obtain ⟨allowed, howner, _, _, n, hn, rfl, rfl⟩ := h
    exact ⟨Move.stop n (nextSequence_ok hn) (owner_of_localOwner howner), rfl⟩
  | recordVerifiedFleetStop receipt =>
    simp only [Operation.apply, State.recordVerifiedFleetStop, bind_ok, pure_ok, refuseIf_ok,
      not_or, Prod.mk.injEq] at h
    obtain ⟨_, ⟨_, hlaunch, _⟩, n, hn, rfl, rfl⟩ := h
    refine ⟨Move.stop n (nextSequence_ok hn) (Or.inl ?_), rfl⟩
    rw [not_not.mp hlaunch]
    rfl

theorem Move.sequence (h : Move state next) : next.sequence.toNat = state.sequence.toNat + 1 := by
  cases h with
  | reserve _ _ _ _ hn _ _ => exact hn
  | launch _ _ _ hn _ => exact hn
  | stop _ hn _ => exact hn

theorem Move.sequence_lt (h : Move state next) : state.sequence < next.sequence := by
  rw [UInt64.lt_iff_toNat_lt, h.sequence]
  exact Nat.lt_succ_self _

theorem accepted_iff (state : State) : state.accepted = true ↔
    (∀ r ∈ state.launch, r.identity.valid = true ∧ r.sequence ≠ 0 ∧ r.sequence ≤ state.sequence) ∧
    (∀ n ∈ state.stopSequence, n ≠ 0 ∧ n ≤ state.sequence ∧
      (state.launch.isSome = true ∨ state.pending.isSome = true)) ∧
    ∀ p ∈ state.pending,
      p.sid ≠ "" ∧ p.sessionId ≠ 0 ∧ p.sequence ≠ 0 ∧ p.sequence ≤ state.sequence := by
  simp only [State.accepted, LaunchReceipt.acceptedIn, PendingLaunch.acceptedIn, Bool.and_eq_true,
    Option.all_eq_true, decide_eq_true_eq, Bool.or_eq_true, Option.mem_def, and_assoc]

private theorem ne_zero_of_toNat {n : UInt64} {k : ℕ} (h : n.toNat = k + 1) : n ≠ 0 := by
  intro hzero
  rw [hzero] at h
  exact absurd h (by simp)

/-- What a move makes is accepted when the file is read again. -/
theorem Move.accepted (h : Move state next) (hs : state.accepted = true) : next.accepted = true := by
  have hle : state.sequence ≤ next.sequence := le_of_lt h.sequence_lt
  rw [accepted_iff] at hs ⊢
  obtain ⟨hlaunch, hstop, hpending⟩ := hs
  cases h with
  | reserve sid sessionId fleetOwned n hn hsid hsession =>
    refine ⟨?_, ?_, ?_⟩
    · intro r hr
      have hr := hlaunch r hr
      exact ⟨hr.1, hr.2.1, le_trans hr.2.2 hle⟩
    · intro m hm
      have hm := hstop m hm
      exact ⟨hm.1, le_trans hm.2.1 hle, Or.inr rfl⟩
    · intro p hp
      cases hp
      exact ⟨hsid, hsession, ne_zero_of_toNat hn, le_refl n⟩
  | launch identity fleetOwned n hn hvalid =>
    refine ⟨?_, ?_, ?_⟩
    · intro r hr
      cases hr
      exact ⟨hvalid, ne_zero_of_toNat hn, le_refl n⟩
    · intro m hm
      have hm := hstop m hm
      exact ⟨hm.1, le_trans hm.2.1 hle, Or.inl rfl⟩
    · intro p hp
      exact absurd hp (by simp)
  | stop n hn howner =>
    refine ⟨?_, ?_, ?_⟩
    · intro r hr
      have hr := hlaunch r hr
      exact ⟨hr.1, hr.2.1, le_trans hr.2.2 hle⟩
    · intro m hm
      cases hm
      exact ⟨ne_zero_of_toNat hn, le_refl n, howner⟩
    · intro p hp
      have hp := hpending p hp
      exact ⟨hp.1, hp.2.1, hp.2.2.1, le_trans hp.2.2.2 hle⟩

theorem launchStillCurrent_iff (state : State) (receipt : LaunchReceipt) :
    state.launchStillCurrent receipt = true ↔ state.launch = some receipt ∧
      (∀ p ∈ state.pending, p.sequence < receipt.sequence) ∧
      ∀ n ∈ state.stopSequence, n < receipt.sequence := by
  simp only [State.launchStillCurrent, Bool.and_eq_true, decide_eq_true_eq, Option.all_eq_true,
    Option.mem_def, and_assoc]

/-- A later number than that of the receipt keeps it from being current: a new launch is another
one, and a new reservation or stop supersedes it. -/
theorem Move.superseded (h : Move state next) (hissued : receipt.sequence ≤ state.sequence)
    (hlost : state.launchStillCurrent receipt = false) :
    next.launchStillCurrent receipt = false := by
  have hlt : receipt.sequence < next.sequence := lt_of_le_of_lt hissued h.sequence_lt
  rw [← Bool.not_eq_true, launchStillCurrent_iff] at hlost ⊢
  intro hcurrent
  obtain ⟨hlaunch, hpending, hstop⟩ := hcurrent
  cases h with
  | reserve sid sessionId fleetOwned n hn hsid hsession =>
    exact absurd (hpending _ rfl) (lt_asymm hlt)
  | launch identity fleetOwned n hn hvalid =>
    cases hlaunch
    exact absurd hlt (lt_irrefl _)
  | stop n hn howner => exact absurd (hstop _ rfl) (lt_asymm hlt)

/-- A reservation or a stop supersedes whatever was issued before it. -/
theorem Move.lost_of_launch_eq (h : Move state next) (hsame : next.launch = state.launch)
    (haccepted : state.accepted = true) : next.launchStillCurrent receipt = false := by
  rw [← Bool.not_eq_true, launchStillCurrent_iff]
  intro hcurrent
  have hissued : receipt.sequence ≤ state.sequence :=
    (((accepted_iff state).mp haccepted).1 receipt (hsame ▸ hcurrent.1)).2.2
  have hlt : receipt.sequence < next.sequence := lt_of_le_of_lt hissued h.sequence_lt
  obtain ⟨hlaunch, hpending, hstop⟩ := hcurrent
  cases h with
  | reserve sid sessionId fleetOwned n hn hsid hsession =>
    exact absurd (hpending _ rfl) (lt_asymm hlt)
  | launch identity fleetOwned n hn hvalid =>
    cases hlaunch
    exact absurd hlt (lt_irrefl _)
  | stop n hn howner => exact absurd (hstop _ rfl) (lt_asymm hlt)

/-- One state is another at a later time. -/
structure Follows (state next : State) : Prop where
  sequence : state.sequence ≤ next.sequence
  superseded : ∀ receipt : LaunchReceipt, receipt.sequence ≤ state.sequence →
    state.launchStillCurrent receipt = false → next.launchStillCurrent receipt = false

theorem Follows.refl (state : State) : Follows state state := ⟨le_refl _, fun _ _ h => h⟩

theorem Follows.trans {first second third : State} (h : Follows first second)
    (h' : Follows second third) : Follows first third where
  sequence := le_trans h.sequence h'.sequence
  superseded receipt hissued hlost :=
    h'.superseded receipt (le_trans hissued h.sequence) (h.superseded receipt hissued hlost)

theorem Move.follows (h : Move state next) : Follows state next where
  sequence := le_of_lt h.sequence_lt
  superseded _ hissued hlost := h.superseded hissued hlost

end Moves

section Steps

variable {codec : Codec State} {journal : Journal} {op : Operation} {write : WriteOutcome}
  {answer : Answer} {next : State} {bytes : List UInt8}

theorem prepare_ok (h : journal.prepare codec op = .ok ((answer, next), bytes)) :
    ∃ state, journal.state = some state ∧ Move state next ∧ answer.number = next.sequence ∧
      codec.toVec next = some bytes := by
  simp only [Journal.prepare, bind_ok, okOr_ok, pure_ok, Prod.mk.injEq] at h
  obtain ⟨_, hargs, state, hstate, result, hresult, bytes', hbytes, rfl, rfl⟩ := h
  have hmove := move_of_apply hargs hresult
  exact ⟨state, hstate, hmove.1, hmove.2, hbytes⟩

/-- An operation is refused before its write, or its write succeeds, or its write fails. -/
theorem operate_cases (codec : Codec State) (journal : Journal) (op : Operation)
    (write : WriteOutcome) :
    (∃ e, journal.prepare codec op = .error e ∧
      journal.operate codec op write = (journal, .error e)) ∨
    ∃ answer next bytes, journal.prepare codec op = .ok ((answer, next), bytes) ∧
      ((write = .written ∧ journal.operate codec op write = (⟨some bytes, some next⟩, .ok answer)) ∨
        ∃ reached, write = .failed reached ∧ journal.operate codec op write =
          (⟨if reached then some bytes else journal.file, none⟩, .error "journal_unavailable")) := by
  unfold Journal.operate
  cases hprepare : journal.prepare codec op with
  | error e => exact Or.inl ⟨e, rfl, rfl⟩
  | ok result =>
    obtain ⟨⟨answer, next⟩, bytes⟩ := result
    refine Or.inr ⟨answer, next, bytes, rfl, ?_⟩
    cases write with
    | written => exact Or.inl ⟨rfl, rfl⟩
    | failed reached => exact Or.inr ⟨reached, rfl, rfl⟩

theorem operate_ok (h : (journal.operate codec op write).2 = .ok answer) :
    ∃ next bytes, journal.prepare codec op = .ok ((answer, next), bytes) ∧
      (journal.operate codec op write).1 = ⟨some bytes, some next⟩ := by
  rcases operate_cases codec journal op write with
    ⟨e, _, heq⟩ | ⟨answer', next, bytes, hprepare, ⟨_, heq⟩ | ⟨reached, _, heq⟩⟩
  · rw [heq] at h
    exact absurd h (by simp)
  · rw [heq] at h ⊢
    cases h
    exact ⟨next, bytes, hprepare, rfl⟩
  · rw [heq] at h
    exact absurd h (by simp)

/-- The state in memory is the one in the file, and it is accepted. -/
def Journal.Trusted (codec : Codec State) (journal : Journal) : Prop :=
  ∀ state, journal.state = some state →
    state.accepted = true ∧ readState codec journal.file = .ok state

theorem openJournal_ok {file : Option (List UInt8)} {faults : OpenFaults} {state : State}
    (h : openJournal codec file faults = .ok state) :
    state.accepted = true ∧ readState codec file = .ok state := by
  simp only [openJournal, bind_ok, refuseIf_ok, pure_ok, Bool.not_eq_false] at h
  obtain ⟨_, _, _, _, state', hread, _, haccepted, rfl⟩ := h
  exact ⟨haccepted, hread⟩

theorem openJournal_of_accepted {state : State} (h : state.accepted = true)
    (hbytes : codec.toVec state = some bytes) :
    openJournal codec (some bytes) ⟨false, false⟩ = .ok state := by
  simp only [openJournal, bind_ok, refuseIf_ok, pure_ok, Bool.not_eq_false]
  refine ⟨(), by simp, (), by simp, state, ?_, (), h, rfl⟩
  exact okOr_ok.mpr (codec.fromSlice_toVec hbytes)

private theorem readState_written (hbytes : codec.toVec next = some bytes) :
    readState codec (some bytes) = .ok next := okOr_ok.mpr (codec.fromSlice_toVec hbytes)

theorem trusted_step (h : journal.Trusted codec) (call : Call) :
    (step codec journal call).Trusted codec := by
  intro state' hstate'
  cases call with
  | reopen faults =>
    change (openJournal codec journal.file faults).toOption = some state' at hstate'
    cases hopen : openJournal codec journal.file faults with
    | error e =>
      rw [hopen] at hstate'
      exact absurd hstate' (by simp [Except.toOption])
    | ok state =>
      rw [hopen] at hstate'
      cases hstate'
      exact openJournal_ok hopen
  | operate op write =>
    change (journal.operate codec op write).1.state = some state' at hstate'
    show _ ∧ readState codec (journal.operate codec op write).1.file = _
    rcases operate_cases codec journal op write with
      ⟨e, _, heq⟩ | ⟨answer, next, bytes, hprepare, ⟨_, heq⟩ | ⟨reached, _, heq⟩⟩
    · rw [heq] at hstate' ⊢
      exact h state' hstate'
    · rw [heq] at hstate' ⊢
      cases hstate'
      obtain ⟨state, hstate, hmove, _, hbytes⟩ := prepare_ok hprepare
      exact ⟨hmove.accepted (h state hstate).1, readState_written hbytes⟩
    · rw [heq] at hstate'
      exact absurd hstate' (by simp)

/-- What the file stands for only moves forward. -/
def Evolves (codec : Codec State) (journal journal' : Journal) : Prop :=
  ∀ state, readState codec journal.file = .ok state →
    ∃ state', readState codec journal'.file = .ok state' ∧ Follows state state'

theorem evolves_step (h : journal.Trusted codec) (call : Call) :
    Evolves codec journal (step codec journal call) := by
  intro state hread
  cases call with
  | reopen faults => exact ⟨state, hread, Follows.refl state⟩
  | operate op write =>
    show ∃ state', readState codec (journal.operate codec op write).1.file = .ok state' ∧ _
    rcases operate_cases codec journal op write with
      ⟨e, _, heq⟩ | ⟨answer, next, bytes, hprepare, hwrite⟩
    · rw [heq]
      exact ⟨state, hread, Follows.refl state⟩
    · obtain ⟨known, hknown, hmove, _, hbytes⟩ := prepare_ok hprepare
      have hsame : known = state := by
        have hfile := (h known hknown).2
        rw [hread] at hfile
        cases hfile
        rfl
      subst hsame
      rcases hwrite with ⟨_, heq⟩ | ⟨reached, _, heq⟩
      · rw [heq]
        exact ⟨next, readState_written hbytes, hmove.follows⟩
      · rw [heq]
        cases reached with
        | true => exact ⟨next, readState_written hbytes, hmove.follows⟩
        | false => exact ⟨known, hread, Follows.refl known⟩

/-- Until it is opened again, a journal without a state stays without one. -/
theorem state_none_step (h : journal.state = none) (op : Operation) (write : WriteOutcome) :
    (step codec journal (.operate op write)).state = none := by
  show (journal.operate codec op write).1.state = none
  rcases operate_cases codec journal op write with
    ⟨e, _, heq⟩ | ⟨answer, next, bytes, hprepare, _⟩
  · rw [heq]
    exact h
  · obtain ⟨state, hstate, _⟩ := prepare_ok hprepare
    rw [h] at hstate
    exact absurd hstate (by simp)

theorem operate_of_state_none (h : journal.state = none) (op : Operation) (write : WriteOutcome) :
    ∃ e, (journal.operate codec op write).2 = .error e := by
  rcases operate_cases codec journal op write with
    ⟨e, _, heq⟩ | ⟨answer, next, bytes, hprepare, _⟩
  · exact ⟨e, by rw [heq]⟩
  · obtain ⟨state, hstate, _⟩ := prepare_ok hprepare
    rw [h] at hstate
    exact absurd hstate (by simp)

end Steps

section Runs

variable (codec : Codec State) (file : Option (List UInt8))

/-- The journal after some calls of a process that found `file`. -/
def after (calls : List Call) : Journal := Machine.run (step codec) (closed file) calls

/-- No answer is given, by an operation or by a query. -/
structure Silent (journal : Journal) : Prop where
  operate : ∀ op write, ∃ e, (journal.operate codec op write).2 = .error e
  sequence : journal.sequence = .error "journal_unavailable"
  current : ∀ receipt, journal.launchStillCurrent receipt = .error "journal_unavailable"

/-- Over a run the journal moves forward, accepts what it wrote, and is silent after a failure. -/
structure SelfConsistent (calls : List Call) : Prop where
  increases : ∀ xs op write ys answer, calls = xs ++ .operate op write :: ys →
    ((after codec file xs).operate codec op write).2 = .ok answer →
      ∃ state next, (after codec file xs).state = some state ∧
        (after codec file (xs ++ [.operate op write])).state = some next ∧
        state.sequence < next.sequence ∧ answer.number = next.sequence
  ordered : ∀ xs op write ys op' write' zs answer answer',
    calls = xs ++ .operate op write :: (ys ++ .operate op' write' :: zs) →
      ((after codec file xs).operate codec op write).2 = .ok answer →
        ((after codec file (xs ++ .operate op write :: ys)).operate codec op' write').2 = .ok answer' →
          answer.number < answer'.number
  superseded : ∀ xs ys zs ws receipt, calls = xs ++ ys ++ zs ++ ws →
    (after codec file xs).launchStillCurrent receipt = .ok true →
      (after codec file (xs ++ ys)).launchStillCurrent receipt = .ok false →
        (after codec file (xs ++ ys ++ zs)).launchStillCurrent receipt ≠ .ok true
  accepted : ∀ xs op write ys answer next bytes, calls = xs ++ .operate op write :: ys →
    (after codec file xs).prepare codec op = .ok ((answer, next), bytes) →
      openJournal codec (some bytes) ⟨false, false⟩ = .ok next
  silent : ∀ xs op reached ys zs result, calls = xs ++ .operate op (.failed reached) :: (ys ++ zs) →
    (after codec file xs).prepare codec op = .ok result →
      (∀ call ∈ ys, ∃ op write, call = .operate op write) →
        Silent codec (after codec file (xs ++ .operate op (.failed reached) :: ys))

variable {codec file}

theorem after_append (xs ys : List Call) :
    after codec file (xs ++ ys) = Machine.run (step codec) (after codec file xs) ys :=
  Machine.run_append _ xs ys

theorem evolves_run {journal : Journal} (h : journal.Trusted codec) (calls : List Call) :
    Evolves codec journal (Machine.run (step codec) journal calls) := by
  refine Machine.run_relates (I := fun journal : Journal => journal.Trusted codec)
    (P := fun _ _ => True) (R := Evolves codec) ?_ ?_ (fun _ call h _ => trusted_step h call)
    (fun _ call h _ => evolves_step h call) h (Machine.Throughout.of_forall (fun _ _ => trivial) _ _)
  · intro journal state hread
    exact ⟨state, hread, Follows.refl state⟩
  · intro first second third h h' state hread
    obtain ⟨state', hread', hfollows⟩ := h state hread
    obtain ⟨state'', hread'', hfollows'⟩ := h' state' hread'
    exact ⟨state'', hread'', hfollows.trans hfollows'⟩

theorem trusted_run {journal : Journal} (h : journal.Trusted codec) (calls : List Call) :
    (Machine.run (step codec) journal calls).Trusted codec :=
  Machine.run_invariant (I := fun journal : Journal => journal.Trusted codec)
    (P := fun _ _ => True) (fun _ call h _ => trusted_step h call) h
    (Machine.Throughout.of_forall (fun _ _ => trivial) _ _)

theorem trusted_after (calls : List Call) : (after codec file calls).Trusted codec :=
  trusted_run (fun state h => absurd h (by simp [closed])) calls

/-- The states in memory at the two ends of a run follow one another. -/
theorem follows_run {journal : Journal} (h : journal.Trusted codec) {calls : List Call}
    {state state' : State} (hstate : journal.state = some state)
    (hstate' : (Machine.run (step codec) journal calls).state = some state') :
    Follows state state' := by
  obtain ⟨later, hlater, hfollows⟩ := evolves_run h calls state (h state hstate).2
  have hread := (trusted_run h calls state' hstate').2
  rw [hlater] at hread
  cases hread
  exact hfollows

theorem follows_after {xs ys : List Call} {state state' : State}
    (h : (after codec file xs).state = some state)
    (h' : (after codec file (xs ++ ys)).state = some state') : Follows state state' := by
  rw [after_append] at h'
  exact follows_run (trusted_after xs) h h'

theorem launchStillCurrent_ok {journal : Journal} {receipt : LaunchReceipt} {b : Bool}
    (h : journal.launchStillCurrent receipt = .ok b) :
    ∃ state, journal.state = some state ∧ state.launchStillCurrent receipt = b := by
  unfold Journal.launchStillCurrent at h
  cases hstate : journal.state with
  | none =>
    rw [hstate] at h
    exact absurd h (by simp [Except.map])
  | some state =>
    rw [hstate] at h
    exact ⟨state, rfl, Except.ok.inj h⟩

theorem silent_of_state_none {journal : Journal} (h : journal.state = none) :
    Silent codec journal where
  operate op write := operate_of_state_none h op write
  sequence := by rw [Journal.sequence, h]; rfl
  current receipt := by rw [Journal.launchStillCurrent, h]; rfl

/-- A successful operation moves the state in memory, and answers with the new number. -/
theorem state_after_ok {xs : List Call} {op : Operation} {write : WriteOutcome} {answer : Answer}
    (h : ((after codec file xs).operate codec op write).2 = .ok answer) :
    ∃ state next, (after codec file xs).state = some state ∧
      (after codec file (xs ++ [.operate op write])).state = some next ∧ Move state next ∧
      answer.number = next.sequence := by
  obtain ⟨next, bytes, hprepare, hjournal⟩ := operate_ok h
  obtain ⟨state, hstate, hmove, hanswer, _⟩ := prepare_ok hprepare
  refine ⟨state, next, hstate, ?_, hmove, hanswer⟩
  rw [after_append]
  show ((after codec file xs).operate codec op write).1.state = _
  rw [hjournal]

private theorem ordered_after {xs ys : List Call} {op op' : Operation} {write write' : WriteOutcome}
    {answer answer' : Answer} (h : ((after codec file xs).operate codec op write).2 = .ok answer)
    (h' : ((after codec file (xs ++ .operate op write :: ys)).operate codec op' write').2 =
      .ok answer') : answer.number < answer'.number := by
  obtain ⟨state, next, _, hnext, _, hanswer⟩ := state_after_ok h
  obtain ⟨state', next', hstate', _, hmove', hanswer'⟩ := state_after_ok h'
  rw [show xs ++ Call.operate op write :: ys = xs ++ [.operate op write] ++ ys by simp] at hstate'
  have hle := (follows_after hnext hstate').sequence
  rw [hanswer, hanswer']
  exact lt_of_le_of_lt hle hmove'.sequence_lt

private theorem superseded_after {xs ys zs : List Call} {receipt : LaunchReceipt}
    (hcurrent : (after codec file xs).launchStillCurrent receipt = .ok true)
    (hlost : (after codec file (xs ++ ys)).launchStillCurrent receipt = .ok false) :
    (after codec file (xs ++ ys ++ zs)).launchStillCurrent receipt ≠ .ok true := by
  intro hagain
  obtain ⟨first, hfirst, hcurrent⟩ := launchStillCurrent_ok hcurrent
  obtain ⟨second, hsecond, hlost⟩ := launchStillCurrent_ok hlost
  obtain ⟨third, hthird, hagain⟩ := launchStillCurrent_ok hagain
  have hlaunch := ((launchStillCurrent_iff first receipt).mp hcurrent).1
  have haccepted := (trusted_after xs first hfirst).1
  have hissued := (((accepted_iff first).mp haccepted).1 receipt hlaunch).2.2
  have hle := (follows_after hfirst hsecond).sequence
  have hnever := (follows_after hsecond hthird).superseded receipt (le_trans hissued hle) hlost
  rw [hnever] at hagain
  exact absurd hagain (by simp)

theorem state_none_run {journal : Journal} (h : journal.state = none) {calls : List Call}
    (hcalls : ∀ call ∈ calls, ∃ op write, call = .operate op write) :
    (Machine.run (step codec) journal calls).state = none := by
  induction calls generalizing journal with
  | nil => exact h
  | cons call calls ih =>
    rw [List.forall_mem_cons] at hcalls
    obtain ⟨op, write, rfl⟩ := hcalls.1
    exact ih (state_none_step h op write) hcalls.2

private theorem silent_after {xs ys : List Call} {op : Operation} {reached : Bool}
    {result : (Answer × State) × List UInt8}
    (hprepare : (after codec file xs).prepare codec op = .ok result)
    (hcalls : ∀ call ∈ ys, ∃ op write, call = .operate op write) :
    Silent codec (after codec file (xs ++ .operate op (.failed reached) :: ys)) := by
  apply silent_of_state_none
  rw [after_append, Machine.run_cons]
  apply state_none_run _ hcalls
  show ((after codec file xs).operate codec op (.failed reached)).1.state = none
  unfold Journal.operate
  rw [hprepare]

variable (codec file)

/-- Every run of the journal, from any file and with any failures, is monotone and consistent. -/
theorem selfConsistent (calls : List Call) : SelfConsistent codec file calls where
  increases := by
    intro xs op write ys answer _ hok
    obtain ⟨state, next, hstate, hnext, hmove, hanswer⟩ := state_after_ok hok
    exact ⟨state, next, hstate, hnext, hmove.sequence_lt, hanswer⟩
  ordered := by
    intro xs op write ys op' write' zs answer answer' _ hok hok'
    exact ordered_after hok hok'
  superseded := by
    intro xs ys zs ws receipt _ hcurrent hlost
    exact superseded_after hcurrent hlost
  accepted := by
    intro xs op write ys answer next bytes _ hprepare
    obtain ⟨state, hstate, hmove, _, hbytes⟩ := prepare_ok hprepare
    exact openJournal_of_accepted (hmove.accepted (trusted_after xs state hstate).1) hbytes
  silent := by
    intro xs op reached ys zs result _ hprepare hcalls
    exact silent_after hprepare hcalls

end Runs

end ShieldJournal
