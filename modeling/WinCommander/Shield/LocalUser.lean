import Mathlib
import WinCommander.Library.JsonText
import WinCommander.Shield.Runs

/-!
# A local user and the launches of others

A stop asks whose launch it stops, and a reservation asks nothing.  A local user supersedes any
current launch by reserving one.
-/

namespace ShieldJournal

open Outcome

variable (codec : Codec State) (sid : String) (sessionId : UInt32)

/-- What the user of a session may ask for. -/
inductive LocalOperation where
  | reserveLaunch
  | recordLocalStop

def LocalOperation.operation : LocalOperation → Operation
  | .reserveLaunch => .reserveLaunch sid sessionId false
  | .recordLocalStop => .recordLocalStop sid sessionId

/-- The calls of one session, each with what its write does. -/
def localCalls (ops : List (LocalOperation × WriteOutcome)) : List Call :=
  ops.map fun op => .operate (op.1.operation sid sessionId) op.2

/-- The launch is the fleet's or that of another session. -/
def LaunchReceipt.Foreign (receipt : LaunchReceipt) : Prop :=
  receipt.fleetOwned = true ∨ receipt.identity.sid ≠ sid ∨ receipt.identity.sessionId ≠ sessionId

/-- Whether a foreign launch is current is the same before and after the calls. -/
def Undisturbed (journal : Journal) (calls : List Call) : Prop :=
  ∀ receipt : LaunchReceipt, receipt.Foreign sid sessionId →
    (Machine.run (step codec) journal calls).launchStillCurrent receipt =
      journal.launchStillCurrent receipt

/-- An operation that passes its checks finds no current foreign launch, and its write succeeds. -/
def Harmless (journal : Journal) : Call → Prop
  | .operate op write => (journal.prepare codec op).toBool = true →
      write = .written ∧ ∀ receipt : LaunchReceipt, receipt.Foreign sid sessionId →
        journal.launchStillCurrent receipt ≠ .ok true
  | .reopen _ => True

variable {codec sid sessionId} {state next : State} {receipt : LaunchReceipt} {answer : Answer}
  {journal : Journal} {calls : List Call}

/-- No local operation records a launch. -/
theorem launch_of_apply {op : LocalOperation}
    (h : (op.operation sid sessionId).apply state = .ok (answer, next)) :
    next.launch = state.launch := by
  cases op with
  | reserveLaunch =>
    simp only [LocalOperation.operation, Operation.apply, State.reserveLaunch, bind_ok, pure_ok,
      Prod.mk.injEq] at h
    obtain ⟨_, _, _, rfl⟩ := h
    rfl
  | recordLocalStop =>
    simp only [LocalOperation.operation, Operation.apply, State.recordLocalStop, bind_ok, pure_ok,
      Prod.mk.injEq] at h
    obtain ⟨_, _, _, _, _, _, _, rfl⟩ := h
    rfl

theorem launchStillCurrent_of_state (h : journal.state = some state) :
    journal.launchStillCurrent receipt = .ok (state.launchStillCurrent receipt) := by
  rw [Journal.launchStillCurrent, h]
  rfl

private theorem launchStillCurrent_open (file : Option (List UInt8)) (state : State)
    (receipt : LaunchReceipt) : (⟨file, some state⟩ : Journal).launchStillCurrent receipt =
      .ok (state.launchStillCurrent receipt) := rfl

private theorem state_after_open {bytes : List UInt8} (h : state.accepted = true)
    (hbytes : codec.toVec state = some bytes) :
    (after codec (some bytes) [.reopen ⟨false, false⟩]).state = some state := by
  show (openJournal codec (some bytes) ⟨false, false⟩).toOption = some state
  rw [openJournal_of_accepted h hbytes]
  rfl

/-- A local operation that is written supersedes every launch. -/
theorem lost_of_prepare (htrusted : journal.Trusted codec) {op : LocalOperation}
    {bytes : List UInt8}
    (h : journal.prepare codec (op.operation sid sessionId) = .ok ((answer, next), bytes)) :
    next.launchStillCurrent receipt = false := by
  simp only [Journal.prepare, bind_ok, okOr_ok, pure_ok, Prod.mk.injEq] at h
  obtain ⟨_, hargs, state, hstate, result, hresult, _, _, rfl, _⟩ := h
  have hmove := (move_of_apply hargs hresult).1
  exact hmove.lost_of_launch_eq (launch_of_apply hresult) (htrusted state hstate).1

/-- A launch in the file that is superseded is not current after any run. -/
private theorem not_current_run (htrusted : journal.Trusted codec)
    (hstate : journal.state = some state) (hissued : receipt.sequence ≤ state.sequence)
    (hlost : state.launchStillCurrent receipt = false) (calls : List Call) :
    (Machine.run (step codec) journal calls).launchStillCurrent receipt ≠ .ok true := by
  intro hcurrent
  obtain ⟨state', hstate', hcurrent⟩ := launchStillCurrent_ok hcurrent
  have hnever := (follows_run htrusted hstate hstate').superseded receipt hissued hlost
  rw [hnever] at hcurrent
  exact absurd hcurrent (by simp)

private theorem localCalls_operate (ops : List (LocalOperation × WriteOutcome)) :
    ∀ call ∈ localCalls sid sessionId ops, ∃ op write, call = .operate op write := by
  intro call hcall
  obtain ⟨op, _, rfl⟩ := List.mem_map.mp hcall
  exact ⟨_, _, rfl⟩

/-- Some launch is foreign to every session. -/
private def fleetReceipt : LaunchReceipt := ⟨⟨"", 0, 0, 0⟩, true, 0⟩

private theorem not_undisturbed_of_state_none (hstate : journal.state = some state)
    (hnone : (Machine.run (step codec) journal calls).state = none) :
    ¬ Undisturbed codec sid sessionId journal calls := by
  intro h
  have hvalue := h fleetReceipt (Or.inl rfl)
  rw [launchStillCurrent_of_state hstate, Journal.launchStillCurrent, hnone] at hvalue
  exact absurd hvalue (by simp [okOr, Except.map])

/-- A written operation is undisturbing exactly when no foreign launch is current before it. -/
private theorem undisturbed_written (htrusted : journal.Trusted codec) {op : LocalOperation}
    {bytes : List UInt8}
    (hprepare : journal.prepare codec (op.operation sid sessionId) = .ok ((answer, next), bytes))
    (hstep : step codec journal (.operate (op.operation sid sessionId) .written) =
      ⟨some bytes, some next⟩) :
    Undisturbed codec sid sessionId journal (.operate (op.operation sid sessionId) .written :: calls) ↔
      (∀ receipt : LaunchReceipt, receipt.Foreign sid sessionId →
        journal.launchStillCurrent receipt ≠ .ok true) ∧
      Undisturbed codec sid sessionId ⟨some bytes, some next⟩ calls := by
  obtain ⟨state, hstate, hmove, _, _⟩ := prepare_ok hprepare
  have htrusted' := trusted_step htrusted (.operate (op.operation sid sessionId) .written)
  rw [hstep] at htrusted'
  have hlost : ∀ receipt : LaunchReceipt, next.launchStillCurrent receipt = false :=
    fun receipt => lost_of_prepare htrusted hprepare
  unfold Undisturbed
  rw [Machine.run_cons, hstep]
  constructor
  · intro h
    have hnone : ∀ receipt : LaunchReceipt, receipt.Foreign sid sessionId →
        journal.launchStillCurrent receipt ≠ .ok true := by
      intro receipt hforeign hcurrent
      have hvalue := h receipt hforeign
      rw [hcurrent] at hvalue
      obtain ⟨known, hknown, hcurrent⟩ := launchStillCurrent_ok hcurrent
      rw [hstate] at hknown
      cases hknown
      have hlaunch := ((launchStillCurrent_iff state receipt).mp hcurrent).1
      have hissued := (((accepted_iff state).mp (htrusted state hstate).1).1 receipt hlaunch).2.2
      exact not_current_run htrusted' rfl (le_trans hissued (le_of_lt hmove.sequence_lt))
        (hlost receipt) calls hvalue
    refine ⟨hnone, fun receipt hforeign => ?_⟩
    rw [h receipt hforeign]
    have hbefore := hnone receipt hforeign
    rw [launchStillCurrent_of_state hstate] at hbefore ⊢
    rw [launchStillCurrent_open, hlost receipt]
    cases hvalue : state.launchStillCurrent receipt with
    | true => exact absurd (by rw [hvalue]) hbefore
    | false => rfl
  · intro h receipt hforeign
    rw [h.2 receipt hforeign]
    have hbefore := h.1 receipt hforeign
    rw [launchStillCurrent_of_state hstate] at hbefore ⊢
    rw [launchStillCurrent_open, hlost receipt]
    cases hvalue : state.launchStillCurrent receipt with
    | true => exact absurd (by rw [hvalue]) hbefore
    | false => rfl

private theorem undisturbed_iff_of_trusted (htrusted : journal.Trusted codec)
    (ops : List (LocalOperation × WriteOutcome)) :
    Undisturbed codec sid sessionId journal (localCalls sid sessionId ops) ↔
      Machine.Throughout (step codec) (Harmless codec sid sessionId) journal
        (localCalls sid sessionId ops) := by
  induction ops generalizing journal with
  | nil => exact iff_of_true (fun _ _ => rfl) trivial
  | cons op ops ih =>
    obtain ⟨op, write⟩ := op
    have hcalls : localCalls sid sessionId ((op, write) :: ops) =
        .operate (op.operation sid sessionId) write :: localCalls sid sessionId ops := rfl
    rw [hcalls]
    have ih := ih (trusted_step htrusted (.operate (op.operation sid sessionId) write))
    rcases operate_cases codec journal (op.operation sid sessionId) write with
      ⟨e, hprepare, heq⟩ | ⟨answer, next, bytes, hprepare, ⟨rfl, heq⟩ | ⟨reached, rfl, heq⟩⟩
    · -- A refused operation changes nothing and is harmless.
      have hstep : step codec journal (.operate (op.operation sid sessionId) write) = journal := by
        show (journal.operate codec (op.operation sid sessionId) write).1 = journal
        rw [heq]
      have hharmless : Harmless codec sid sessionId journal
          (.operate (op.operation sid sessionId) write) := by
        intro hpassed
        rw [hprepare] at hpassed
        exact absurd hpassed (by simp [Except.toBool])
      rw [hstep] at ih
      rw [Machine.Throughout, hstep, Undisturbed, Machine.run_cons, hstep]
      exact ih.trans ⟨fun h => ⟨hharmless, h⟩, fun h => h.2⟩
    · have hstep : step codec journal (.operate (op.operation sid sessionId) .written) =
          ⟨some bytes, some next⟩ := by
        show (journal.operate codec (op.operation sid sessionId) .written).1 = _
        rw [heq]
      rw [undisturbed_written htrusted hprepare hstep]
      rw [hstep] at ih
      rw [Machine.Throughout, hstep, ih]
      apply and_congr_left'
      constructor
      · intro h _
        exact ⟨rfl, h⟩
      · intro h
        exact (h (by rw [hprepare]; rfl)).2
    · -- After a failed write there is no answer any more.
      obtain ⟨state, hstate, _⟩ := prepare_ok hprepare
      have hnone : (step codec journal (.operate (op.operation sid sessionId)
          (.failed reached))).state = none := by
        show (journal.operate codec (op.operation sid sessionId) (.failed reached)).1.state = none
        rw [heq]
      refine iff_of_false ?_ ?_
      · exact not_undisturbed_of_state_none hstate
          (state_none_run hnone (localCalls_operate ops))
      · intro h
        have hwritten := (h.1 (by rw [hprepare]; rfl)).1
        exact absurd hwritten (by simp)

variable (codec sid sessionId)

/-- A local user leaves the launches of others alone exactly when none of the operations passes
its checks while such a launch is current, and no write fails. -/
theorem undisturbed_iff (file : Option (List UInt8)) (calls : List Call)
    (ops : List (LocalOperation × WriteOutcome)) :
    Undisturbed codec sid sessionId (after codec file calls) (localCalls sid sessionId ops) ↔
      Machine.Throughout (step codec) (Harmless codec sid sessionId) (after codec file calls)
        (localCalls sid sessionId ops) :=
  undisturbed_iff_of_trusted (trusted_after calls) ops

section Reservation

private def detector : LaunchReceipt := ⟨⟨"S-1-5-21-1", 1, 42, 55⟩, true, 2⟩

/-- The fleet's launch is current. -/
private def launched : State := ⟨2, some detector, none, none⟩

/-- The user of its session has reserved another one. -/
private def reserved : State := ⟨3, some detector, none, some ⟨"S-1-5-21-1", 1, false, 3⟩⟩

/-- A file of that launch, with one digit for its sequence. -/
private def journalBytes (sequence : Char) (pending : String) : List UInt8 :=
  Json.utf8 ("\x7b\"sequence\":".toList ++ sequence ::
    (",\"launch\":\x7b\"identity\":\x7b\"sid\":\"S-1-5-21-1\",\"session_id\":1," ++
      "\"process_id\":42,\"creation_time\":55\x7d,\"fleet_owned\":true,\"sequence\":2\x7d," ++
      "\"stop_sequence\":null,\"pending\":" ++ pending ++ "\x7d").toList)

private def launchedBytes : List UInt8 := journalBytes '2' "null"

private def reservedBytes : List UInt8 :=
  journalBytes '3' "\x7b\"sid\":\"S-1-5-21-1\",\"session_id\":1,\"fleet_owned\":false,\"sequence\":3\x7d"

private theorem reservedBytes_ne : reservedBytes ≠ launchedBytes := by
  intro h
  have htext := List.append_cancel_left (Json.utf8_injective h)
  exact absurd (List.cons.inj htext).1 (by decide)

private def launchedCodec : Codec State :=
  (Codec.ofOne launched launchedBytes).extend reserved reservedBytes
    (Codec.fromSlice_ofOne_of_ne reservedBytes_ne)

private theorem launched_opened : (after launchedCodec (some launchedBytes)
    [.reopen ⟨false, false⟩]).state = some launched := by
  have hbytes : launchedCodec.toVec launched = some launchedBytes := by
    have hne : launched ≠ reserved := by decide
    rw [launchedCodec, Codec.toVec_extend_of_ne hne, Codec.toVec_ofOne]
  exact state_after_open (by decide) hbytes

private theorem reserved_passes {journal : Journal} (h : journal.state = some launched) :
    (journal.prepare launchedCodec (.reserveLaunch "S-1-5-21-1" 1 false)).toBool = true := by
  have hbytes : launchedCodec.toVec reserved = some reservedBytes := Codec.toVec_extend ..
  have hprepare : journal.prepare launchedCodec (.reserveLaunch "S-1-5-21-1" 1 false) =
      .ok ((.sequence 3, reserved), reservedBytes) := by
    apply bind_ok.mpr
    refine ⟨(), by decide, bind_ok.mpr ⟨launched, okOr_ok.mpr h, ?_⟩⟩
    apply bind_ok.mpr
    refine ⟨(.sequence 3, reserved), by decide, bind_ok.mpr ⟨reservedBytes, okOr_ok.mpr hbytes, rfl⟩⟩
  rw [hprepare]
  rfl

/-- A user reserves a launch and so supersedes the launch that the fleet owns. -/
theorem reservation_supersedes_fleet :
    ¬ Undisturbed launchedCodec "S-1-5-21-1" 1
      (after launchedCodec (some launchedBytes) [.reopen ⟨false, false⟩])
      (localCalls "S-1-5-21-1" 1 [(.reserveLaunch, .written)]) := by
  intro h
  have hharmless := ((undisturbed_iff_of_trusted (trusted_after _) _).mp h).1
  have hnone := (hharmless (reserved_passes launched_opened)).2 detector (Or.inl rfl)
  rw [launchStillCurrent_of_state launched_opened] at hnone
  exact hnone (by decide)

end Reservation

end ShieldJournal
