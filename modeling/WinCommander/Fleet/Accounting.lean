import Mathlib
import WinCommander.Fleet.Cycle

/-!
# Dead-man accounting of check-in cycles

A real cycle is counted once, as a miss or as an all-clear, and a decoy is not counted at all.
The exits for a failed enrolment and a failed exchange count without asking which of the two the
cycle is, and the exit for a request that could not be authenticated counts neither.
-/

namespace FleetAgent

open Outcome

variable {Key : Type} (platform : Platform Key) (config : FleetConfig Key)

/-- A cycle leaves the dead-man clock and the nonces and makes no platform call. -/
structure Inert (s : FleetClientState) (r : CycleResult) : Prop where
  deadManMisses : r.state.deadManMisses = s.deadManMisses
  seenNonces : r.state.seenNonces = s.seenNonces
  lastCheckinAt : r.state.lastCheckinAt = s.lastCheckinAt
  calls : r.calls = []

/-- A cycle resets the misses or counts one more. -/
def CountedOnce (s : FleetClientState) (r : CycleResult) : Prop :=
  r.state.deadManMisses = 0 ∨ r.state.deadManMisses.toNat = s.deadManMisses.toNat + 1

/-- A decoy is inert and a real cycle counts once. -/
structure AccountsOnce (s : FleetClientState) (i : CycleInput) : Prop where
  decoy : i.decoy = true → Inert s (runCheckinCycleInner platform config s i)
  real : i.decoy = false → CountedOnce s (runCheckinCycleInner platform config s i)

/-- The device is enrolled, now or before, and its request could be authenticated. -/
def Authenticates (s : FleetClientState) (i : CycleInput) : Prop :=
  ∃ id t code, enroll platform s i.enrollReply = .ok (id, t) ∧
    i.authenticate (t.checkinSecret.getD config.checkinSecret) = .ok code

/-- A decoy meets neither a failed enrolment nor a failed exchange; a real cycle of an enrolled
device can authenticate its request, or has no misses to count from. -/
def ExitsCounted (s : FleetClientState) (i : CycleInput) : Prop :=
  if i.decoy then
    (enroll platform s i.enrollReply).toBool = true ∧
      (Authenticates platform config s i → i.checkinReply.toBool = true)
  else
    ((enroll platform s i.enrollReply).toBool = true → Authenticates platform config s i) ∨
      s.deadManMisses = 0

variable {platform config} {s t : FleetClientState} {i : CycleInput}

/-- Enrolment does not touch the dead-man clock. -/
theorem enroll_clock {reply : Except String EnrollResponse} {id : String}
    (h : enroll platform s reply = .ok (id, t)) :
    t.deadManMisses = s.deadManMisses ∧ t.lastCheckinAt = s.lastCheckinAt := by
  cases hid : s.deviceId with
  | some known =>
    rw [enroll_enrolled hid] at h
    cases h
    exact ⟨rfl, rfl⟩
  | none =>
    rw [enroll, hid] at h
    simp only [bind_ok, pure_ok] at h
    obtain ⟨resp, _, _, _, _, _, _, _, _, _, heq⟩ := h
    cases heq
    exact ⟨rfl, rfl⟩

theorem not_inert_deadManMiss (ok : Bool) (calls : List Call) :
    ¬ Inert s (deadManMiss ok t calls) := by
  intro h
  exact absurd h.calls (by simp [deadManMiss])

/-- One more miss, or none when the counter wraps. -/
private theorem misses_succ (n : UInt32) : n + 1 = 0 ∨ (n + 1).toNat = n.toNat + 1 := by
  by_cases h : n.toNat + 1 < 2 ^ 32
  · right
    rw [UInt32.toNat_add]
    exact Nat.mod_eq_of_lt h
  · left
    have hbound := n.toNat_lt
    apply UInt32.toNat_inj.mp
    rw [UInt32.toNat_add]
    simp only [UInt32.toNat_one, UInt32.toNat_zero]
    omega

theorem countedOnce_deadManMiss (h : t.deadManMisses = s.deadManMisses) (ok : Bool)
    (calls : List Call) : CountedOnce s (deadManMiss ok t calls) := by
  have hstate : (deadManMiss ok t calls).state.deadManMisses = s.deadManMisses + 1 := by
    rw [← h]
    rfl
  rw [CountedOnce, hstate]
  exact misses_succ s.deadManMisses

theorem countedOnce_applyResponse (platform : Platform Key) (config : FleetConfig Key)
    (i : CycleInput) (h : t.deadManMisses = s.deadManMisses) (resp : CheckinResponse) :
    CountedOnce s (applyResponse platform config t i resp) := by
  unfold applyResponse
  dsimp only
  split
  · exact Or.inl rfl
  · apply countedOnce_deadManMiss
    exact h

/-- The misses stay as they are only where there are none. -/
theorem countedOnce_same {r : CycleResult} (h : r.state.deadManMisses = s.deadManMisses) :
    CountedOnce s r ↔ s.deadManMisses = 0 := by
  rw [CountedOnce, h]
  constructor
  · intro hcounted
    rcases hcounted with hzero | hsucc
    · exact hzero
    · omega
  · exact Or.inl

/-- Without an identity a cycle counts a miss, a decoy included. -/
theorem run_of_enroll_error {e : String} (h : enroll platform s i.enrollReply = .error e) :
    runCheckinCycleInner platform config s i = deadManMiss false s [] := by
  rw [runCheckinCycleInner, h]

theorem run_of_unauthenticated (config : FleetConfig Key) {id e : String}
    (h : enroll platform s i.enrollReply = .ok (id, t))
    (hauth : i.authenticate (t.checkinSecret.getD config.checkinSecret) = .error e) :
    (runCheckinCycleInner platform config s i).state = t ∧
      (i.decoy = true → (runCheckinCycleInner platform config s i).calls = []) := by
  rw [runCheckinCycleInner, h]
  dsimp only
  rw [hauth]
  refine ⟨rfl, fun hdecoy => ?_⟩
  show (if i.decoy then _ else _) = _
  rw [if_pos hdecoy]

/-- Without an answer a cycle counts a miss, a decoy included. -/
theorem run_of_no_reply {id code e : String} (h : enroll platform s i.enrollReply = .ok (id, t))
    (hauth : i.authenticate (t.checkinSecret.getD config.checkinSecret) = .ok code)
    (hreply : i.checkinReply = .error e) :
    ∃ calls, runCheckinCycleInner platform config s i = deadManMiss false t calls := by
  rw [runCheckinCycleInner, h]
  dsimp only
  rw [hauth, hreply]
  exact ⟨_, rfl⟩

theorem run_of_reply {id code : String} {resp : CheckinResponse}
    (h : enroll platform s i.enrollReply = .ok (id, t))
    (hauth : i.authenticate (t.checkinSecret.getD config.checkinSecret) = .ok code)
    (hreply : i.checkinReply = .ok resp) :
    (i.decoy = true → runCheckinCycleInner platform config s i =
      { ok := true, state := t, calls := [] }) ∧
    (i.decoy = false → (runCheckinCycleInner platform config s i).state =
      (applyResponse platform config t i resp).state) := by
  rw [runCheckinCycleInner, h]
  dsimp only
  rw [hauth, hreply]
  constructor
  · intro hdecoy
    rw [hdecoy]
    rfl
  · intro hreal
    rw [hreal]
    rfl

private theorem authenticates_iff {id : String}
    (h : enroll platform s i.enrollReply = .ok (id, t)) :
    Authenticates platform config s i ↔
      (i.authenticate (t.checkinSecret.getD config.checkinSecret)).toBool = true := by
  constructor
  · rintro ⟨id', t', code, henroll, hauth⟩
    rw [h] at henroll
    cases henroll
    rw [hauth]
    rfl
  · intro hauth
    cases hcode : i.authenticate (t.checkinSecret.getD config.checkinSecret) with
    | error e =>
      rw [hcode] at hauth
      exact absurd hauth (by simp [Except.toBool])
    | ok code => exact ⟨id, t, code, h, hcode⟩

private theorem inert_of_enroll {id : String} {r : CycleResult}
    (h : enroll platform s i.enrollReply = .ok (id, t)) (hstate : r.state = t)
    (hcalls : r.calls = []) : Inert s r where
  deadManMisses := by rw [hstate, (enroll_clock h).1]
  seenNonces := by rw [hstate, (enroll_ok h).2]
  lastCheckinAt := by rw [hstate, (enroll_clock h).2]
  calls := hcalls

/-- A decoy is inert exactly when it enrols, if needed, and gets an answer. -/
private theorem inert_iff (hdecoy : i.decoy = true) :
    Inert s (runCheckinCycleInner platform config s i) ↔
      (enroll platform s i.enrollReply).toBool = true ∧
        (Authenticates platform config s i → i.checkinReply.toBool = true) := by
  cases henroll : enroll platform s i.enrollReply with
  | error e =>
    rw [run_of_enroll_error henroll]
    exact iff_of_false (not_inert_deadManMiss false []) (fun h => absurd h.1 (by simp [Except.toBool]))
  | ok result =>
    obtain ⟨id, t⟩ := result
    rw [authenticates_iff henroll]
    cases hauth : i.authenticate (t.checkinSecret.getD config.checkinSecret) with
    | error e =>
      have hrun := run_of_unauthenticated config henroll hauth
      exact iff_of_true (inert_of_enroll henroll hrun.1 (hrun.2 hdecoy))
        ⟨rfl, fun h => absurd h (by simp [Except.toBool])⟩
    | ok code =>
      cases hreply : i.checkinReply with
      | error e =>
        obtain ⟨calls, hrun⟩ := run_of_no_reply henroll hauth hreply
        rw [hrun]
        exact iff_of_false (not_inert_deadManMiss false calls)
          (fun h => absurd (h.2 rfl) (by simp [Except.toBool]))
      | ok resp =>
        rw [(run_of_reply henroll hauth hreply).1 hdecoy]
        exact iff_of_true (inert_of_enroll henroll rfl rfl) ⟨rfl, fun _ => rfl⟩

/-- A real cycle counts exactly once unless its request could not be authenticated. -/
private theorem countedOnce_iff (hreal : i.decoy = false) :
    CountedOnce s (runCheckinCycleInner platform config s i) ↔
      ((enroll platform s i.enrollReply).toBool = true → Authenticates platform config s i) ∨
        s.deadManMisses = 0 := by
  cases henroll : enroll platform s i.enrollReply with
  | error e =>
    rw [run_of_enroll_error henroll]
    exact iff_of_true (countedOnce_deadManMiss rfl false [])
      (Or.inl fun h => absurd h (by simp [Except.toBool]))
  | ok result =>
    obtain ⟨id, t⟩ := result
    have hmisses := (enroll_clock henroll).1
    rw [authenticates_iff henroll]
    cases hauth : i.authenticate (t.checkinSecret.getD config.checkinSecret) with
    | error e =>
      have hstate := (run_of_unauthenticated config henroll hauth).1
      rw [countedOnce_same (by rw [hstate, hmisses])]
      simp [Except.toBool]
    | ok code =>
      have hcondition : (Except.ok (ε := String) (id, t)).toBool = true →
          (Except.ok (ε := String) code).toBool = true := fun _ => rfl
      cases hreply : i.checkinReply with
      | error e =>
        obtain ⟨calls, hrun⟩ := run_of_no_reply henroll hauth hreply
        rw [hrun]
        exact iff_of_true (countedOnce_deadManMiss hmisses false calls) (Or.inl hcondition)
      | ok resp =>
        have hstate := (run_of_reply henroll hauth hreply).2 hreal
        have hcounted := countedOnce_applyResponse platform config i hmisses resp
        rw [CountedOnce, ← hstate] at hcounted
        exact iff_of_true hcounted (Or.inl hcondition)

variable (platform config)

/-- A cycle accounts as it should exactly when it takes none of the three exits that forget to
ask what they are counting. -/
theorem accountsOnce_iff (s : FleetClientState) (i : CycleInput) :
    AccountsOnce platform config s i ↔ ExitsCounted platform config s i := by
  cases hdecoy : i.decoy with
  | true =>
    rw [ExitsCounted, if_pos hdecoy, ← inert_iff hdecoy]
    exact ⟨fun h => h.decoy hdecoy, fun h => ⟨fun _ => h, fun hreal => absurd hreal (by simp [hdecoy])⟩⟩
  | false =>
    rw [ExitsCounted, if_neg (by simp [hdecoy]), ← countedOnce_iff hdecoy]
    exact ⟨fun h => h.real hdecoy, fun h => ⟨fun htrue => absurd htrue (by simp [hdecoy]), fun _ => h⟩⟩

section UnreachableServer

open FleetProto

private def anyPlatform : Platform (List UInt8) where
  crypto := (⟨[], []⟩ : Recording).crypto
  readPolicy _ := .error "missing field"

private def anyConfig : FleetConfig (List UInt8) where
  cmdPubkey := Recorded.operatorKey
  maxCmdSkewSecs := 300
  checkinSecret := [1, 2, 3, 4]

private def enrolled : FleetClientState where
  deviceId := some "device-1"
  pinnedPubkeyB64 := none
  pinnedServerKeyB64 := none
  checkinSecret := none
  seenNonces _ := none
  deadManMisses := 0
  lastCheckinAt := none

private def decoyWithoutAnswer : CycleInput where
  now := 1000
  decoy := true
  enrollReply := .error "unused"
  authenticate _ := .ok "code"
  checkinReply := .error "connection refused"
  stamp _ := ""
  nowRfc3339 := ""

/-- A decoy that the server does not answer counts as a miss of the real device. -/
theorem decoy_counts_a_miss :
    ¬ AccountsOnce anyPlatform anyConfig enrolled decoyWithoutAnswer := by
  intro h
  have hmisses := (h.decoy rfl).deadManMisses
  exact absurd hmisses (by decide)

end UnreachableServer

end FleetAgent
