import Mathlib
import WinCommander.Library.History
import WinCommander.Library.Run
import WinCommander.StartupAuth.Sessions

/-!
# The attempts to enter a startup PIN

Wrong attempts in a row are counted, and from the fifth on each of them blocks the attempts that
follow it for a while.
-/

namespace StartupAuth

open Outcome Machine

/-- A second in the nanoseconds of the monotonic clock. -/
def second : ℕ := 10 ^ 9

structure PinAttemptState where
  consecutiveFailures : UInt32
  blockedUntil : Option ℕ
  deriving DecidableEq

def PinAttemptState.default : PinAttemptState := ⟨0, none⟩

def saturatingSucc (n : UInt32) : UInt32 := if n.toNat + 1 = 2 ^ 32 then n else n + 1

def blockSeconds (failures : UInt32) : UInt64 := 1 <<< (min (failures - 5) 4).toUInt64

namespace PinAttemptState

def ensureAllowed (state : PinAttemptState) (now : ℕ) : Except String Unit :=
  refuseIf (state.blockedUntil.any (now < ·) = true) "PIN verification temporarily rate limited"

def recordResult (state : PinAttemptState) (now : ℕ) (verdict : Verdict) : PinAttemptState :=
  if verdict = .wrong then
    let failures := saturatingSucc state.consecutiveFailures
    if 5 ≤ failures then ⟨failures, some (now + (blockSeconds failures).toNat * second)⟩
    else { state with consecutiveFailures := failures }
  else .default

end PinAttemptState

/-- One call under the lock: the clock, the PIN and the stored PINs that it was given. -/
structure Attempt where
  now : ℕ
  pin : String
  pins : StartupPinSettings
  deriving DecidableEq

/-- An attempt and what it came to, nothing if it was not evaluated. -/
structure Evaluation where
  attempt : Attempt
  verdict : Option Verdict
  deriving DecidableEq

/-- The state and what it followed from.  The log is kept for the statements only. -/
structure Limiter where
  state : PinAttemptState
  log : List Evaluation

def Limiter.start : Limiter := ⟨.default, []⟩

section Limited

variable (argon : String → String)

def verifyPinModeLimited (state : PinAttemptState) (attempt : Attempt) :
    Except String Verdict × PinAttemptState :=
  match state.ensureAllowed attempt.now with
  | .error e => (.error e, state)
  | .ok () =>
    let verdict := verifyPinMode argon attempt.pin attempt.pins
    (.ok verdict, state.recordResult attempt.now verdict)

def Limiter.attempt (limiter : Limiter) (attempt : Attempt) : Limiter :=
  let result := verifyPinModeLimited argon limiter.state attempt
  ⟨result.2, limiter.log ++ [⟨attempt, result.1.toOption⟩]⟩

end Limited

section Blocks

def Evaluation.isWrong (e : Evaluation) : Bool := e.verdict = some .wrong

/-- The attempt was evaluated and was not wrong. -/
def Evaluation.resets (e : Evaluation) : Bool := e.verdict.any (· ≠ .wrong)

/-- The wrong attempts since the last one that was evaluated and not wrong. -/
def wrongs (log : List Evaluation) : ℕ :=
  (History.since Evaluation.resets log).countP Evaluation.isWrong

def lastWrong (log : List Evaluation) : Option ℕ :=
  History.latest (fun e => if e.isWrong then some e.attempt.now else none) log

/-- The whole seconds that the wrong attempt of a number blocks: 1, 2, 4, 8 and then 16 for ever. -/
def block (wrongs : ℕ) : ℕ := 2 ^ min (wrongs - 5) 4

/-- The end of the current block. -/
def blockEnd (log : List Evaluation) : Option ℕ :=
  if wrongs log < 5 then none
  else (lastWrong log).map fun last => last + block (wrongs log) * second

variable {argon : String → String} {log : List Evaluation} {e : Evaluation}

theorem wrongs_concat_of_resets (h : e.resets = true) : wrongs (log ++ [e]) = 0 := by
  rw [wrongs, History.since_concat_of_marks h]
  rfl

theorem wrongs_concat (h : e.resets = false) :
    wrongs (log ++ [e]) = wrongs log + if e.isWrong then 1 else 0 := by
  rw [wrongs, History.since_concat h, List.countP_append, wrongs]
  simp [List.countP_cons]

theorem toNat_saturatingSucc (n : UInt32) :
    (saturatingSucc n).toNat = min (n.toNat + 1) (2 ^ 32 - 1) := by
  have hlt := n.toNat_lt
  unfold saturatingSucc
  split
  · omega
  · rw [UInt32.toNat_add, Nat.mod_eq_of_lt]
    · have hone : (1 : UInt32).toNat = 1 := rfl
      omega
    · have hone : (1 : UInt32).toNat = 1 := rfl
      omega

/-- The shift and the difference of the code are exact. -/
theorem toNat_blockSeconds {failures : UInt32} (h : 5 ≤ failures) :
    (blockSeconds failures).toNat = block failures.toNat := by
  have hfive : (5 : UInt32).toNat = 5 := rfl
  have hle : 5 ≤ failures.toNat := UInt32.le_iff_toNat_le.mp h
  have hsub : (failures - 5).toNat = failures.toNat - 5 := UInt32.toNat_sub_of_le _ _ h
  have hmin : (min (failures - 5) 4).toNat = min (failures.toNat - 5) 4 := by
    have hfour : (4 : UInt32).toNat = 4 := rfl
    rw [← hsub]
    show (if failures - 5 ≤ 4 then failures - 5 else 4).toNat = _
    by_cases hcase : failures - 5 ≤ 4
    · have hnat := UInt32.le_iff_toNat_le.mp hcase
      rw [if_pos hcase]
      omega
    · have hnat : ¬ (failures - 5).toNat ≤ 4 := fun hn => hcase (UInt32.le_iff_toNat_le.mpr hn)
      rw [if_neg hcase]
      omega
  unfold blockSeconds block
  rw [UInt64.toNat_shiftLeft, UInt32.toNat_toUInt64, hmin]
  have hsmall : min (failures.toNat - 5) 4 ≤ 4 := Nat.min_le_right _ _
  generalize min (failures.toNat - 5) 4 = exponent at hsmall
  interval_cases exponent <;> rfl

end Blocks

section Runs

variable {argon : String → String}

/-- An attempt is refused until the current block ends, and else it is verified. -/
def Limited (argon : String → String) (before : List Evaluation) (e : Evaluation) : Prop :=
  (e.verdict = none ↔ ∃ deadline, blockEnd before = some deadline ∧ e.attempt.now < deadline) ∧
    ∀ verdict, e.verdict = some verdict → verdict = verifyPinMode argon e.attempt.pin e.attempt.pins

/-- The state is what the log says of it, and its count stops at the largest one. -/
structure Limiter.Tracks (argon : String → String) (limiter : Limiter) : Prop where
  limited : History.Fits (Limited argon) limiter.log
  failures : limiter.state.consecutiveFailures.toNat = min (wrongs limiter.log) (2 ^ 32 - 1)
  blocked : limiter.state.blockedUntil = blockEnd limiter.log

theorem blockEnd_concat_of_wrong {log : List Evaluation} {e : Evaluation}
    (h : e.verdict = some .wrong) (hmany : 5 ≤ wrongs log + 1) :
    blockEnd (log ++ [e]) = some (e.attempt.now + block (wrongs log + 1) * second) := by
  have hwrong : e.isWrong = true := by simp [Evaluation.isWrong, h]
  have hwrongs : wrongs (log ++ [e]) = wrongs log + 1 := by
    rw [wrongs_concat (by simp [Evaluation.resets, h]), hwrong]
    rfl
  have hlast : lastWrong (log ++ [e]) = some e.attempt.now :=
    History.latest_concat_of_some (by simp [hwrong]) log
  rw [blockEnd, hwrongs, if_neg (by omega), hlast]
  rfl

/-- A refused attempt changes nothing. -/
theorem Limiter.Tracks.refused {limiter : Limiter} (h : limiter.Tracks argon) {a : Attempt}
    (hblocked : ∃ deadline, blockEnd limiter.log = some deadline ∧ a.now < deadline) :
    (⟨limiter.state, limiter.log ++ [⟨a, none⟩]⟩ : Limiter).Tracks argon := by
  have hwrongs : wrongs (limiter.log ++ [⟨a, none⟩]) = wrongs limiter.log := by
    rw [wrongs_concat rfl]
    simp [Evaluation.isWrong]
  have hlast : lastWrong (limiter.log ++ [⟨a, none⟩]) = lastWrong limiter.log :=
    History.latest_concat_of_none (by simp [Evaluation.isWrong]) limiter.log
  constructor
  · apply h.limited.concat
    exact ⟨iff_of_true rfl hblocked, by simp⟩
  · rw [hwrongs]
    exact h.failures
  · rw [blockEnd, hwrongs, hlast]
    exact h.blocked

/-- A wrong attempt counts, up to the largest count, and blocks from the fifth on. -/
theorem Limiter.Tracks.wrong {limiter : Limiter} (h : limiter.Tracks argon) {a : Attempt}
    (hfree : ¬ ∃ deadline, blockEnd limiter.log = some deadline ∧ a.now < deadline)
    (hwrong : verifyPinMode argon a.pin a.pins = .wrong) :
    (⟨limiter.state.recordResult a.now .wrong, limiter.log ++ [⟨a, some .wrong⟩]⟩ : Limiter).Tracks
      argon := by
  have hcount : (saturatingSucc limiter.state.consecutiveFailures).toNat =
      min (wrongs limiter.log + 1) (2 ^ 32 - 1) := by
    rw [toNat_saturatingSucc, h.failures]
    omega
  have hwrongs : wrongs (limiter.log ++ [⟨a, some .wrong⟩]) = wrongs limiter.log + 1 := by
    rw [wrongs_concat rfl]
    rfl
  have hmany : 5 ≤ saturatingSucc limiter.state.consecutiveFailures ↔ 5 ≤ wrongs limiter.log + 1 := by
    have hfive : (5 : UInt32).toNat = 5 := rfl
    rw [UInt32.le_iff_toNat_le, hcount]
    omega
  constructor
  · apply h.limited.concat
    refine ⟨iff_of_false (by simp) hfree, ?_⟩
    intro verdict hverdict
    rw [hwrong]
    exact (Option.some.inj hverdict).symm
  · rw [hwrongs, ← hcount]
    simp only [PinAttemptState.recordResult]
    rw [if_pos trivial]
    split <;> rfl
  · simp only [PinAttemptState.recordResult]
    by_cases hfifth : 5 ≤ wrongs limiter.log + 1
    · rw [blockEnd_concat_of_wrong rfl hfifth, if_pos (hmany.mpr hfifth), if_pos trivial,
        toNat_blockSeconds (hmany.mpr hfifth), hcount]
      have hblock : block (min (wrongs limiter.log + 1) (2 ^ 32 - 1)) =
          block (wrongs limiter.log + 1) := by
        unfold block
        congr 1
        omega
      rw [hblock]
    · rw [if_pos trivial, if_neg (mt hmany.mp hfifth), blockEnd, hwrongs, if_pos (by omega)]
      have hblocked := h.blocked
      rw [blockEnd, if_pos (by omega)] at hblocked
      exact hblocked

/-- Any other attempt starts the count anew. -/
theorem Limiter.Tracks.reset {limiter : Limiter} (h : limiter.Tracks argon) {a : Attempt}
    (hfree : ¬ ∃ deadline, blockEnd limiter.log = some deadline ∧ a.now < deadline)
    {verdict : Verdict} (hverdict : verifyPinMode argon a.pin a.pins = verdict)
    (hright : verdict ≠ .wrong) :
    (⟨limiter.state.recordResult a.now verdict, limiter.log ++ [⟨a, some verdict⟩]⟩ :
      Limiter).Tracks argon := by
  have hwrongs : wrongs (limiter.log ++ [⟨a, some verdict⟩]) = 0 :=
    wrongs_concat_of_resets (by simp [Evaluation.resets, hright])
  constructor
  · apply h.limited.concat
    refine ⟨iff_of_false (by simp) hfree, ?_⟩
    intro v hv
    rw [hverdict]
    exact (Option.some.inj hv).symm
  · rw [hwrongs, PinAttemptState.recordResult, if_neg hright]
    rfl
  · rw [blockEnd, hwrongs, PinAttemptState.recordResult, if_neg hright, if_pos (by omega)]
    rfl

theorem Limiter.Tracks.attempt {limiter : Limiter} (h : limiter.Tracks argon) (a : Attempt) :
    (limiter.attempt argon a).Tracks argon := by
  have hallowed : limiter.state.ensureAllowed a.now = .ok () ↔
      ¬ ∃ deadline, blockEnd limiter.log = some deadline ∧ a.now < deadline := by
    rw [PinAttemptState.ensureAllowed, refuseIf_ok, h.blocked]
    cases blockEnd limiter.log <;> simp
  unfold Limiter.attempt verifyPinModeLimited
  split
  · next e heq =>
    apply h.refused
    by_contra hfree
    rw [hallowed.mpr hfree] at heq
    cases heq
  · next heq =>
    have hfree := hallowed.mp heq
    by_cases hwrong : verifyPinMode argon a.pin a.pins = .wrong
    · simp only [hwrong]
      exact h.wrong hfree hwrong
    · exact h.reset hfree rfl hwrong

theorem Limiter.Tracks.run {limiter : Limiter} (h : limiter.Tracks argon)
    (attempts : List Attempt) :
    (Machine.run (Limiter.attempt argon) limiter attempts).Tracks argon := by
  induction attempts generalizing limiter with
  | nil => exact h
  | cons a attempts ih => exact ih (h.attempt a)

theorem Limiter.log_run (limiter : Limiter) (attempts : List Attempt) :
    (Machine.run (Limiter.attempt argon) limiter attempts).log.map Evaluation.attempt =
      limiter.log.map Evaluation.attempt ++ attempts := by
  induction attempts generalizing limiter with
  | nil => simp
  | cons a attempts ih => simp [ih, Limiter.attempt]

end Runs

section Claim

/-- The stored PINs, the PINs that were registered and the gate of a session that has the stored
PINs are what they have to be. -/
structure World.Keeps (argon : String → String) (w : World) : Prop where
  distinct : w.stored.Distinct
  verifies : ∀ m plaintext, Registered m plaintext w.log →
    verifyPinMode argon plaintext w.stored = .mode m
  gate : ∀ session loading, w.Current session →
    (startupPinIsConfigured w session loading).1 = .ok true →
      w.stored.realHash ≠ none ∧ w.stored.enabled ≠ some false

theorem World.Sound.keeps {argon : String → String} {w : World} (h : w.Sound argon) :
    w.Keeps argon where
  distinct := h.distinct
  verifies := fun m plaintext hlog =>
    Distinct.verifyPinMode h.distinct (h.registered m plaintext hlog)
  gate := fun _ _ hcurrent hgate => startupPinIsConfigured_current hcurrent hgate

def noPins : StartupPinSettings := ⟨none, none, none, none⟩

theorem distinct_noPins : noPins.Distinct := by
  intro m m' hash h
  cases m <;> exact absurd h (by simp [noPins, StartupPinSettings.hashOf])

/-- A session registers a decoy and a real PIN. -/
def twoRegistrations : List Action :=
  [.read 0 0 (.register "decoy" "2580") (.ok ()) (.ok ()), .write 0 false .saved,
    .read 1 0 (.register "real" "1357") (.ok ()) (.ok ()), .write 1 false .saved]

end Claim

end StartupAuth
