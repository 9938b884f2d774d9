import Mathlib
import WinCommander.Fleet.Verify
import WinCommander.Library.MachineInt

/-!
# The arithmetic of freshness

The time stamp of a command is chosen by its sender, and its distance to the clock is computed in 64
bits.  What the distance comes to is compared with the distance of the integers.
-/

namespace FleetAgent

open Json FleetProto Outcome MachineInt

variable {Key : Type}

/-- The second check of a command. -/
def freshness (now maxSkewSecs : Int64) (cmd : SignedCommand) : Except String Unit :=
  refuseIf (cmd.ts ≠ 0 ∧ maxSkewSecs < skew now cmd.ts)
    s!"fleet command timestamp skew {skew now cmd.ts}s exceeds max {maxSkewSecs}s"

/-- A command is checked for freshness after its key and before its signature. -/
theorem verifyCommand_eq (crypto : Crypto Key) (cmd : SignedCommand) (key : Key)
    (now maxSkewSecs : Int64) (seen : NonceMap) :
    verifyCommand crypto cmd key now maxSkewSecs seen = (do
      let cmdKey ← (decodeVerifyingKey crypto cmd.signerKey).mapError
        fun e => s!"fleet command signer_key decode: {e}"
      refuseIf (crypto.keyToBytes cmdKey ≠ crypto.keyToBytes key)
        "fleet command signer_key does not match pinned pubkey"
      freshness now maxSkewSecs cmd
      refuseIf (verifySignatureB64 crypto (crypto.b64Encode (crypto.keyToBytes key))
        cmd.signingInput.preimage cmd.signature = false) "fleet command ed25519 signature invalid"
      if cmd.nonce = "" then
        return seen
      else
        refuseIf ((seen cmd.nonce).isSome = true) s!"fleet command nonce '{cmd.nonce}' replayed"
        return Function.update seen cmd.nonce (some now)) := rfl

/-- The distance to the clock, where no step of its computation overflows. -/
def checkedSkew (now ts : Int64) : Option Int64 :=
  if ts ≠ 0 then (checkedSub now ts).bind checkedAbs else some 0

/-- Freshness is that of the integers, and neither it nor the eviction of nonces overflows. -/
structure ExactFreshness (now maxSkewSecs : Int64) (cmd : SignedCommand) (seen : NonceMap) : Prop where
  computed : (checkedSkew now cmd.ts).isSome = true
  accepted : freshness now maxSkewSecs cmd = .ok () ↔
    cmd.ts = 0 ∨ |now.toInt - cmd.ts.toInt| ≤ maxSkewSecs.toInt
  evicted : ∀ nonce insertedAt, seen nonce = some insertedAt → (checkedSub now insertedAt).isSome = true

/-- Where no step overflows the wrapping integers of a release build come to the same. -/
theorem skew_of_checkedSkew {now ts d : Int64} (h : checkedSkew now ts = some d) : d = skew now ts := by
  rw [checkedSkew] at h
  rw [skew]
  split at h
  · rw [if_pos ‹_›]
    simp only [checkedSub, checkedAbs, Option.bind_eq_some_iff, Option.ite_none_right_eq_some,
      Option.ite_none_left_eq_some, Option.some.injEq] at h
    obtain ⟨_, ⟨-, rfl⟩, -, rfl⟩ := h
    rfl
  · rw [if_neg ‹_›]
    exact (Option.some.inj h).symm

theorem checkedSkew_isSome_iff {now ts : Int64} : (checkedSkew now ts).isSome = true ↔
    ts = 0 ∨ |now.toInt - ts.toInt| < 2 ^ 63 := by
  by_cases hts : ts = 0
  · simp [checkedSkew, hts]
  · rw [checkedSkew, if_pos hts, checkedDistance_isSome_iff, or_iff_right hts]

theorem freshness_ok_iff {now maxSkewSecs : Int64} {cmd : SignedCommand} :
    freshness now maxSkewSecs cmd = .ok () ↔ Fresh now maxSkewSecs cmd := by
  rw [freshness, refuseIf_ok, Fresh, not_and_or, not_not, Int64.not_lt]

theorem fresh_iff {now maxSkewSecs : Int64} {cmd : SignedCommand}
    (h : cmd.ts = 0 ∨ |now.toInt - cmd.ts.toInt| < 2 ^ 63) :
    Fresh now maxSkewSecs cmd ↔ cmd.ts = 0 ∨ |now.toInt - cmd.ts.toInt| ≤ maxSkewSecs.toInt := by
  rw [Fresh]
  by_cases hts : cmd.ts = 0
  · simp only [hts, true_or]
  · have hdistance := toInt_distance (h.resolve_left hts)
    rw [skew, if_pos hts, Int64.le_iff_toInt_le, hdistance]

/-- The arithmetic is exact where the distance is less than two to the power of 63. -/
theorem exactFreshness_iff {now maxSkewSecs : Int64} {cmd : SignedCommand} {seen : NonceMap} :
    ExactFreshness now maxSkewSecs cmd seen ↔
      (cmd.ts = 0 ∨ |now.toInt - cmd.ts.toInt| < 2 ^ 63) ∧
        ∀ nonce insertedAt, seen nonce = some insertedAt →
          -2 ^ 63 ≤ now.toInt - insertedAt.toInt ∧ now.toInt - insertedAt.toInt < 2 ^ 63 := by
  simp only [← checkedSub_isSome_iff]
  constructor
  · intro h
    exact ⟨checkedSkew_isSome_iff.mp h.computed, h.evicted⟩
  · rintro ⟨hdistance, hevicted⟩
    refine ⟨checkedSkew_isSome_iff.mpr hdistance, ?_, hevicted⟩
    rw [freshness_ok_iff, fresh_iff hdistance]

/-- A command that is dated so far back that its distance to the clock is no 64-bit integer. -/
def Recorded.longAgo : SignedCommand := { Recorded.update with ts := -9223372035154775808 }

/-- The distance overflows, and what it wraps to is accepted. -/
theorem longAgo_inexact : ¬ ∀ now maxSkewSecs cmd seen, 0 ≤ maxSkewSecs →
    ExactFreshness now maxSkewSecs cmd seen := by
  intro h
  have hexact := h 1700000000 300 Recorded.longAgo (fun _ => none) (by decide)
  have haccepted : freshness 1700000000 300 Recorded.longAgo = .ok () := by decide +kernel
  exact absurd (hexact.accepted.mp haccepted) (by decide +kernel)

end FleetAgent
