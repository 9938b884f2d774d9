import Mathlib
import WinCommander.Library.MachineInt
import WinCommander.Fleet.Cycle

/-!
# Replay over a run of cycles

The nonce map remembers an accepted command until its age exceeds the clock window, and the
freshness check refuses a dated command once its own age does.  Together they let a command with
a nonce through once.  Both the nonce and the date are outside the signature, so a copy without
them passes again.
-/

namespace FleetAgent

open FleetProto MachineInt

variable {Key : Type}

section Clock

/-- A nonce is kept while its age in seconds is within the limit. -/
theorem evict_kept {seen : NonceMap} {nonce : String} {t now ttlSecs : Int64}
    (hseen : seen nonce = some t) (ht : 0 ≤ t.toInt) (hle : t.toInt ≤ now.toInt)
    (hage : now.toInt - t.toInt ≤ ttlSecs.toInt) :
    evictStaleNonces seen now ttlSecs nonce = some t := by
  have hnow := now.toInt_lt
  apply evictStaleNonces_eq_some hseen
  rw [Int64.le_iff_toInt_le, toInt_sub_of_le hle (by omega)]
  exact hage

/-- A command that is dated further back than the window is not fresh. -/
theorem not_fresh_of_older {cmd : SignedCommand} {now maxSkewSecs : Int64} (hts : cmd.ts ≠ 0)
    (hpast : cmd.ts.toInt ≤ now.toInt) (hfits : now.toInt - cmd.ts.toInt < 2 ^ 63)
    (hold : maxSkewSecs.toInt < now.toInt - cmd.ts.toInt) : ¬ Fresh now maxSkewSecs cmd := by
  have hsub := toInt_sub_of_le hpast hfits
  have hskew : (skew now cmd.ts).toInt = now.toInt - cmd.ts.toInt := by
    rw [skew, if_pos hts, toInt_abs_of_nonneg (by omega), hsub]
  intro hfresh
  have hle := hfresh.resolve_left hts
  rw [Int64.le_iff_toInt_le, hskew] at hle
  omega

end Clock

/-- What keeps two accepted commands of one nonce apart: more than the clock window lies between
them, and the later one does not carry a date from before the earlier was accepted, unless the
distance to that date overflows. -/
def ReplayApart (maxSkewSecs : Int64) (a b : Acceptance) : Prop :=
  a.command.nonce ≠ "" → a.command.nonce = b.command.nonce →
    maxSkewSecs.toInt < b.now.toInt - a.now.toInt ∧
    (b.command.ts ≠ 0 → b.command.ts.toInt ≤ a.now.toInt →
      2 ^ 63 ≤ b.now.toInt - b.command.ts.toInt)

section Run

variable {platform : Platform Key} {config : FleetConfig Key} {s : FleetClientState}
  {i j : CycleInput} {a b : Acceptance}

/-- After a cycle the device still knows an accepted nonce, or the window since has passed. -/
private def Remembered (maxSkewSecs : Int64) (i : CycleInput) (a : Acceptance)
    (s : FleetClientState) : Prop :=
  a.command.nonce ≠ "" → 0 ≤ a.now.toInt ∧ a.now.toInt ≤ i.now.toInt ∧
    (s.seenNonces a.command.nonce = some a.now ∨ maxSkewSecs.toInt < i.now.toInt - a.now.toInt)

private theorem mem_acceptances (h : a ∈ acceptances platform config s i) :
    ∃ t resp, appliedResponse platform config s i = some (t, resp) ∧ a.now = i.now ∧
      a.command ∈ acceptedCommands platform.crypto (checkinContext platform config t i)
        t.seenNonces resp.commands := by
  unfold acceptances at h
  split at h
  · simp at h
  · next t resp happlied =>
    obtain ⟨cmd, hcmd, rfl⟩ := List.mem_map.mp h
    exact ⟨t, resp, happlied, rfl, hcmd⟩

/-- An accepted nonce is remembered when its cycle ends. -/
private theorem remembered_of_accepted (hnow : 0 ≤ i.now.toInt)
    (h : a ∈ acceptances platform config s i) :
    Remembered config.maxCmdSkewSecs i a (cycleStep platform config s i) := by
  intro hnonce
  obtain ⟨t, resp, happlied, hat, hmem⟩ := mem_acceptances h
  rcases cycleStep_cases platform config s i with ⟨hnone, _⟩ | ⟨t', resp', hsome, _, _, hstep⟩
  · rw [hnone] at happlied
    exact absurd happlied (by simp)
  · rw [happlied] at hsome
    cases hsome
    rw [hat, hstep, seenNonces_applyResponse]
    exact ⟨hnow, le_refl _, Or.inl (seenNonces_of_accepted hmem hnonce)⟩

/-- Either the eviction of the next cycle keeps a remembered nonce, or the window has passed. -/
private theorem evict_remembered (hle : i.now.toInt ≤ j.now.toInt) {maxSkewSecs : Int64}
    (h : Remembered maxSkewSecs i a s) (hnonce : a.command.nonce ≠ "") :
    maxSkewSecs.toInt < j.now.toInt - a.now.toInt ∨
      evictStaleNonces s.seenNonces j.now maxSkewSecs a.command.nonce = some a.now := by
  obtain ⟨hpos, hbefore, hseen | hold⟩ := h hnonce
  · by_cases hage : j.now.toInt - a.now.toInt ≤ maxSkewSecs.toInt
    · exact Or.inr (evict_kept hseen hpos (by omega) hage)
    · exact Or.inl (by omega)
  · exact Or.inl (by omega)

private theorem remembered_step (hle : i.now.toInt ≤ j.now.toInt)
    (h : Remembered config.maxCmdSkewSecs i a s) :
    Remembered config.maxCmdSkewSecs j a (cycleStep platform config s j) := by
  intro hnonce
  obtain ⟨hpos, hbefore, hmemory⟩ := h hnonce
  refine ⟨hpos, by omega, ?_⟩
  rcases cycleStep_cases platform config s j with ⟨_, hsame, _⟩ | ⟨t, resp, _, hseen, _, hstep⟩
  · rw [hsame]
    rcases hmemory with hmemory | hold
    · exact Or.inl hmemory
    · exact Or.inr (by omega)
  · rcases evict_remembered hle h hnonce with hold | hkept
    · exact Or.inr hold
    · rw [hstep, seenNonces_applyResponse, hseen]
      exact Or.inl (seenNonces_processCheckin hkept)

/-- While its nonce is remembered a command is kept out; what is forgotten is old. -/
private theorem apart_of_remembered (hle : i.now.toInt ≤ j.now.toInt)
    (h : Remembered config.maxCmdSkewSecs i a s) (hb : b ∈ acceptances platform config s j) :
    ReplayApart config.maxCmdSkewSecs a b := by
  intro hnonce hsame
  obtain ⟨t, resp, happlied, hat, hmem⟩ := mem_acceptances hb
  have hseen : t.seenNonces = s.seenNonces := by
    rcases cycleStep_cases platform config s j with ⟨hnone, _⟩ | ⟨t', resp', hsome, hseen, _⟩
    · rw [hnone] at happlied
      exact absurd happlied (by simp)
    · rw [happlied] at hsome
      cases hsome
      exact hseen
  obtain ⟨hforgotten, hfresh⟩ := forgotten_of_accepted hmem (hsame ▸ hnonce)
  have hwindow : config.maxCmdSkewSecs.toInt < j.now.toInt - a.now.toInt := by
    rcases evict_remembered hle h hnonce with hold | hkept
    · exact hold
    · rw [hseen, ← hsame] at hforgotten
      exact absurd (hforgotten.symm.trans hkept) (by simp)
  rw [hat]
  refine ⟨hwindow, fun hts hpast => ?_⟩
  by_contra hfits
  have hbefore := (h hnonce).2.1
  have hstale : ¬ Fresh j.now config.maxCmdSkewSecs b.command :=
    not_fresh_of_older hts (by omega) (by omega) (by omega)
  exact hstale hfresh

private theorem acceptances_pairwise (s : FleetClientState) (i : CycleInput) :
    (acceptances platform config s i).Pairwise (ReplayApart config.maxCmdSkewSecs) := by
  unfold acceptances
  split
  · exact List.Pairwise.nil
  · rw [List.pairwise_map]
    refine acceptedCommands_pairwise.imp ?_
    intro c d hdistinct hnonce hsame
    exact absurd hsame (hdistinct hnonce)

/-- Over every run of cycles under a clock that does not go back, two accepted commands of one
nonce are more than the clock window apart, and a command with a nonce and a date no later than its
first acceptance is accepted once. -/
theorem replay_apart (platform : Platform Key) (config : FleetConfig Key) (s : FleetClientState)
    (inputs : List CycleInput) (hclock : ∀ i ∈ inputs, 0 ≤ i.now)
    (hmono : inputs.Pairwise fun i j => i.now ≤ j.now) :
    (acceptanceLog platform config s inputs).Pairwise (ReplayApart config.maxCmdSkewSecs) := by
  apply Machine.outputs_pairwise (V := fun i : CycleInput => 0 ≤ i.now)
    (Q := fun i j : CycleInput => i.now ≤ j.now)
    (K := fun i a s => Remembered config.maxCmdSkewSecs i a s)
  · exact fun s i _ => acceptances_pairwise s i
  · intro s i a hnow ha
    exact remembered_of_accepted (Int64.le_iff_toInt_le.mp hnow) ha
  · intro s i j a _ hle hmemory
    have hle' := Int64.le_iff_toInt_le.mp hle
    exact ⟨remembered_step hle' hmemory, fun b hb => apart_of_remembered hle' hmemory hb⟩
  · exact hclock
  · exact hmono

end Run

namespace Recorded

open FleetProto.Recorded

/-- The recorded scheme; the policy reader plays no part here. -/
def platform : Platform (List UInt8) where
  crypto := recording.crypto
  readPolicy _ := .error "missing field"

def config : FleetConfig (List UInt8) where
  cmdPubkey := operatorKey
  maxCmdSkewSecs := 300
  checkinSecret := []

/-- A device that has enrolled under an id and pinned the server key. -/
def enrolledAs (id : String) : FleetClientState where
  deviceId := some id
  pinnedPubkeyB64 := some operatorKeyB64
  pinnedServerKeyB64 := some serverKeyB64
  checkinSecret := none
  seenNonces := fun _ => none
  deadManMisses := 0
  lastCheckinAt := none

/-- A cycle in which the server delivers one command. -/
def delivery (now : Int64) (cmd : SignedCommand) : CycleInput where
  now := now
  decoy := false
  enrollReply := .error "unreachable"
  authenticate _ := .ok ""
  checkinReply := .ok
    { commands := [cmd], allClear := true, policy := none, pendingSearchJobs := [] }
  stamp _ := "2026-08-28T00:00:00Z"
  nowRfc3339 := "2026-08-28T00:00:00Z"

theorem acceptances_delivery {s : FleetClientState} {id : String} {seen' : NonceMap}
    {now : Int64} {cmd : SignedCommand} (hid : s.deviceId = some id)
    (hpin : s.pinnedServerKeyB64 = some serverKeyB64)
    (hcatalog : isDuressCatalog cmd.catalogId = false)
    (hverify : verifyCommand recording.crypto cmd serverKey now 300
      (evictStaleNonces s.seenNonces now 300) = .ok seen') :
    acceptances platform config s (delivery now cmd) = [⟨now, cmd⟩] := by
  have hkey : (checkinContext platform config s (delivery now cmd)).serverKey = some serverKey := by
    rw [checkinContext, hpin]
    rfl
  have happlied : appliedResponse platform config s (delivery now cmd) = some (s,
      { commands := [cmd], allClear := true, policy := none, pendingSearchJobs := [] }) := by
    rw [appliedResponse, enroll_enrolled hid]
    rfl
  have haccepted : acceptedCommand recording.crypto
      (checkinContext platform config s (delivery now cmd))
      (startCheckin (checkinContext platform config s (delivery now cmd)) s.seenNonces) cmd =
        [cmd] := by
    unfold acceptedCommand verifySelected
    simp only [hcatalog, Bool.false_eq_true, if_false, hkey]
    show (if (verifyCommand recording.crypto cmd serverKey now 300
      (evictStaleNonces s.seenNonces now 300)).toBool then [cmd] else []) = _
    rw [hverify]
    rfl
  rw [acceptances, happlied]
  show List.map _ (acceptedCommand recording.crypto _ _ cmd ++ []) = _
  rw [haccepted]
  rfl

end Recorded

section Stripped

open Recorded

/-- A signature is not used twice. -/
def NoSignatureReplay (log : List Acceptance) : Prop :=
  log.Pairwise fun a b => a.command.signature ≠ b.command.signature

/-- The server's update with a date and a nonce. -/
private def datedUpdate : SignedCommand := { update with ts := 1000, nonce := "n-1" }

private theorem datedUpdate_verified :
    verifyCommand recording.crypto datedUpdate serverKey 1000 300
      (evictStaleNonces (fun _ => none) 1000 300) =
        .ok (Function.update (evictStaleNonces (fun _ => none) 1000 300) "n-1" (some 1000)) := by
  apply verifyCommand_ok_iff.mpr
  refine ⟨signedBy_server rfl rfl rfl, Or.inr (by decide), Or.inr ⟨by decide, rfl, rfl⟩⟩

/-- The copy without date and nonce is accepted a minute after the original. -/
theorem stripped_copy_replayed :
    ¬ NoSignatureReplay (acceptanceLog platform config (enrolledAs "dev-1")
      [delivery 1000 datedUpdate, delivery 1060 update]) := by
  have hfirst : acceptances platform config (enrolledAs "dev-1") (delivery 1000 datedUpdate) =
      [⟨1000, datedUpdate⟩] := acceptances_delivery rfl rfl (by decide) datedUpdate_verified
  have hsecond : acceptances platform config
      (cycleStep platform config (enrolledAs "dev-1") (delivery 1000 datedUpdate))
      (delivery 1060 update) = [⟨1060, update⟩] :=
    acceptances_delivery rfl rfl (by decide)
      (verifyCommand_undated (signedBy_server rfl rfl rfl) rfl rfl _ _ _)
  intro h
  simp only [acceptanceLog, Machine.outputs, hfirst, hsecond, NoSignatureReplay,
    List.cons_append, List.nil_append, List.pairwise_cons] at h
  exact h.1 _ List.mem_cons_self rfl

theorem replay_apart_minute :
    (acceptanceLog platform config (enrolledAs "dev-1")
      [delivery 1000 datedUpdate, delivery 1060 update]).Pairwise
        (ReplayApart config.maxCmdSkewSecs) :=
  replay_apart platform config (enrolledAs "dev-1") [delivery 1000 datedUpdate, delivery 1060 update]
    (by simp [delivery]) (by simp [delivery])

end Stripped

end FleetAgent
