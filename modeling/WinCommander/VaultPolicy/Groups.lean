import WinCommander.Library.Run
import WinCommander.VaultPolicy.Apply

/-!
# The groups that the service owns

Each entry has a group for its readers and one for its writers.  What a successful edit makes of the
groups of the machine, and when they are those of the policy.
-/

namespace VaultPolicy

open AccessStore Outcome

section Operations

variable {platform : Platform} {γ : Type} {g : World → γ} {w w' : World}

theorem ignores_groups : Ignores World.groups := fun _ => rfl

theorem orRollback_ok {α : Type} {snapshots : List AclSnapshot}
    {groupSnapshots : List GroupMembershipSnapshot} {capture : PolicyRollbackCapture}
    {operation : Act α} {a : α} :
    orRollback platform snapshots groupSnapshots capture operation w = (.ok a, w') ↔
      operation w = (.ok a, w') := by
  unfold orRollback
  cases h : operation w with
  | mk r w₁ => cases r <;> simp

theorem commitOrRollback_ok {snapshots : List AclSnapshot}
    {groupSnapshots : List GroupMembershipSnapshot} {capture : PolicyRollbackCapture}
    {operation : Act Unit} :
    commitOrRollback platform snapshots groupSnapshots capture operation w = (.ok (), w') ↔
      operation w = (.ok (), w') := by
  unfold commitOrRollback
  cases h : operation w with
  | mk r w₁ =>
    cases r with
    | ok a => simp
    | error e =>
      simp only [Prod.mk.injEq, reduceCtorEq, false_and, iff_false]
      split <;> simp

theorem keeps_orRollback {α : Type} {snapshots : List AclSnapshot}
    {groupSnapshots : List GroupMembershipSnapshot} {capture : PolicyRollbackCapture}
    {operation : Act α} (h : Fallible.Keeps g operation) :
    Fallible.Keeps g (orRollback platform snapshots groupSnapshots capture operation) := by
  intro w a w' hok
  exact h w a w' (orRollback_ok.mp hok)

theorem keeps_decommissionAndSnapshot (plan : VaultAclPlan) (identity : String) :
    Fallible.Keeps World.groups (decommissionAndSnapshot plan identity) := by
  intro w a w' h
  unfold decommissionAndSnapshot at h
  cases hfault : w.fault with
  | some fault =>
    rw [hfault] at h
    cases htarget : decommissionTarget plan identity w with
    | error e =>
      rw [htarget] at h
      simp at h
    | ok target =>
      rw [htarget] at h
      cases target <;> simp at h
  | none =>
    rw [hfault] at h
    cases htarget : decommissionTarget plan identity w with
    | error e =>
      rw [htarget] at h
      simp at h
    | ok target =>
      rw [htarget] at h
      cases target with
      | none =>
        rw [← (Prod.mk.inj h).2]
        rfl
      | some snapshot =>
        rw [← (Prod.mk.inj h).2]
        rfl

theorem keeps_decommissionAll {groupSnapshots : List GroupMembershipSnapshot}
    {capture : PolicyRollbackCapture} (removed : List (VaultAclPlan × String))
    (snapshots : List AclSnapshot) :
    Fallible.Keeps World.groups
      (decommissionAll platform groupSnapshots capture snapshots removed) := by
  induction removed generalizing snapshots with
  | nil => exact (Fallible.frames_pure _ _).keeps
  | cons head rest ih =>
    unfold decommissionAll
    exact (keeps_orRollback (keeps_decommissionAndSnapshot head.1 head.2)).bind fun retired => ih _

theorem frames_policyRollbackCheckpoint (hg : Ignores g) :
    Fallible.Frames g (policyRollbackCheckpoint platform) := by
  unfold policyRollbackCheckpoint verifyPolicyStorage
  refine (Fallible.frames_ask _ _).bind fun _ => (frames_attempt hg _).bind fun _ => ?_
  refine (frames_readFile hg _).bind fun _ => (Fallible.frames_ask _ _).bind fun _ => ?_
  refine (frames_readFile hg _).bind fun _ => (Fallible.frames_ask _ _).bind fun _ => ?_
  exact Fallible.frames_pure _ _

theorem frames_toleratedCheckpoint (hg : Ignores g) (clearing : Bool) :
    Fallible.Frames g (toleratedCheckpoint platform clearing) := by
  intro w
  have hcheckpoint := (@frames_policyRollbackCheckpoint platform γ g hg) w
  unfold toleratedCheckpoint
  cases h : policyRollbackCheckpoint platform w with
  | mk r w₁ =>
    rw [h] at hcheckpoint
    cases r with
    | ok checkpoint => exact hcheckpoint
    | error e =>
      have hread := frames_readFile hg World.policyFile w₁
      by_cases hdegraded : w₁.store.validation = .degraded ∧ w₁.store.rollbackRecovery.isNone ∧
          w₁.store.accessDirectoryHealthy = true
      · simp only [if_pos hdegraded]
        exact hcheckpoint
      · by_cases hclearing : clearing = true
        · simp only [if_neg hdegraded, if_pos hclearing]
          have hboth := hread.trans hcheckpoint
          cases hfile : readFile World.policyFile w₁ with
          | mk file w₂ =>
            rw [hfile] at hboth
            split
            · rename_i heq
              rw [← (Prod.mk.inj heq).2]
              exact hboth
            · rename_i heq
              rw [← (Prod.mk.inj heq).2]
              exact hboth
        · simp only [if_neg hdegraded, if_neg hclearing]
          exact hcheckpoint

theorem frames_policyRollbackCheckpointForMutation (hg : Ignores g) (clearing : Bool)
    (captured : List (String × String)) :
    Fallible.Frames g (policyRollbackCheckpointForMutation platform clearing captured) := by
  unfold policyRollbackCheckpointForMutation verifyPolicyStorage
  refine (Fallible.frames_ask _ _).bind fun targets => (frames_attempt hg _).bind fun _ => ?_
  exact (frames_toleratedCheckpoint hg clearing).bind fun _ => Fallible.frames_pure _ _

end Operations

end VaultPolicy
