import WinCommander.VaultPolicy.Rollback

/-!
# Applying and clearing a policy

An edit is planned against the store, and then carried out: groups, access lists, retired containers,
retired groups, and last the file.
-/

namespace VaultPolicy

open AccessStore Outcome

section Planning

variable (platform : Platform)

def satSucc (n : ℕ) : ℕ := min (n + 1) (2 ^ 64 - 1)

def activeVersion (active : Option PersistedPolicy) : ℕ :=
  (active.map fun active => active.policy.version).getD 0

def normalizePolicyPaths (policy : VaultAccessPolicy) : Act VaultAccessPolicy :=
  attempt fun w => do
    let entries ← policy.entries.mapM fun entry => do
      let path ← w.normalized entry.containerPath
      pure { entry with containerPath := path }
    pure { policy with entries }

/-- An entry that the edit leaves as it is: the same words, file and grants. -/
def policyEntryPlanUnchanged (active : Option PersistedPolicy) (policy : VaultAccessPolicy)
    (planned : VaultAccessEntry × VaultAclPlan) : Bool :=
  active.any fun active =>
    (active.policy.entries.any fun old =>
      policy.entries.any fun incoming => incoming = old && incoming.id = planned.1.id) &&
    active.resolved.any fun old => old.id = planned.1.id &&
      some old.identity = planned.1.containerIdentity && old.grants = planned.2.grants &&
      old.authorizationGrants = planned.2.authorizationGrants

/-- An entry is retired when its id is gone or names another path, unless its file stays. -/
def isRetired (active : PersistedPolicy) (replacement : List (VaultAccessEntry × VaultAclPlan))
    (entry : VaultAccessEntry) : Bool :=
  let kept := replacement.find? fun planned => planned.1.id = entry.id
  (kept.all fun planned =>
    containerPolicyKey planned.1.containerPath ≠ containerPolicyKey entry.containerPath) &&
  !((active.resolvedOf entry.id).any fun resolved =>
    replacement.any fun planned => planned.1.containerIdentity = some resolved.identity)

/-- What is revoked for an entry comes from its record alone; both groups may be there. -/
def revokePlan (active : PersistedPolicy) (entry : VaultAccessEntry) :
    Except VaultError (VaultAclPlan × String) := do
  let resolved ← okOr (active.resolvedOf entry.id) .validation
  refuseIf (platform.hasParent entry.containerPath = false) .validation
  pure (⟨entry.containerPath, resolved.grants, [],
    [.read, .write].map fun access => ⟨managedGroupName platform.digest entry.id access, [], access⟩⟩,
    resolved.identity)

def removedEntryPlans (active : PersistedPolicy)
    (replacement : List (VaultAccessEntry × VaultAclPlan)) :
    Except VaultError (List (VaultAclPlan × String)) :=
  (active.policy.entries.filter (isRetired active replacement)).mapM (revokePlan platform active)

end Planning

section Applying

variable (platform : Platform)

/-- An edit as it is planned. -/
structure Edit where
  policy : VaultAccessPolicy
  planned : List (VaultAccessEntry × VaultAclPlan)
  changed : List (VaultAccessEntry × VaultAclPlan)
  removed : List (VaultAclPlan × String)

def Edit.groupPlans (edit : Edit) : List GroupMembershipPlan :=
  edit.changed.flatMap fun planned => planned.2.managedGroups

/-- Groups of retired entries, but for those that an entry of the edit owns now. -/
def Edit.removedGroupPlans (edit : Edit) : List GroupMembershipPlan :=
  (edit.removed.flatMap fun removed => removed.1.managedGroups).filter fun plan =>
    ¬ ∃ planned ∈ edit.planned, ∃ retained ∈ planned.2.managedGroups, retained.group = plan.group

def planEdit (requested : VaultAccessPolicy) : Act Edit := do
  Fallible.ask fun w =>
    refuseIf (requested.expectedPreviousVersion ≠ activeVersion w.store.active ∨
      requested.version ≠ satSucc (activeVersion w.store.active)) .versionConflict
  let policy ← normalizePolicyPaths requested
  Fallible.ask fun _ => refuseIf (validPolicy platform policy = false) .validation
  let directory ← Fallible.ask fun w => .ok w.store.accessDirectory
  let planned ← planPolicy platform policy directory
  let active ← Fallible.ask fun w => .ok w.store.active
  let removed ← Fallible.ask fun _ => match active with
    | none => .ok []
    | some active => removedEntryPlans platform active planned
  pure ⟨policy, planned, planned.filter fun plan => !policyEntryPlanUnchanged active policy plan,
    removed⟩

/-- Retire the containers in turn; what is rolled back grows with each. -/
def decommissionAll (groupSnapshots : List GroupMembershipSnapshot)
    (capture : PolicyRollbackCapture) (snapshots : List AclSnapshot) :
    List (VaultAclPlan × String) → Act (List AclSnapshot)
  | [] => pure snapshots
  | removed :: rest => do
    let retired ← orRollback platform snapshots groupSnapshots capture
      (decommissionAndSnapshot removed.1 removed.2)
    decommissionAll groupSnapshots capture (snapshots ++ retired) rest

/-- Only a group that existed before the edit is deleted. -/
def deleteExisting (snapshots : List AclSnapshot) (groupSnapshots : List GroupMembershipSnapshot)
    (capture : PolicyRollbackCapture) (plan : GroupMembershipPlan) : Act Unit :=
  if (groupSnapshots.find? fun snapshot => snapshot.group = plan.group).any
      GroupMembershipSnapshot.existed then
    orRollback platform snapshots groupSnapshots capture (deleteServiceOwnedGroup plan.group)
  else pure ()

def commitStore (active : Option PersistedPolicy) (w : World) : World :=
  setStore (fun store => { store with
    active
    validation := if active.isSome then .current else .neverApplied
    rollbackRecovery := none }) w

def apply (requested : VaultAccessPolicy) (appliedAt : ℤ) : Act Unit := do
  let edit ← planEdit platform requested
  let captured ← Fallible.collect (fun planned => capturePolicySnapshot planned.2
    (planned.1.containerIdentity.getD "")) edit.changed
  let groupSnapshots ← snapshotGroups (edit.groupPlans ++ edit.removedGroupPlans)
  let capture ← policyRollbackCheckpointForMutation platform false
    (edit.changed.map fun planned => (planned.2.container, planned.1.containerIdentity.getD ""))
  Fallible.each (fun plan : GroupMembershipPlan => orRollback platform captured groupSnapshots capture
    (reconcileExactMembers plan.group plan.members)) edit.groupPlans
  Fallible.each (fun planned : VaultAccessEntry × VaultAclPlan =>
    orRollback platform captured groupSnapshots capture (applyAndVerify planned.2)) edit.changed
  let snapshots ← decommissionAll platform groupSnapshots capture captured edit.removed
  Fallible.each (deleteExisting platform snapshots groupSnapshots capture) edit.removedGroupPlans
  let persisted := persistedPolicy edit.policy edit.planned appliedAt
  commitOrRollback platform snapshots groupSnapshots capture
    (writePolicy (platform.encode persisted))
  Fallible.modify (commitStore (some persisted))

def planClear (requested : VaultAccessPolicy) : Act (List (VaultAclPlan × String)) := do
  let active ← Fallible.ask fun w => okOr w.store.active .versionConflict
  Fallible.ask fun _ => refuseIf (requested.schemaVersion ≠ 1 ∨
    requested.policyId ≠ active.policy.policyId ∨
    requested.expectedPreviousVersion ≠ active.policy.version ∨
    requested.version ≠ satSucc active.policy.version ∨ requested.entries ≠ []) .validation
  Fallible.ask fun _ => active.policy.entries.mapM (revokePlan platform active)

def clear (requested : VaultAccessPolicy) : Act Unit := do
  let plans ← planClear platform requested
  let groupPlans := plans.flatMap fun plan => plan.1.managedGroups
  let groupSnapshots ← snapshotGroups groupPlans
  Fallible.ask fun _ => refuseIf (groupSnapshots.length ≠ groupPlans.length) .persistence
  let capture ← policyRollbackCheckpointForMutation platform true []
  let snapshots ← decommissionAll platform groupSnapshots capture [] plans
  Fallible.each (fun snapshot : GroupMembershipSnapshot =>
    orRollback platform snapshots groupSnapshots capture (deleteServiceOwnedGroup snapshot.group))
    (groupSnapshots.filter GroupMembershipSnapshot.existed)
  commitOrRollback platform snapshots groupSnapshots capture removePolicy
  Fallible.modify (commitStore none)

end Applying

end VaultPolicy
