import WinCommander.VaultPolicy.Machine

/-!
# Validating a policy, and rolling an edit back

A rejected edit is rolled back, and the store stays degraded until every target of the edit has been
read back as it was.
-/

namespace VaultPolicy

open AccessStore AsciiText Outcome

section Validation

def validId (value : String) : Bool :=
  value ≠ "" && value.utf8ByteSize ≤ 64 &&
    value.toList.all fun c => c.isAlphanum || c = '-' || c = '_'

def validWindowsSid (value : String) : Bool :=
  let parts := value.toList.splitOn '-'
  value.utf8ByteSize ≤ 184 && 3 ≤ parts.length && parts.length ≤ 18 &&
    parts[0]? = some ['S'] && parts[1]? = some ['1'] &&
    (parts.drop 2).all fun part => part ≠ [] && part.all Char.isDigit

def accessPatternMatchesPolicy (entry : VaultAccessEntry) : Bool :=
  let ownerGrant := fun grant : VaultGrantInput =>
    eqIgnoreCase (trim grant.principalName) (trim entry.ownerAccount)
  match entry.accessPattern with
  | none => true
  | some .priv => entry.mount.presentation = .perUser &&
      entry.grants.length = 1 && entry.grants.all fun grant => ownerGrant grant && grant.access = .write
  | some .sharedRead => entry.mount.presentation = .machine && 2 ≤ entry.grants.length &&
      (entry.grants.any fun grant => ownerGrant grant && grant.access = .write) &&
      entry.grants.all fun grant => ownerGrant grant || grant.access = .read
  | some .sharedWrite => entry.mount.presentation = .machine && 2 ≤ entry.grants.length &&
      entry.grants.all fun grant => grant.access = .write

def principalKey (grant : VaultGrantInput) : String := lower (trim grant.principalName)

def upperLetter (letter : String) : String := String.ofList (letter.toList.map Char.toUpper)

def validEntry (platform : Platform) (entry : VaultAccessEntry) : Bool :=
  validId entry.id && trim entry.label ≠ "" && entry.label.utf8ByteSize ≤ 128 &&
    trim entry.ownerAccount ≠ "" && entry.primaryOwnerSid.all validWindowsSid &&
    platform.isAbsolute entry.containerPath && entry.grants ≠ [] && entry.grants.length ≤ 32 &&
    containerPolicyKey entry.containerPath ≠ "" &&
    (entry.mount.preferredLetter.all fun letter =>
      letter.utf8ByteSize = 1 && letter.toList.all Char.isAlpha) &&
    (entry.grants.all fun grant =>
      principalKey grant ≠ "" && grant.principalName.utf8ByteSize ≤ 256) &&
    decide (entry.grants.map principalKey).Nodup &&
    (entry.mount.presentation ≠ .machine || 2 ≤ entry.grants.length) &&
    accessPatternMatchesPolicy entry

/-- No two entries share an id, a container path or a drive letter. -/
def validPolicy (platform : Platform) (policy : VaultAccessPolicy) : Bool :=
  policy.schemaVersion = 1 && policy.policyId ≠ "" && policy.policyId.utf8ByteSize ≤ 64 &&
    policy.version ≠ 0 && policy.entries ≠ [] && policy.entries.length ≤ 64 &&
    policy.entries.all (validEntry platform) &&
    decide (policy.entries.map VaultAccessEntry.id).Nodup &&
    decide (policy.entries.map fun entry => containerPolicyKey entry.containerPath).Nodup &&
    decide (policy.entries.filterMap fun entry =>
      entry.mount.preferredLetter.map upperLetter).Nodup

def emptyAccessDirectory : VaultAccessDirectory := ⟨1, [], []⟩

/-- The names of the groups that the service owns are reserved, in any case. -/
def validAdminGroupName (name : String) : Bool :=
  name ≠ "" && name.utf8ByteSize ≤ 64 && !("wc-vault-".toList.isPrefixOf (lower name).toList)

def validDirectoryUser (user : VaultAccessDirectoryUser) : Bool :=
  trim user.sid ≠ "" && user.sid.utf8ByteSize ≤ 184 &&
    (user.sid.toList.all fun c => c.isAlphanum || c = '-') &&
    trim user.username ≠ "" && user.username.utf8ByteSize ≤ 256 &&
    user.displayName.all fun name => name.utf8ByteSize ≤ 256

def validDirectoryGroup (users : List VaultAccessDirectoryUser) (group : VaultAccessDirectoryGroup) :
    Bool :=
  trim group.id ≠ "" && group.id.utf8ByteSize ≤ 128 &&
    (group.id.toList.all fun c => c.isAlphanum || c = '-' || c = '_') &&
    trim group.name ≠ "" && group.name.utf8ByteSize ≤ 128 && validAdminGroupName group.localGroup &&
    group.memberSids.length ≤ 512 &&
    (group.memberSids.all fun sid => users.any fun user => lower user.sid = lower sid) &&
    decide (group.memberSids.map lower).Nodup

/-- Users, groups, group names and members are told apart without regard to case. -/
def validAccessDirectory (directory : VaultAccessDirectory) : Bool :=
  directory.schemaVersion = 1 && directory.groups.length ≤ 64 && directory.users.length ≤ 512 &&
    directory.users.all validDirectoryUser &&
    decide (directory.users.map fun user => lower user.sid).Nodup &&
    directory.groups.all (validDirectoryGroup directory.users) &&
    decide (directory.groups.map fun group => lower group.id).Nodup &&
    decide (directory.groups.map fun group => lower group.localGroup).Nodup

end Validation

section Revalidation

variable (platform : Platform)

def planPolicy (policy : VaultAccessPolicy) (directory : VaultAccessDirectory) :
    Act (List (VaultAccessEntry × VaultAclPlan)) :=
  attempt fun w => resolveAndPlan (w.resolver platform) directory policy

def revalidateEntry (persisted : PersistedPolicy) (planned : VaultAccessEntry × VaultAclPlan) :
    Act Unit := do
  let stored ← Fallible.ask fun _ => okOr (persisted.resolvedOf planned.1.id) .validation
  attempt fun w => do
    let identity ← w.identity planned.1.containerPath
    refuseIf (identity ≠ stored.identity) .containerIdentity
  let groupSnapshots ← snapshotGroups planned.2.managedGroups
  let drifted := groupSnapshots.find? fun snapshot =>
    (planned.2.managedGroups.find? fun plan => plan.group = snapshot.group).map
      GroupMembershipPlan.members ≠ some snapshot.members
  Fallible.ask fun _ => do
    refuseIf (groupSnapshots.length ≠ planned.2.managedGroups.length ∨ drifted ≠ none)
      (.principalResolution ((drifted.map GroupMembershipSnapshot.group).getD planned.1.id))
    refuseIf (Keyed.sortOn ResolvedGrant.sid planned.2.grants ≠
      Keyed.sortOn ResolvedGrant.sid stored.grants) .aclReadback
    refuseIf (Keyed.sortOn ResolvedGrant.sid planned.2.authorizationGrants ≠
      Keyed.sortOn ResolvedGrant.sid stored.authorizationGrants)
      (.principalResolution planned.1.id)
  verifyExact planned.2

def revalidatePersistedPolicy (persisted : PersistedPolicy) (directory : VaultAccessDirectory) :
    Act Unit := do
  Fallible.ask fun _ => refuseIf (validPolicy platform persisted.policy = false) .validation
  let plans ← planPolicy platform persisted.policy directory
  Fallible.ask fun _ => refuseIf (plans.length ≠ persisted.resolved.length) .validation
  Fallible.each (revalidateEntry persisted) plans

end Revalidation

section Checkpoint

variable (platform : Platform)

/-- The policy file is as the store has it: its bytes, or none when there is no policy. -/
def policyCheckpointBytes (active : Option PersistedPolicy) :
    FileState → Except VaultError (Option (List UInt8))
  | .holds bytes =>
    if active ≠ none ∧ platform.decode bytes = active then .ok (some bytes) else .error .persistence
  | .absent => if active = none then .ok none else .error .persistence
  | .unreadable => .error .persistence

def directoryCheckpointBytes (directory : VaultAccessDirectory) :
    FileState → Except VaultError (Option (List UInt8))
  | .holds bytes =>
    if platform.decodeDirectory bytes = some directory ∧ validAccessDirectory directory then
      .ok (some bytes)
    else .error .persistence
  | .absent => if directory = emptyAccessDirectory then .ok none else .error .persistence
  | .unreadable => .error .persistence

def policyRollbackCheckpoint : Act PolicyRollbackCheckpoint := do
  Fallible.ask fun w => refuseIf (w.store.accessDirectoryHealthy = false) .persistence
  verifyPolicyStorage
  let policyFile ← readFile World.policyFile
  let policyBytes ← Fallible.ask fun w => policyCheckpointBytes platform w.store.active policyFile
  let directoryFile ← readFile World.directoryFile
  let directoryBytes ← Fallible.ask fun w =>
    directoryCheckpointBytes platform w.store.accessDirectory directoryFile
  pure ⟨policyBytes, directoryBytes⟩

/-- Every target of the edit and every container of the policy, with the file it names. -/
def captureTargets (active : Option PersistedPolicy) (captured : List (String × String)) :
    Except VaultError (List (String × String)) :=
  match active with
  | none => .ok captured
  | some active => active.policy.entries.foldlM (fun targets entry =>
      if targets.any fun target => target.1 = entry.containerPath then .ok targets
      else do
        let resolved ← okOr (active.resolvedOf entry.id) .containerIdentity
        pure (targets ++ [(entry.containerPath, resolved.identity)])) captured

/-- A degraded store may be edited without a checkpoint, and then never recovers by itself; so may
one whose file is gone be cleared. -/
def toleratedCheckpoint (clearing : Bool) : Act (Option PolicyRollbackCheckpoint) := fun w =>
  match policyRollbackCheckpoint platform w with
  | (.ok checkpoint, w') => (.ok (some checkpoint), w')
  | (.error e, w') =>
    if w'.store.validation = .degraded ∧ w'.store.rollbackRecovery.isNone ∧
        w'.store.accessDirectoryHealthy = true then (.ok none, w')
    else if clearing = true then match readFile World.policyFile w' with
      | (.ok .absent, w'') => (.ok none, w'')
      | (_, w'') => (.error e, w'')
    else (.error e, w')

def policyRollbackCheckpointForMutation (clearing : Bool) (captured : List (String × String)) :
    Act PolicyRollbackCapture := do
  let targets ← Fallible.ask fun w => captureTargets w.store.active captured
  verifyPolicyStorage
  let checkpoint ← toleratedCheckpoint platform clearing
  pure ⟨checkpoint, targets⟩

def policyBytesMatch (expected : Option (List UInt8)) : Act Bool := do
  let file ← readFile World.policyFile
  pure (match file, expected with
    | .holds bytes, some expected => bytes = expected
    | .absent, none => true
    | _, _ => false)

end Checkpoint

section Rollback

variable (platform : Platform)

def setStore (f : PolicyStore → PolicyStore) (w : World) : World := { w with store := f w.store }

/-- Everything that the edit may have touched is read back, and the policy is validated anew. -/
def verifiedRecovery (recovery : PolicyRollbackRecovery) : Act Unit := do
  let current ← policyRollbackCheckpoint platform
  Fallible.ask fun _ => refuseIf (current ≠ recovery.checkpoint) .persistence
  Fallible.each (fun target : String × String => attempt fun w => do
    let identity ← w.identity target.1
    refuseIf (identity ≠ target.2) .containerIdentity) recovery.targetIdentities
  Fallible.each verifyRestored recovery.snapshots
  let readback ← snapshotGroups (recovery.groupSnapshots.map fun snapshot =>
    ⟨snapshot.group, snapshot.members, .write⟩)
  Fallible.ask fun _ => refuseIf (readback ≠ recovery.groupSnapshots) .aclReadback
  fun w => match w.store.active with
    | none => (.ok (), w)
    | some active => revalidatePersistedPolicy platform active w.store.accessDirectory w

def verifyPendingRollbackRecovery (w : World) : World :=
  match w.store.validation, w.store.rollbackRecovery with
  | .degraded, some recovery => match verifiedRecovery platform recovery w with
    | (.error _, w') => w'
    | (.ok (), w') => setStore (fun store => { store with
        validation := if store.active.isSome then .current else .neverApplied
        rollbackRecovery := none }) w'
  | _, _ => w

/-- Restore what was captured; only a store whose every restoration went through is verified. -/
def rollbackAfterApply (snapshots : List AclSnapshot)
    (groupSnapshots : List GroupMembershipSnapshot) (capture : PolicyRollbackCapture) (w : World) :
    World :=
  let cleared := setStore (fun store => { store with rollbackRecovery := none }) w
  let restored := (do
    Fallible.each (fun snapshot : AclSnapshot => attempt fun w => do
      let expected ← okOr (capture.targetIdentities.lookup snapshot.path) VaultError.containerIdentity
      refuseIf (w.identity snapshot.path ≠ .ok expected) .containerIdentity) snapshots
    Fallible.each (restoreVerified capture.targetIdentities) snapshots : Act Unit) cleared
  let groupsRestored := Fallible.each restoreGroup groupSnapshots restored.2
  let degraded := setStore (fun store => { store with validation := .degraded }) groupsRestored.2
  match restored.1, groupsRestored.1, capture.checkpoint with
  | .ok (), .ok (), some checkpoint =>
    verifyPendingRollbackRecovery platform (setStore (fun store => { store with
      rollbackRecovery := some ⟨checkpoint, snapshots, groupSnapshots, capture.targetIdentities⟩ })
        degraded)
  | _, _, _ => degraded

def policyRollbackError (store : PolicyStore) (original : VaultError) : VaultError :=
  if store.validation = .degraded ∧ store.rollbackRecovery.isNone then .rollbackUnverified
  else original

/-- Roll back when an operation of the edit fails. -/
def orRollback {α : Type} (snapshots : List AclSnapshot)
    (groupSnapshots : List GroupMembershipSnapshot) (capture : PolicyRollbackCapture)
    (operation : Act α) : Act α := fun w =>
  match operation w with
  | (.ok a, w') => (.ok a, w')
  | (.error e, w') =>
    let rolled := rollbackAfterApply platform snapshots groupSnapshots capture w'
    (.error (policyRollbackError rolled.store e), rolled)

/-- Commit the file; whether it is still the prior one is looked up before anything is restored. -/
def commitOrRollback (snapshots : List AclSnapshot)
    (groupSnapshots : List GroupMembershipSnapshot) (capture : PolicyRollbackCapture)
    (operation : Act Unit) : Act Unit := fun w =>
  match operation w with
  | (.ok (), w') => (.ok (), w')
  | (.error _, w') =>
    let confirmed : Except VaultError Bool × World := match capture.checkpoint with
      | none => (.ok false, w')
      | some prior => policyBytesMatch prior.policyBytes w'
    let rolled := rollbackAfterApply platform snapshots groupSnapshots capture confirmed.2
    match confirmed.1 with
    | .ok true => (.error (policyRollbackError rolled.store .persistence), rolled)
    | _ => (.error .commitUnconfirmed, rolled)

end Rollback

end VaultPolicy
