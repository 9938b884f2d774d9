import Mathlib.Data.Finset.Sort
import WinCommander.Library.Fallible
import WinCommander.VaultAccess.Authorize

/-!
# What a policy edit touches

The files of the service, the access lists of the containers, and the local groups of Windows.  Every
operation may fail, and a failed one may have made its change.
-/

namespace VaultPolicy

open AccessStore Outcome

section World

inductive FileState where
  | absent
  | unreadable
  | holds (bytes : List UInt8)
  deriving DecidableEq

/-- The access list of a file: one that the service writes, or another one. -/
inductive Acl where
  | service (grants : List ResolvedGrant)
  | other (descriptor : List UInt8)
  deriving DecidableEq

structure AclSnapshot where
  path : String
  acl : Acl
  deriving DecidableEq

structure GroupMembershipSnapshot where
  group : String
  members : List String
  existed : Bool
  deriving DecidableEq

structure PolicyRollbackCheckpoint where
  policyBytes : Option (List UInt8)
  directoryBytes : Option (List UInt8)
  deriving DecidableEq

structure PolicyRollbackCapture where
  checkpoint : Option PolicyRollbackCheckpoint
  targetIdentities : List (String × String)

structure PolicyRollbackRecovery where
  checkpoint : PolicyRollbackCheckpoint
  snapshots : List AclSnapshot
  groupSnapshots : List GroupMembershipSnapshot
  targetIdentities : List (String × String)

structure PolicyStore extends AccessState where
  rollbackRecovery : Option PolicyRollbackRecovery

/-- A failure that the environment has in store for an operation: whether the change was made all
the same, and what a failed change of a group leaves. -/
structure Fault where
  error : VaultError
  took : Bool
  members : Option (Finset String)

structure World where
  store : PolicyStore
  policyFile : FileState
  directoryFile : FileState
  acls : String → Acl
  groups : String → Option (Finset String)
  isMissing : String → Bool
  identity : String → Except VaultError String
  principals : String → Except VaultError ResolvedPrincipal
  normalized : String → Except VaultError String
  faults : List (Option Fault)

/-- What does not change: functions of the standard library, and the texts of the two files. -/
structure Platform where
  digest : String → String
  hasParent : String → Bool
  isAbsolute : String → Bool
  encode : PersistedPolicy → List UInt8
  decode : List UInt8 → Option PersistedPolicy
  decodeDirectory : List UInt8 → Option VaultAccessDirectory

def World.resolver (platform : Platform) (w : World) : Resolver :=
  ⟨w.identity, w.principals, platform.hasParent, platform.digest⟩

abbrev Act (α : Type) := Fallible World VaultError α

end World

section Operations

def World.fault (w : World) : Option Fault := w.faults.head?.join

def World.next (w : World) : World := { w with faults := w.faults.tail }

/-- A reading, which may fail. -/
def attempt {α : Type} (read : World → Except VaultError α) : Act α := fun w =>
  match w.fault with
  | some fault => (.error fault.error, w.next)
  | none => (read w, w.next)

/-- A change, which may fail, and then be made or broken off. -/
def change (done : World → World) (broken : Fault → World → World) : Act Unit := fun w =>
  match w.fault with
  | some fault => (.error fault.error, broken fault w.next)
  | none => (.ok (), done w.next)

def World.setAcl (w : World) (path : String) (acl : Acl) : World :=
  { w with acls := Function.update w.acls path acl }

def World.setGroup (w : World) (group : String) (members : Option (Finset String)) : World :=
  { w with groups := Function.update w.groups group members }

/-- A file that cannot be read for now reads as unreadable. -/
def readFile (file : World → FileState) : Act FileState := fun w =>
  match w.fault with
  | some _ => (.ok .unreadable, w.next)
  | none => (.ok (file w), w.next)

def writePolicy (bytes : List UInt8) : Act Unit :=
  change (fun w => { w with policyFile := .holds bytes })
    fun fault w => if fault.took then { w with policyFile := .holds bytes } else w

/-- Removing what is not there is no failure. -/
def removePolicy : Act Unit :=
  change (fun w => { w with policyFile := .absent })
    fun fault w => if fault.took then { w with policyFile := .absent } else w

def verifyPolicyStorage : Act Unit := attempt fun _ => .ok ()

def setAcl (path : String) (acl : Acl) : Act Unit :=
  change (·.setAcl path acl) fun fault w => if fault.took then w.setAcl path acl else w

def applyAndVerify (plan : VaultAclPlan) : Act Unit := setAcl plan.container (.service plan.grants)

def capturePolicySnapshot (plan : VaultAclPlan) (expectedIdentity : String) : Act AclSnapshot :=
  attempt fun w => do
    let identity ← w.identity plan.container
    refuseIf (identity ≠ expectedIdentity) .containerIdentity
    pure ⟨plan.container, w.acls plan.container⟩

def builtinUsersSid : String := "S-1-5-32-545"

def unmanagedAcl : Acl := .service [⟨builtinUsersSid, .write⟩]

/-- What is checked before a container is given back: `none` when there is none. -/
def decommissionTarget (plan : VaultAclPlan) (expectedIdentity : String) (w : World) :
    Except VaultError (Option AclSnapshot) :=
  if w.isMissing plan.container then .ok none
  else do
    refuseIf (w.identity plan.container ≠ .ok expectedIdentity) .containerIdentity
    refuseIf (w.acls plan.container ≠ .service plan.grants) .aclReadback
    pure (some ⟨plan.container, w.acls plan.container⟩)

/-- Give a container back to the users of the machine. -/
def decommissionAndSnapshot (plan : VaultAclPlan) (expectedIdentity : String) :
    Act (List AclSnapshot) := fun w =>
  match w.fault, decommissionTarget plan expectedIdentity w with
  | none, .error e => (.error e, w.next)
  | none, .ok none => (.ok [], w.next)
  | none, .ok (some snapshot) => (.ok [snapshot], w.next.setAcl plan.container unmanagedAcl)
  | some fault, .ok (some _) => (.error fault.error,
      if fault.took then w.next.setAcl plan.container unmanagedAcl else w.next)
  | some fault, _ => (.error fault.error, w.next)

def restoreVerified (identities : List (String × String)) (snapshot : AclSnapshot) : Act Unit := do
  attempt fun w => do
    let expected ← okOr (identities.lookup snapshot.path) .containerIdentity
    refuseIf (w.identity snapshot.path ≠ .ok expected) .containerIdentity
  setAcl snapshot.path snapshot.acl
  attempt fun w => refuseIf (w.acls snapshot.path ≠ snapshot.acl) .aclReadback

def verifyRestored (snapshot : AclSnapshot) : Act Unit :=
  attempt fun w => refuseIf (w.acls snapshot.path ≠ snapshot.acl) .aclReadback

def verifyExact (plan : VaultAclPlan) : Act Unit :=
  attempt fun w => refuseIf (w.acls plan.container ≠ .service plan.grants) .aclReadback

def reconcileExactMembers (group : String) (members : List String) : Act Unit :=
  change (·.setGroup group (some members.toFinset)) fun fault w => w.setGroup group fault.members

def deleteServiceOwnedGroup (group : String) : Act Unit :=
  change (·.setGroup group none) fun fault w => if fault.took then w.setGroup group none else w

def groupSnapshot (groups : String → Option (Finset String)) (group : String) :
    GroupMembershipSnapshot :=
  match groups group with
  | none => ⟨group, [], false⟩
  | some members => ⟨group, members.sort (· ≤ ·), true⟩

/-- One snapshot for each group that is named. -/
def snapshotGroups (plans : List GroupMembershipPlan) : Act (List GroupMembershipSnapshot) :=
  Fallible.collect (fun group => attempt fun w => .ok (groupSnapshot w.groups group))
    (plans.map GroupMembershipPlan.group).eraseDups

def restoreGroup (snapshot : GroupMembershipSnapshot) : Act Unit :=
  if snapshot.existed then reconcileExactMembers snapshot.group snapshot.members
  else deleteServiceOwnedGroup snapshot.group

end Operations

section Keeps

variable {γ : Type} {g : World → γ} {α : Type}

theorem attempt_ok {read : World → Except VaultError α} {a : α} {w w' : World} :
    attempt read w = (.ok a, w') ↔ w.fault = none ∧ read w = .ok a ∧ w' = w.next := by
  unfold attempt
  cases w.fault with
  | some fault => simp
  | none => simp [eq_comm]

theorem change_ok {done : World → World} {broken : Fault → World → World} {w w' : World} :
    change done broken w = (.ok (), w') ↔ w.fault = none ∧ w' = done w.next := by
  unfold change
  cases w.fault with
  | some fault => simp
  | none => simp [eq_comm]

/-- A part of the world that the list of faults is no part of. -/
def Ignores (g : World → γ) : Prop := ∀ w, g w.next = g w

theorem frames_attempt (hg : Ignores g) (read : World → Except VaultError α) :
    Fallible.Frames g (attempt read) := by
  intro w
  unfold attempt
  cases w.fault <;> exact hg w

theorem frames_readFile (hg : Ignores g) (file : World → FileState) :
    Fallible.Frames g (readFile file) := by
  intro w
  unfold readFile
  cases w.fault <;> exact hg w

theorem frames_snapshotGroups (hg : Ignores g) (plans : List GroupMembershipPlan) :
    Fallible.Frames g (snapshotGroups plans) :=
  Fallible.Frames.collect (fun _ => frames_attempt hg _) _

/-- A snapshot is what the groups are. -/
theorem snapshotGroups_ok {plans : List GroupMembershipPlan}
    {snapshots : List GroupMembershipSnapshot} {w w' : World}
    (h : snapshotGroups plans w = (.ok snapshots, w')) :
    snapshots = (plans.map GroupMembershipPlan.group).eraseDups.map (groupSnapshot w.groups) := by
  refine Fallible.collect_ok (g := World.groups) ?_ ?_ h
  · intro group
    exact frames_attempt (fun _ => rfl) _
  · intro group w snapshot w' hsnapshot
    have hread := (attempt_ok.mp hsnapshot).2.1
    exact (Except.ok.inj hread).symm

theorem groupSnapshot_existed (groups : String → Option (Finset String)) (group : String) :
    (groupSnapshot groups group).existed = (groups group).isSome := by
  unfold groupSnapshot
  cases groups group <;> rfl

theorem groupSnapshot_group (groups : String → Option (Finset String)) (group : String) :
    (groupSnapshot groups group).group = group := by
  unfold groupSnapshot
  cases groups group <;> rfl

theorem keeps_change (hg : Ignores g) {done : World → World} (hdone : ∀ w, g (done w) = g w)
    (broken : Fault → World → World) : Fallible.Keeps g (change done broken) := by
  intro w _ w' h
  rw [(change_ok.mp h).2, hdone, hg]

end Keeps

end VaultPolicy
