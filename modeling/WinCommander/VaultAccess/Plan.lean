import Mathlib.Data.List.Sort
import Mathlib.Data.String.Basic
import WinCommander.Library.Keyed
import WinCommander.Library.Outcome
import WinCommander.Library.Strongest
import WinCommander.VaultAccess.Types

/-!
# The access that a policy entry gives

The grants of an entry are resolved to account identifiers, directory groups to their current
members.  The same grants are installed on the container, authorise a mount, and protect the mounted
root.
-/

namespace AccessStore

open AsciiText Outcome Strongest

section Principals

inductive PrincipalKind where
  | user
  | group
  deriving DecidableEq

structure ResolvedPrincipal where
  sid : String
  kind : PrincipalKind
  deriving DecidableEq

def VaultAccess.rank : VaultAccess → ℕ
  | .read => 0
  | .write => 1

instance : LinearOrder VaultAccess :=
  LinearOrder.lift' VaultAccess.rank (by
    intro a b h
    cases a <;> cases b <;> first | rfl | simp [VaultAccess.rank] at h)

/-- A grant that is there is only ever raised. -/
def mergeGrant (sid : String) (access : VaultAccess) : List ResolvedGrant → List ResolvedGrant
  | [] => [⟨sid, access⟩]
  | existing :: grants =>
    if existing.sid = sid then
      (if access = .write then { existing with access := .write } else existing) :: grants
    else existing :: mergeGrant sid access grants

def localName (name : String) : String :=
  String.ofList (name.toList.reverse.takeWhile (· ≠ '\\')).reverse

/-- The members of the directory group that a principal names. -/
def accessDirectoryGroupMembers (directory : VaultAccessDirectory) (principalName : String) :
    Option (List String) :=
  (directory.groups.find? fun group => eqIgnoreCase group.localGroup (localName principalName)).map
    VaultAccessDirectoryGroup.memberSids

def namedPrincipals (entry : VaultAccessEntry) : List String :=
  entry.ownerAccount :: entry.grants.map VaultGrantInput.principalName

/-- The members of the directory groups that a machine vault names. -/
def fleetGroupMemberSids (entry : VaultAccessEntry) (directory : VaultAccessDirectory) :
    Option (List String) :=
  if entry.mount.presentation ≠ .machine then none
  else
    let groups := (namedPrincipals entry).filterMap (accessDirectoryGroupMembers directory)
    if groups = [] then none else some groups.flatten

end Principals

section Plan

structure GroupMembershipPlan where
  group : String
  members : List String
  access : VaultAccess
  deriving DecidableEq

structure VaultAclPlan where
  container : String
  grants : List ResolvedGrant
  authorizationGrants : List ResolvedGrant
  managedGroups : List GroupMembershipPlan
  deriving DecidableEq

/-- What the service asks of Windows while it plans.  The name of a service-owned group is a digest
of the entry's id. -/
structure Resolver where
  stableFileIdentity : String → Except VaultError String
  resolvePrincipal : String → Except VaultError ResolvedPrincipal
  hasParent : String → Bool
  digest : String → String

variable (resolver : Resolver) (directory : VaultAccessDirectory)

def managedGroupName (digest : String → String) (entryId : String) (access : VaultAccess) : String :=
  "WC-Vault-" ++ digest entryId ++ (if access = .write then "-W" else "-R")

/-- The grants of an entry while they are collected. -/
structure Draft where
  grants : List ResolvedGrant
  authorizationGrants : List ResolvedGrant
  readMembers : List String
  writeMembers : List String

def Draft.give (draft : Draft) (sid : String) (access : VaultAccess) : Draft :=
  { draft with
    grants := mergeGrant sid access draft.grants
    authorizationGrants := mergeGrant sid access draft.authorizationGrants }

def Draft.addMember (draft : Draft) (sid : String) : VaultAccess → Draft
  | .read => { draft with readMembers := draft.readMembers ++ [sid] }
  | .write => { draft with writeMembers := draft.writeMembers ++ [sid] }

def Draft.giveAll (draft : Draft) (sids : List String) (access : VaultAccess) : Draft :=
  sids.foldl (fun draft sid => draft.give sid access) draft

/-- The owner writes.  A record with a fixed owner takes no group and no other user for it. -/
def draftOwner (entry : VaultAccessEntry) : Except VaultError Draft :=
  let empty : Draft := ⟨[], [], [], []⟩
  match accessDirectoryGroupMembers directory entry.ownerAccount with
  | some members => .ok (empty.giveAll members .write)
  | none => do
    let owner ← resolver.resolvePrincipal entry.ownerAccount
    match owner.kind with
    | .user => do
      refuseIf (¬ (entry.primaryOwnerSid = none ∨ entry.primaryOwnerSid = some owner.sid)) .validation
      pure ((empty.addMember owner.sid .write).give owner.sid .write)
    | .group => do
      refuseIf (entry.primaryOwnerSid ≠ none) .validation
      pure (empty.give owner.sid .write)

/-- A directory group stands for its members, never for its own identifier. -/
def draftGrant (draft : Draft) (grant : VaultGrantInput) : Except VaultError Draft :=
  match accessDirectoryGroupMembers directory grant.principalName with
  | some members => .ok (draft.giveAll members grant.access)
  | none => do
    let principal ← resolver.resolvePrincipal grant.principalName
    match principal.kind with
    | .user => pure ((draft.give principal.sid grant.access).addMember principal.sid grant.access)
    | .group => pure (draft.give principal.sid grant.access)

def draftEntry (entry : VaultAccessEntry) : Except VaultError Draft := do
  let draft ← draftOwner resolver directory entry
  entry.grants.foldlM (draftGrant resolver directory) draft

/-- Only members of the named groups keep what they were given. -/
def Draft.restrict (draft : Draft) : Option (List String) → Draft
  | none => draft
  | some members => {
    grants := draft.grants.filter fun grant => grant.sid ∈ members
    authorizationGrants := draft.authorizationGrants.filter fun grant => grant.sid ∈ members
    readMembers := draft.readMembers.filter (· ∈ members)
    writeMembers := draft.writeMembers.filter (· ∈ members) }

/-- The service-owned groups of an entry, one for each access level that has members. -/
def managedGroups (entryId : String) (draft : Draft) : List GroupMembershipPlan :=
  [(VaultAccess.read, draft.readMembers), (VaultAccess.write, draft.writeMembers)].filterMap
    fun level =>
      let members := (Keyed.sortOn id level.2).destutter (· ≠ ·)
      if members = [] then none
      else some ⟨managedGroupName resolver.digest entryId level.1, members, level.1⟩

def planEntry (entry : VaultAccessEntry) : Except VaultError (VaultAccessEntry × VaultAclPlan) := do
  let identity ← resolver.stableFileIdentity entry.containerPath
  refuseIf (∃ expected ∈ entry.containerIdentity, expected ≠ identity) .containerIdentity
  let collected ← draftEntry resolver directory entry
  let draft := collected.restrict (fleetGroupMemberSids entry directory)
  refuseIf (resolver.hasParent entry.containerPath = false) .validation
  pure ({ entry with containerIdentity := some identity },
    ⟨entry.containerPath, draft.grants, draft.authorizationGrants,
      managedGroups resolver entry.id draft⟩)

/-- Every entry is planned, and no two are for one container. -/
def resolveAndPlan (policy : VaultAccessPolicy) :
    Except VaultError (List (VaultAccessEntry × VaultAclPlan)) := do
  let resolved ← policy.entries.mapM (planEntry resolver directory)
  refuseIf (¬ (resolved.map fun planned => planned.1.containerIdentity).Nodup) .validation
  pure resolved

end Plan

section Given

variable (resolver : Resolver) (directory : VaultAccessDirectory)

/-- Whom a name stands for: the members of the directory group of that name, else the account that
Windows resolves it to. -/
inductive StandsFor (name : String) : String → Prop where
  | member {members : List String} {sid : String} :
      accessDirectoryGroupMembers directory name = some members → sid ∈ members → StandsFor name sid
  | account {principal : ResolvedPrincipal} :
      accessDirectoryGroupMembers directory name = none →
      resolver.resolvePrincipal name = .ok principal → StandsFor name principal.sid

/-- What the owner clause and the grants of an entry give, each on its own. -/
inductive Gives (entry : VaultAccessEntry) : String → VaultAccess → Prop where
  | owner {sid : String} : StandsFor resolver directory entry.ownerAccount sid → Gives entry sid .write
  | grant {grant : VaultGrantInput} {sid : String} : grant ∈ entry.grants →
      StandsFor resolver directory grant.principalName sid → Gives entry sid grant.access

/-- The identifiers to which the named directory groups restrict an entry. -/
def Retained (entry : VaultAccessEntry) (sid : String) : Prop :=
  ∀ members, fleetGroupMemberSids entry directory = some members → sid ∈ members

end Given

section Greatest

variable {resolver : Resolver} {directory : VaultAccessDirectory}

def ResolvedGrant.pair (grant : ResolvedGrant) : String × VaultAccess := (grant.sid, grant.access)

theorem mem_map_pair {grants : List ResolvedGrant} {grant : ResolvedGrant} :
    (grant.sid, grant.access) ∈ grants.map ResolvedGrant.pair ↔ grant ∈ grants := by
  constructor
  · intro h
    obtain ⟨g, hg, heq⟩ := List.mem_map.mp h
    simp only [ResolvedGrant.pair, Prod.mk.injEq] at heq
    obtain ⟨hsid, haccess⟩ := heq
    cases g
    cases grant
    simp_all
  · exact List.mem_map_of_mem

theorem mergeGrant_pair (sid : String) (access : VaultAccess) (grants : List ResolvedGrant) :
    (mergeGrant sid access grants).map ResolvedGrant.pair =
      raise sid access (grants.map ResolvedGrant.pair) := by
  induction grants with
  | nil => rfl
  | cons existing grants ih =>
    by_cases h : existing.sid = sid
    · have hmax : (if access = .write then { existing with access := .write } else existing).pair =
          (existing.sid, max existing.access access) := by
        cases existing with
        | mk s a => cases a <;> cases access <;> rfl
      simp only [mergeGrant, raise, List.map_cons, h, if_true, ResolvedGrant.pair] at hmax ⊢
      rw [hmax]
    · simp only [mergeGrant, raise, List.map_cons, h, if_false, ResolvedGrant.pair]
      rw [← ih]

/-- Both lists of a draft have the greatest access that was given to each identifier. -/
structure Draft.Keeps (draft : Draft) (given : String → VaultAccess → Prop) : Prop where
  grants : Greatest given (draft.grants.map ResolvedGrant.pair)
  authorization : draft.authorizationGrants = draft.grants

theorem Draft.Keeps.congr {draft : Draft} {given given' : String → VaultAccess → Prop}
    (h : draft.Keeps given) (hgiven : ∀ sid access, given sid access ↔ given' sid access) :
    draft.Keeps given' :=
  ⟨h.grants.congr hgiven, h.authorization⟩

theorem Draft.Keeps.addMember {draft : Draft} {given : String → VaultAccess → Prop}
    (h : draft.Keeps given) (sid : String) (access : VaultAccess) :
    (draft.addMember sid access).Keeps given := by
  cases access <;> exact ⟨h.grants, h.authorization⟩

theorem Draft.Keeps.give {draft : Draft} {given : String → VaultAccess → Prop}
    (h : draft.Keeps given) (sid : String) (access : VaultAccess) :
    (draft.give sid access).Keeps (fun s a => given s a ∨ (s = sid ∧ a = access)) := by
  refine ⟨?_, ?_⟩
  · have hraise := h.grants.raise sid access
    rw [← mergeGrant_pair] at hraise
    exact hraise
  · simp only [Draft.give, h.authorization]

theorem Draft.Keeps.giveAll {draft : Draft} {given : String → VaultAccess → Prop}
    (h : draft.Keeps given) (sids : List String) (access : VaultAccess) :
    (draft.giveAll sids access).Keeps (fun s a => given s a ∨ (s ∈ sids ∧ a = access)) := by
  induction sids generalizing draft given with
  | nil => exact h.congr (by simp)
  | cons sid sids ih =>
    refine (ih (h.give sid access)).congr ?_
    intro s a
    rw [List.mem_cons]
    tauto

theorem standsFor_of_some {name sid : String} {members : List String}
    (h : accessDirectoryGroupMembers directory name = some members) :
    StandsFor resolver directory name sid ↔ sid ∈ members := by
  constructor
  · intro hstands
    cases hstands with
    | member hmembers hmem =>
      rw [h, Option.some.injEq] at hmembers
      exact hmembers ▸ hmem
    | account hnone _ =>
      rw [h] at hnone
      cases hnone
  · exact StandsFor.member h

theorem standsFor_of_none {name sid : String} {principal : ResolvedPrincipal}
    (h : accessDirectoryGroupMembers directory name = none)
    (hresolve : resolver.resolvePrincipal name = .ok principal) :
    StandsFor resolver directory name sid ↔ sid = principal.sid := by
  constructor
  · intro hstands
    cases hstands with
    | member hmembers _ =>
      rw [h] at hmembers
      cases hmembers
    | account _ hother =>
      rw [hresolve, Except.ok.injEq] at hother
      rw [hother]
  · rintro rfl
    exact StandsFor.account h hresolve

theorem keeps_empty : Draft.Keeps ⟨[], [], [], []⟩ (fun _ _ => False) := ⟨greatest_nil, rfl⟩

theorem draftOwner_keeps {entry : VaultAccessEntry} {draft : Draft}
    (h : draftOwner resolver directory entry = .ok draft) :
    draft.Keeps fun sid access =>
      StandsFor resolver directory entry.ownerAccount sid ∧ access = .write := by
  unfold draftOwner at h
  cases hgroup : accessDirectoryGroupMembers directory entry.ownerAccount with
  | some members =>
    simp only [hgroup, Except.ok.injEq] at h
    rw [← h]
    refine (keeps_empty.giveAll members .write).congr ?_
    intro sid access
    rw [standsFor_of_some hgroup]
    simp
  | none =>
    simp only [hgroup, bind_ok] at h
    obtain ⟨owner, howner, h⟩ := h
    have hgiven : ∀ sid access, (False ∨ (sid = owner.sid ∧ access = VaultAccess.write)) ↔
        (StandsFor resolver directory entry.ownerAccount sid ∧ access = .write) := by
      intro sid access
      rw [standsFor_of_none hgroup howner]
      simp
    cases hkind : owner.kind with
    | user =>
      simp only [hkind, bind_ok, refuseIf_ok, pure_ok] at h
      obtain ⟨_, _, h⟩ := h
      rw [← h]
      exact ((keeps_empty.addMember owner.sid .write).give owner.sid .write).congr hgiven
    | group =>
      simp only [hkind, bind_ok, refuseIf_ok, pure_ok] at h
      obtain ⟨_, _, h⟩ := h
      rw [← h]
      exact (keeps_empty.give owner.sid .write).congr hgiven

theorem draftGrant_keeps {draft draft' : Draft} {grant : VaultGrantInput}
    {given : String → VaultAccess → Prop} (h : draftGrant resolver directory draft grant = .ok draft')
    (hkeeps : draft.Keeps given) :
    draft'.Keeps fun sid access => given sid access ∨
      (StandsFor resolver directory grant.principalName sid ∧ access = grant.access) := by
  unfold draftGrant at h
  cases hgroup : accessDirectoryGroupMembers directory grant.principalName with
  | some members =>
    simp only [hgroup, Except.ok.injEq] at h
    rw [← h]
    refine (hkeeps.giveAll members grant.access).congr ?_
    intro sid access
    rw [standsFor_of_some hgroup]
  | none =>
    simp only [hgroup, bind_ok] at h
    obtain ⟨principal, hresolve, h⟩ := h
    have hgive : (draft.give principal.sid grant.access).Keeps fun sid access => given sid access ∨
        (StandsFor resolver directory grant.principalName sid ∧ access = grant.access) := by
      refine (hkeeps.give principal.sid grant.access).congr ?_
      intro sid access
      rw [standsFor_of_none hgroup hresolve]
    cases hkind : principal.kind with
    | user =>
      simp only [hkind, pure_ok] at h
      rw [← h]
      exact hgive.addMember principal.sid grant.access
    | group =>
      simp only [hkind, pure_ok] at h
      rw [← h]
      exact hgive

theorem draftGrants_keeps {grants : List VaultGrantInput} {draft draft' : Draft}
    {given : String → VaultAccess → Prop}
    (h : grants.foldlM (draftGrant resolver directory) draft = .ok draft')
    (hkeeps : draft.Keeps given) :
    draft'.Keeps fun sid access => given sid access ∨ ∃ grant ∈ grants,
      StandsFor resolver directory grant.principalName sid ∧ access = grant.access := by
  induction grants generalizing draft given with
  | nil =>
    rw [List.foldlM_nil, pure_ok] at h
    rw [← h]
    exact hkeeps.congr (by simp)
  | cons grant grants ih =>
    rw [List.foldlM_cons, bind_ok] at h
    obtain ⟨next, hnext, h⟩ := h
    refine (ih h (draftGrant_keeps hnext hkeeps)).congr ?_
    intro sid access
    simp only [List.mem_cons, exists_eq_or_imp]
    tauto

theorem gives_iff {entry : VaultAccessEntry} {sid : String} {access : VaultAccess} :
    Gives resolver directory entry sid access ↔
      (StandsFor resolver directory entry.ownerAccount sid ∧ access = .write) ∨
        ∃ grant ∈ entry.grants,
          StandsFor resolver directory grant.principalName sid ∧ access = grant.access := by
  constructor
  · intro h
    cases h with
    | owner h => exact Or.inl ⟨h, rfl⟩
    | grant hmem h => exact Or.inr ⟨_, hmem, h, rfl⟩
  · rintro (⟨h, rfl⟩ | ⟨grant, hmem, h, rfl⟩)
    · exact Gives.owner h
    · exact Gives.grant hmem h

theorem draftEntry_keeps {entry : VaultAccessEntry} {draft : Draft}
    (h : draftEntry resolver directory entry = .ok draft) :
    draft.Keeps (Gives resolver directory entry) := by
  unfold draftEntry at h
  rw [bind_ok] at h
  obtain ⟨owner, howner, h⟩ := h
  refine (draftGrants_keeps h (draftOwner_keeps howner)).congr ?_
  intro sid access
  rw [gives_iff]

theorem Draft.Keeps.restrict {draft : Draft} {given : String → VaultAccess → Prop}
    (h : draft.Keeps given) (members : Option (List String)) :
    (draft.restrict members).Keeps fun sid access =>
      given sid access ∧ ∀ sids, members = some sids → sid ∈ sids := by
  cases members with
  | none => exact h.congr (by simp)
  | some sids =>
    refine ⟨?_, ?_⟩
    · have hfilter := h.grants.filter (· ∈ sids)
      rw [List.filter_map] at hfilter
      exact hfilter.congr (by simp)
    · simp only [Draft.restrict, h.authorization]

/-- What one entry is planned to give. -/
structure PlansGreatest (resolver : Resolver) (directory : VaultAccessDirectory)
    (entry : VaultAccessEntry) (planned : VaultAccessEntry × VaultAclPlan) : Prop where
  grants : Greatest
    (fun sid access => Gives resolver directory entry sid access ∧ Retained directory entry sid)
    (planned.2.grants.map ResolvedGrant.pair)
  authorization : planned.2.authorizationGrants = planned.2.grants

theorem planEntry_ok {entry : VaultAccessEntry} {planned : VaultAccessEntry × VaultAclPlan} :
    planEntry resolver directory entry = .ok planned ↔
      ∃ identity draft, resolver.stableFileIdentity entry.containerPath = .ok identity ∧
        (∀ expected ∈ entry.containerIdentity, expected = identity) ∧
        draftEntry resolver directory entry = .ok draft ∧
        resolver.hasParent entry.containerPath = true ∧
        planned = ({ entry with containerIdentity := some identity },
          let restricted := draft.restrict (fleetGroupMemberSids entry directory)
          ⟨entry.containerPath, restricted.grants, restricted.authorizationGrants,
            managedGroups resolver entry.id restricted⟩) := by
  unfold planEntry
  simp only [bind_ok, refuseIf_ok, pure_ok, not_exists, not_and, not_not, Bool.not_eq_false]
  constructor
  · rintro ⟨identity, hidentity, _, hexpected, draft, hdraft, _, hparent, rfl⟩
    exact ⟨identity, draft, hidentity, hexpected, hdraft, hparent, rfl⟩
  · rintro ⟨identity, draft, hidentity, hexpected, hdraft, hparent, rfl⟩
    exact ⟨identity, hidentity, (), hexpected, draft, hdraft, (), hparent, rfl⟩

theorem planEntry_greatest {entry : VaultAccessEntry} {planned : VaultAccessEntry × VaultAclPlan}
    (h : planEntry resolver directory entry = .ok planned) :
    PlansGreatest resolver directory entry planned := by
  obtain ⟨identity, draft, _, _, hdraft, _, rfl⟩ := planEntry_ok.mp h
  have hkeeps := (draftEntry_keeps hdraft).restrict (fleetGroupMemberSids entry directory)
  exact ⟨hkeeps.grants, hkeeps.authorization⟩

end Greatest

section Order

variable {resolver : Resolver} {directory : VaultAccessDirectory}

/-- Two entries that differ in the order of their grants at most. -/
def UpToGrantOrder (entry entry' : VaultAccessEntry) : Prop :=
  ∃ grants, entry.grants.Perm grants ∧ entry' = { entry with grants }

/-- A name that is a directory group's, or that Windows resolves. -/
def Resolvable (resolver : Resolver) (directory : VaultAccessDirectory) (name : String) : Prop :=
  accessDirectoryGroupMembers directory name ≠ none ∨
    ∃ principal, resolver.resolvePrincipal name = .ok principal

theorem draftGrant_isOk (draft : Draft) (grant : VaultGrantInput) :
    (∃ draft', draftGrant resolver directory draft grant = .ok draft') ↔
      Resolvable resolver directory grant.principalName := by
  unfold draftGrant Resolvable
  cases accessDirectoryGroupMembers directory grant.principalName with
  | some members => simp
  | none =>
    cases resolver.resolvePrincipal grant.principalName with
    | error e => simp [bind, Except.bind]
    | ok principal => cases hkind : principal.kind <;> simp [bind, Except.bind, hkind]

theorem draftGrants_isOk (grants : List VaultGrantInput) (draft : Draft) :
    (∃ draft', grants.foldlM (draftGrant resolver directory) draft = .ok draft') ↔
      ∀ grant ∈ grants, Resolvable resolver directory grant.principalName := by
  induction grants generalizing draft with
  | nil => simp
  | cons grant grants ih =>
    simp only [List.foldlM_cons, bind_ok, List.mem_cons, forall_eq_or_imp]
    constructor
    · rintro ⟨draft', next, hnext, h⟩
      exact ⟨(draftGrant_isOk draft grant).mp ⟨next, hnext⟩, (ih next).mp ⟨draft', h⟩⟩
    · rintro ⟨hhead, htail⟩
      obtain ⟨next, hnext⟩ := (draftGrant_isOk draft grant).mpr hhead
      obtain ⟨draft', h⟩ := (ih next).mpr htail
      exact ⟨draft', next, hnext, h⟩

theorem draftEntry_isOk {entry entry' : VaultAccessEntry} (h : UpToGrantOrder entry entry')
    {draft : Draft} (hdraft : draftEntry resolver directory entry = .ok draft) :
    ∃ draft', draftEntry resolver directory entry' = .ok draft' := by
  obtain ⟨grants, hperm, rfl⟩ := h
  unfold draftEntry at hdraft ⊢
  rw [bind_ok] at hdraft
  obtain ⟨owner, howner, hgrants⟩ := hdraft
  have hresolvable := (draftGrants_isOk entry.grants owner).mp ⟨draft, hgrants⟩
  have hpermuted : ∀ grant ∈ grants, Resolvable resolver directory grant.principalName := by
    intro grant hmem
    exact hresolvable grant (hperm.mem_iff.mpr hmem)
  obtain ⟨draft', hdraft'⟩ := (draftGrants_isOk grants owner).mpr hpermuted
  have howner' : draftOwner resolver directory { entry with grants } = .ok owner := howner
  refine ⟨draft', ?_⟩
  rw [bind_ok]
  exact ⟨owner, howner', hdraft'⟩

theorem mem_fleetGroupMemberSids {entry : VaultAccessEntry} {members : List String}
    (h : fleetGroupMemberSids entry directory = some members) (sid : String) :
    sid ∈ members ↔ ∃ name ∈ namedPrincipals entry, ∃ sids,
      accessDirectoryGroupMembers directory name = some sids ∧ sid ∈ sids := by
  unfold fleetGroupMemberSids at h
  by_cases hmachine : entry.mount.presentation ≠ .machine
  · rw [if_pos hmachine] at h
    cases h
  · by_cases hgroups : (namedPrincipals entry).filterMap (accessDirectoryGroupMembers directory) = []
    · simp only [if_neg hmachine, hgroups, if_true] at h
      cases h
    · simp only [if_neg hmachine, hgroups, if_false, Option.some.injEq] at h
      rw [← h, List.mem_flatten]
      simp only [List.mem_filterMap]
      constructor
      · rintro ⟨sids, ⟨name, hname, hsids⟩, hmem⟩
        exact ⟨name, hname, sids, hsids, hmem⟩
      · rintro ⟨name, hname, sids, hsids, hmem⟩
        exact ⟨sids, ⟨name, hname, hsids⟩, hmem⟩

/-- An entry is not restricted when it is no machine vault or names no directory group. -/
theorem fleetGroupMemberSids_eq_none {entry : VaultAccessEntry} :
    fleetGroupMemberSids entry directory = none ↔ entry.mount.presentation ≠ .machine ∨
      ∀ name ∈ namedPrincipals entry, accessDirectoryGroupMembers directory name = none := by
  unfold fleetGroupMemberSids
  by_cases hmachine : entry.mount.presentation ≠ .machine
  · rw [if_pos hmachine]
    simp [hmachine]
  · rw [if_neg hmachine]
    by_cases hgroups : (namedPrincipals entry).filterMap (accessDirectoryGroupMembers directory) = []
    · simp only [hgroups, if_true]
      rw [List.filterMap_eq_nil_iff] at hgroups
      simp only [true_iff]
      exact Or.inr hgroups
    · simp only [hgroups, if_false, reduceCtorEq, false_iff]
      rw [List.filterMap_eq_nil_iff] at hgroups
      rintro (h | h)
      · exact hmachine h
      · exact hgroups h

theorem mem_namedPrincipals_of_upToGrantOrder {entry entry' : VaultAccessEntry}
    (h : UpToGrantOrder entry entry') (name : String) :
    name ∈ namedPrincipals entry' ↔ name ∈ namedPrincipals entry := by
  obtain ⟨grants, hperm, rfl⟩ := h
  simp only [namedPrincipals, List.mem_cons, List.mem_map, hperm.mem_iff]

theorem presentation_of_upToGrantOrder {entry entry' : VaultAccessEntry}
    (h : UpToGrantOrder entry entry') : entry'.mount = entry.mount := by
  obtain ⟨grants, _, rfl⟩ := h
  rfl

theorem retained_of_upToGrantOrder {entry entry' : VaultAccessEntry}
    (h : UpToGrantOrder entry entry') (sid : String) :
    Retained directory entry' sid ↔ Retained directory entry sid := by
  have hnames := mem_namedPrincipals_of_upToGrantOrder h
  have hnone : fleetGroupMemberSids entry' directory = none ↔
      fleetGroupMemberSids entry directory = none := by
    rw [fleetGroupMemberSids_eq_none, fleetGroupMemberSids_eq_none, presentation_of_upToGrantOrder h]
    simp only [hnames]
  unfold Retained
  cases hold : fleetGroupMemberSids entry directory with
  | none =>
    rw [hnone.mpr hold]
  | some members =>
    cases hnew : fleetGroupMemberSids entry' directory with
    | none =>
      rw [hnone.mp hnew] at hold
      cases hold
    | some members' =>
      have hmem : sid ∈ members' ↔ sid ∈ members := by
        rw [mem_fleetGroupMemberSids hold, mem_fleetGroupMemberSids hnew]
        simp only [hnames]
      simp [hmem]

theorem gives_of_upToGrantOrder {entry entry' : VaultAccessEntry} (h : UpToGrantOrder entry entry')
    (sid : String) (access : VaultAccess) :
    Gives resolver directory entry' sid access ↔ Gives resolver directory entry sid access := by
  obtain ⟨grants, hperm, rfl⟩ := h
  rw [gives_iff, gives_iff]
  simp only [hperm.mem_iff]

/-- Two plans that give the same, up to the order of their grants. -/
def SameAccess (planned planned' : VaultAccessEntry × VaultAclPlan) : Prop :=
  planned'.1.id = planned.1.id ∧
    planned'.1.containerIdentity = planned.1.containerIdentity ∧
    (∀ grant, grant ∈ planned'.2.grants ↔ grant ∈ planned.2.grants) ∧
    ∀ grant, grant ∈ planned'.2.authorizationGrants ↔ grant ∈ planned.2.authorizationGrants

theorem planEntry_upToGrantOrder {entry entry' : VaultAccessEntry} (h : UpToGrantOrder entry entry')
    {planned : VaultAccessEntry × VaultAclPlan}
    (hplanned : planEntry resolver directory entry = .ok planned) :
    ∃ planned', planEntry resolver directory entry' = .ok planned' ∧ SameAccess planned planned' := by
  obtain ⟨identity, draft, hidentity, hexpected, hdraft, hparent, heq⟩ := planEntry_ok.mp hplanned
  obtain ⟨draft', hdraft'⟩ := draftEntry_isOk h hdraft
  have hpath : entry'.containerPath = entry.containerPath ∧
      entry'.containerIdentity = entry.containerIdentity ∧ entry'.id = entry.id := by
    obtain ⟨grants, _, rfl⟩ := h
    exact ⟨rfl, rfl, rfl⟩
  have hok : planEntry resolver directory entry' = .ok ({ entry' with containerIdentity := some identity },
      let restricted := draft'.restrict (fleetGroupMemberSids entry' directory)
      ⟨entry'.containerPath, restricted.grants, restricted.authorizationGrants,
        managedGroups resolver entry'.id restricted⟩) := by
    refine planEntry_ok.mpr ⟨identity, draft', ?_, ?_, hdraft', ?_, rfl⟩
    · rw [hpath.1]
      exact hidentity
    · rw [hpath.2.1]
      exact hexpected
    · rw [hpath.1]
      exact hparent
  have hnew := planEntry_greatest hok
  have hold := planEntry_greatest hplanned
  have hgrants : ∀ grant, grant ∈ (draft'.restrict (fleetGroupMemberSids entry' directory)).grants ↔
      grant ∈ planned.2.grants := by
    intro grant
    rw [← mem_map_pair, ← mem_map_pair]
    refine (hnew.grants.congr ?_).mem_iff hold.grants _
    intro sid access
    rw [gives_of_upToGrantOrder h, retained_of_upToGrantOrder h]
  refine ⟨_, hok, ?_, ?_, hgrants, ?_⟩
  · rw [heq]
    exact hpath.2.2
  · rw [heq]
  · intro grant
    rw [hnew.authorization, hold.authorization]
    exact hgrants grant

theorem resolveAndPlan_ok {policy : VaultAccessPolicy}
    {planned : List (VaultAccessEntry × VaultAclPlan)} :
    resolveAndPlan resolver directory policy = .ok planned ↔
      List.Forall₂ (fun entry plan => planEntry resolver directory entry = .ok plan)
        policy.entries planned ∧
      (planned.map fun plan => plan.1.containerIdentity).Nodup := by
  unfold resolveAndPlan
  simp only [bind_ok, refuseIf_ok, pure_ok, mapM_ok, not_not]
  constructor
  · rintro ⟨_, h, _, hnodup, rfl⟩
    exact ⟨h, hnodup⟩
  · rintro ⟨h, hnodup⟩
    exact ⟨planned, h, (), hnodup, rfl⟩

theorem planEntries_upToGrantOrder {entries entries' : List VaultAccessEntry}
    {planned : List (VaultAccessEntry × VaultAclPlan)}
    (h : List.Forall₂ UpToGrantOrder entries entries')
    (hplanned : List.Forall₂ (fun entry plan => planEntry resolver directory entry = .ok plan)
      entries planned) :
    ∃ planned', List.Forall₂ (fun entry plan => planEntry resolver directory entry = .ok plan)
      entries' planned' ∧ List.Forall₂ SameAccess planned planned' := by
  induction h generalizing planned with
  | nil =>
    cases hplanned
    exact ⟨[], List.Forall₂.nil, List.Forall₂.nil⟩
  | cons hentry _ ih =>
    cases hplanned with
    | cons hplan hrest =>
      obtain ⟨plan', hplan', hsame⟩ := planEntry_upToGrantOrder hentry hplan
      obtain ⟨rest', hrest', hsames⟩ := ih hrest
      exact ⟨plan' :: rest', List.Forall₂.cons hplan' hrest', List.Forall₂.cons hsame hsames⟩

theorem resolveAndPlan_upToGrantOrder {policy policy' : VaultAccessPolicy}
    {planned : List (VaultAccessEntry × VaultAclPlan)}
    (h : List.Forall₂ UpToGrantOrder policy.entries policy'.entries)
    (hplanned : resolveAndPlan resolver directory policy = .ok planned) :
    ∃ planned', resolveAndPlan resolver directory policy' = .ok planned' ∧
      List.Forall₂ SameAccess planned planned' := by
  obtain ⟨hentries, hnodup⟩ := resolveAndPlan_ok.mp hplanned
  obtain ⟨planned', hentries', hsame⟩ := planEntries_upToGrantOrder h hentries
  have hidentities : planned'.map (fun plan => plan.1.containerIdentity) =
      planned.map fun plan => plan.1.containerIdentity := by
    clear hentries hentries' hnodup hplanned
    induction hsame with
    | nil => rfl
    | cons hhead _ ih => rw [List.map_cons, List.map_cons, hhead.2.1, ih]
  refine ⟨planned', resolveAndPlan_ok.mpr ⟨hentries', ?_⟩, hsame⟩
  rw [hidentities]
  exact hnodup

end Order

end AccessStore
