import Mathlib.Data.Finset.Max
import WinCommander.VaultAccess.Plan

/-!
# Authorising a mount

An applied policy keeps the grants that were planned for each entry.  A mount is authorised from
them, and the mounted root is protected with them, both against the access directory of the day.
-/

namespace AccessStore

open Outcome Strongest

section Store

/-- What the store holds of the policy and of the access directory. -/
structure AccessState where
  active : Option PersistedPolicy
  validation : VaultValidationState
  accessDirectory : VaultAccessDirectory
  accessDirectoryHealthy : Bool

inductive VaultMountDenial where
  | notAuthorized
  | mountBrokerUnavailable
  deriving DecidableEq

structure VaultAuthorizeMountResponse where
  allowed : Bool
  launchReady : Bool
  denialReason : Option VaultMountDenial
  mode : Option VaultAccess
  presentation : Option VaultPresentation
  preferredLetter : Option String
  deriving DecidableEq

structure MountPlan where
  acl : VaultAclPlan
  presentation : VaultPresentation
  preferredLetter : Option String
  identity : String
  containerKind : VaultContainerKind
  deriving DecidableEq

def resolvedEntry (planned : VaultAccessEntry × VaultAclPlan) : ResolvedEntry :=
  ⟨planned.1.id, planned.1.containerIdentity.getD "", planned.2.grants,
    planned.2.authorizationGrants⟩

/-- The record that an applied policy leaves. -/
def persistedPolicy (policy : VaultAccessPolicy) (planned : List (VaultAccessEntry × VaultAclPlan))
    (appliedAt : ℤ) : PersistedPolicy :=
  ⟨policy, planned.map resolvedEntry, appliedAt⟩

def PersistedPolicy.entryOf (active : PersistedPolicy) (id : String) : Option VaultAccessEntry :=
  active.policy.entries.find? fun entry => entry.id = id

def PersistedPolicy.resolvedOf (active : PersistedPolicy) (id : String) : Option ResolvedEntry :=
  active.resolved.find? fun resolved => resolved.id = id

def denied (reason : VaultMountDenial) : VaultAuthorizeMountResponse :=
  ⟨false, false, some reason, none, none, none⟩

/-- The strongest access that the caller's identifiers hold. -/
def heldAccess (grants : List ResolvedGrant) (callerSids : List String) : Option VaultAccess :=
  ((grants.filter fun grant => grant.sid ∈ callerSids).map ResolvedGrant.access).max?

def authorizeMount (state : AccessState) (stableFileIdentity : String → Except VaultError String)
    (entryId : String) (callerSids : List String) : VaultAuthorizeMountResponse :=
  if state.validation ≠ .current then denied .notAuthorized
  else match state.active with
  | none => denied .notAuthorized
  | some active => match active.entryOf entryId with
    | none => denied .notAuthorized
    | some entry => match active.resolvedOf entry.id with
      | none => denied .notAuthorized
      | some resolved =>
        if state.accessDirectoryHealthy = false ∨
            (∃ members ∈ fleetGroupMemberSids entry state.accessDirectory,
              ∀ sid ∈ callerSids, sid ∉ members) then denied .notAuthorized
        else if stableFileIdentity entry.containerPath ≠ .ok resolved.identity then
          denied .notAuthorized
        else
          match heldAccess resolved.authorizationGrants callerSids with
          | some access => ⟨true, true, none, some access, some entry.mount.presentation,
              entry.mount.preferredLetter⟩
          | none => denied .notAuthorized

def mountPlan (state : AccessState) (hasParent : String → Bool) (entryId : String) :
    Option MountPlan := do
  let active ← state.active
  if state.validation ≠ .current ∨ state.accessDirectoryHealthy = false then none
  else
    let entry ← active.entryOf entryId
    let resolved ← active.resolvedOf entryId
    let groupMembers := fleetGroupMemberSids entry state.accessDirectory
    let mountedRootGrants := resolved.authorizationGrants.filter fun grant =>
      ∀ members ∈ groupMembers, grant.sid ∈ members
    if hasParent entry.containerPath = false then none
    else some ⟨⟨entry.containerPath, mountedRootGrants, [], []⟩, entry.mount.presentation,
      entry.mount.preferredLetter, resolved.identity, entry.containerKind⟩

end Store

section Lookup

variable {policy : VaultAccessPolicy} {planned : List (VaultAccessEntry × VaultAclPlan)}
  {resolver : Resolver} {directory : VaultAccessDirectory} {id : String}

theorem planEntry_id {entry : VaultAccessEntry} {plan : VaultAccessEntry × VaultAclPlan}
    (h : planEntry resolver directory entry = .ok plan) : plan.1.id = entry.id := by
  obtain ⟨_, _, _, _, _, _, rfl⟩ := planEntry_ok.mp h
  rfl

/-- The record of an applied policy has for each entry what was planned for it. -/
theorem find_planned {entries : List VaultAccessEntry}
    (h : List.Forall₂ (fun entry plan => planEntry resolver directory entry = .ok plan)
      entries planned) :
    (entries.find? (fun entry => entry.id = id) = none ∧
        (planned.map resolvedEntry).find? (fun resolved => resolved.id = id) = none) ∨
      ∃ entry plan, entries.find? (fun entry => entry.id = id) = some entry ∧
        (planned.map resolvedEntry).find? (fun resolved => resolved.id = id) =
          some (resolvedEntry plan) ∧
        planEntry resolver directory entry = .ok plan := by
  induction h with
  | nil => exact Or.inl ⟨rfl, rfl⟩
  | @cons entry plan entries planned hplan _ ih =>
    have hid : (resolvedEntry plan).id = entry.id := planEntry_id hplan
    by_cases h : entry.id = id
    · right
      refine ⟨entry, plan, ?_, ?_, hplan⟩
      · rw [List.find?_cons_of_pos (by simpa using h)]
      · rw [List.map_cons, List.find?_cons_of_pos (by simpa [hid] using h)]
    · rw [List.map_cons, List.find?_cons_of_neg (by simpa using h),
        List.find?_cons_of_neg (by simpa [hid] using h)]
      exact ih

end Lookup

section Held

variable {grants : List ResolvedGrant} {callerSids callerSids' : List String}

theorem heldAccess_eq_some {access : VaultAccess} : heldAccess grants callerSids = some access ↔
    (∃ grant ∈ grants, grant.sid ∈ callerSids ∧ grant.access = access) ∧
      ∀ grant ∈ grants, grant.sid ∈ callerSids → grant.access ≤ access := by
  unfold heldAccess
  rw [List.max?_eq_some_iff]
  simp only [List.mem_map, List.mem_filter, decide_eq_true_eq]
  constructor
  · rintro ⟨⟨grant, ⟨hgrant, hsid⟩, haccess⟩, hle⟩
    refine ⟨⟨grant, hgrant, hsid, haccess⟩, ?_⟩
    intro other hother hsid'
    exact hle other.access ⟨other, ⟨hother, hsid'⟩, rfl⟩
  · rintro ⟨⟨grant, hgrant, hsid, haccess⟩, hle⟩
    refine ⟨⟨grant, ⟨hgrant, hsid⟩, haccess⟩, ?_⟩
    rintro access' ⟨other, ⟨hother, hsid'⟩, rfl⟩
    exact hle other hother hsid'

theorem heldAccess_eq_none : heldAccess grants callerSids = none ↔
    ∀ grant ∈ grants, grant.sid ∉ callerSids := by
  unfold heldAccess
  rw [List.max?_eq_none_iff, List.map_eq_nil_iff, List.filter_eq_nil_iff]
  simp only [decide_eq_true_eq]

theorem heldAccess_congr (h : ∀ sid, sid ∈ callerSids ↔ sid ∈ callerSids') :
    heldAccess grants callerSids = heldAccess grants callerSids' := by
  unfold heldAccess
  simp only [h]

/-- Identifiers may be left out when what they hold is held by others as well. -/
theorem heldAccess_restrict (hsub : ∀ sid ∈ callerSids', sid ∈ callerSids)
    (hcover : ∀ grant ∈ grants, grant.sid ∈ callerSids → ∃ other ∈ grants,
      other.sid ∈ callerSids' ∧ grant.access ≤ other.access) :
    heldAccess grants callerSids = heldAccess grants callerSids' := by
  cases h : heldAccess grants callerSids' with
  | none =>
    rw [heldAccess_eq_none] at h ⊢
    intro grant hgrant hsid
    obtain ⟨other, hother, hmem, _⟩ := hcover grant hgrant hsid
    exact h other hother hmem
  | some access =>
    rw [heldAccess_eq_some] at h ⊢
    obtain ⟨⟨grant, hgrant, hsid, haccess⟩, hle⟩ := h
    refine ⟨⟨grant, hgrant, hsub grant.sid hsid, haccess⟩, ?_⟩
    intro other hother hmem
    obtain ⟨cover, hcovered, hsid', hless⟩ := hcover other hother hmem
    exact hless.trans (hle cover hcovered hsid')

end Held

section Decision

variable {state : AccessState} {stableFileIdentity : String → Except VaultError String}
  {hasParent : String → Bool} {id : String}

/-- A store in which an entry can be mounted at all. -/
structure Opens (state : AccessState) (stableFileIdentity : String → Except VaultError String)
    (id : String) (entry : VaultAccessEntry) (resolved : ResolvedEntry) : Prop where
  current : state.validation = .current
  healthy : state.accessDirectoryHealthy = true
  named : state.active.bind (PersistedPolicy.entryOf · id) = some entry
  planned : state.active.bind (PersistedPolicy.resolvedOf · id) = some resolved
  identity : stableFileIdentity entry.containerPath = .ok resolved.identity

theorem entryOf_id {active : PersistedPolicy} {entry : VaultAccessEntry}
    (h : active.entryOf id = some entry) : entry.id = id := by
  have hfound := List.find?_some h
  simpa using hfound

theorem authorizeMount_of_opens {entry : VaultAccessEntry} {resolved : ResolvedEntry}
    (h : Opens state stableFileIdentity id entry resolved) (callerSids : List String) :
    authorizeMount state stableFileIdentity id callerSids =
      if ∃ members ∈ fleetGroupMemberSids entry state.accessDirectory,
          ∀ sid ∈ callerSids, sid ∉ members then denied .notAuthorized
      else match heldAccess resolved.authorizationGrants callerSids with
        | some access => ⟨true, true, none, some access, some entry.mount.presentation,
            entry.mount.preferredLetter⟩
        | none => denied .notAuthorized := by
  have hentry := h.named
  have hresolved := h.planned
  cases hactive : state.active with
  | none =>
    rw [hactive] at hentry
    cases hentry
  | some active =>
    rw [hactive, Option.bind_some] at hentry hresolved
    have hid := entryOf_id hentry
    simp only [authorizeMount, hactive, hentry, hid, hresolved, h.current, h.healthy, h.identity,
      ne_eq, not_true_eq_false, if_false, Bool.true_eq_false, false_or]

/-- A store refuses everyone, or the entry can be mounted. -/
theorem denied_or_opens (state : AccessState)
    (stableFileIdentity : String → Except VaultError String) (id : String) :
    (∀ callerSids, authorizeMount state stableFileIdentity id callerSids = denied .notAuthorized) ∨
      ∃ entry resolved, Opens state stableFileIdentity id entry resolved := by
  by_cases hcurrent : state.validation = .current
  · cases hactive : state.active with
    | none => exact Or.inl fun _ => by simp [authorizeMount, hactive]
    | some active =>
      cases hentry : active.entryOf id with
      | none => exact Or.inl fun _ => by simp [authorizeMount, hactive, hentry]
      | some entry =>
        have hid := entryOf_id hentry
        cases hresolved : active.resolvedOf id with
        | none => exact Or.inl fun _ => by simp [authorizeMount, hactive, hentry, hid, hresolved]
        | some resolved =>
          by_cases hhealthy : state.accessDirectoryHealthy = true
          · by_cases hidentity : stableFileIdentity entry.containerPath = .ok resolved.identity
            · right
              refine ⟨entry, resolved, hcurrent, hhealthy, ?_, ?_, hidentity⟩
              · rw [hactive, Option.bind_some, hentry]
              · rw [hactive, Option.bind_some, hresolved]
            · exact Or.inl fun _ => by
                simp [authorizeMount, hactive, hentry, hid, hresolved, hidentity]
          · rw [Bool.not_eq_true] at hhealthy
            exact Or.inl fun _ => by
              simp [authorizeMount, hactive, hentry, hid, hresolved, hhealthy]
  · exact Or.inl fun _ => by simp [authorizeMount, hcurrent]

theorem mountPlan_some {plan : MountPlan} : mountPlan state hasParent id = some plan ↔
    ∃ entry resolved, state.validation = .current ∧ state.accessDirectoryHealthy = true ∧
      state.active.bind (PersistedPolicy.entryOf · id) = some entry ∧
      state.active.bind (PersistedPolicy.resolvedOf · id) = some resolved ∧
      hasParent entry.containerPath = true ∧
      plan = ⟨⟨entry.containerPath, resolved.authorizationGrants.filter fun grant =>
          ∀ members ∈ fleetGroupMemberSids entry state.accessDirectory, grant.sid ∈ members, [], []⟩,
        entry.mount.presentation, entry.mount.preferredLetter, resolved.identity,
        entry.containerKind⟩ := by
  unfold mountPlan
  cases hactive : state.active with
  | none => simp
  | some active =>
    by_cases hopen : state.validation ≠ .current ∨ state.accessDirectoryHealthy = false
    · simp only [Option.bind_eq_bind, Option.bind_some, if_pos hopen, reduceCtorEq, false_iff]
      rintro ⟨entry, resolved, hcurrent, hhealthy, _⟩
      rcases hopen with hopen | hopen
      · exact hopen hcurrent
      · rw [hhealthy] at hopen
        cases hopen
    · have hstate : state.validation = .current ∧ state.accessDirectoryHealthy = true := by
        simpa using hopen
      simp only [Option.bind_eq_bind, Option.bind_some, if_neg hopen, Option.bind_eq_some_iff]
      constructor
      · rintro ⟨entry, hentry, resolved, hresolved, h⟩
        by_cases hparent : hasParent entry.containerPath = false
        · simp [hparent] at h
        · rw [if_neg hparent, Option.some.injEq] at h
          exact ⟨entry, resolved, hstate.1, hstate.2, hentry, hresolved, by simpa using hparent, h.symm⟩
      · rintro ⟨entry, resolved, _, _, hentry, hresolved, hparent, rfl⟩
        refine ⟨entry, hentry, resolved, hresolved, ?_⟩
        rw [if_neg (by simp [hparent])]

end Decision

section Agreement

/-- An identifier that is in no directory group of a machine vault any more. -/
def Dropped (planning current : VaultAccessDirectory) (entry : VaultAccessEntry) (sid : String) :
    Prop :=
  entry.mount.presentation = .machine ∧
    (fleetGroupMemberSids entry planning ≠ none ∨ fleetGroupMemberSids entry current ≠ none) ∧
    ∀ name ∈ namedPrincipals entry, ∀ members,
      accessDirectoryGroupMembers current name = some members → sid ∉ members

/-- What a caller is authorised to is what the mounted root gives to one of the caller's
identifiers, and a dropped identifier counts for nothing. -/
structure Agreement (planning : VaultAccessDirectory) (state : AccessState)
    (stableFileIdentity : String → Except VaultError String) (hasParent : String → Bool)
    (id : String) (callerSids : List String) : Prop where
  covered : ∀ access, (authorizeMount state stableFileIdentity id callerSids).mode = some access →
    ∃ plan, mountPlan state hasParent id = some plan ∧
      ∃ grant ∈ plan.acl.grants, grant.sid ∈ callerSids ∧ access ≤ grant.access
  unmounted : ∀ plan entry, mountPlan state hasParent id = some plan →
    state.active.bind (PersistedPolicy.entryOf · id) = some entry →
    ∀ grant ∈ plan.acl.grants, ¬ Dropped planning state.accessDirectory entry grant.sid
  unauthorized : ∀ entry kept, state.active.bind (PersistedPolicy.entryOf · id) = some entry →
    (∀ sid, sid ∈ kept ↔ sid ∈ callerSids ∧ ¬ Dropped planning state.accessDirectory entry sid) →
    authorizeMount state stableFileIdentity id callerSids =
      authorizeMount state stableFileIdentity id kept

/-- A caller who holds a current member's identifier holds nothing stronger through an identifier
that was dropped; and an entry that was restricted to groups still is, or gives nothing. -/
def KeepsToMembers (planning current : VaultAccessDirectory) (entry : VaultAccessEntry)
    (grants : List ResolvedGrant) (callerSids : List String) : Prop :=
  match fleetGroupMemberSids entry current with
  | some members => (∃ sid ∈ callerSids, sid ∈ members) → ∀ grant ∈ grants, grant.sid ∈ callerSids →
      grant.sid ∉ members → ∃ live ∈ grants, live.sid ∈ callerSids ∧ live.sid ∈ members ∧
        grant.access ≤ live.access
  | none => fleetGroupMemberSids entry planning ≠ none → grants = []

end Agreement

section Agreement

variable {planning current : VaultAccessDirectory} {entry : VaultAccessEntry} {resolved : ResolvedEntry}
  {state : AccessState} {stableFileIdentity : String → Except VaultError String}
  {hasParent : String → Bool} {id : String} {callerSids : List String}

theorem machine_of_restricted {members : List String}
    (h : fleetGroupMemberSids entry current = some members) : entry.mount.presentation = .machine := by
  by_contra hmachine
  rw [fleetGroupMemberSids_eq_none.mpr (Or.inl hmachine)] at h
  cases h

/-- While the directory has a group of the entry, the dropped identifiers are the others. -/
theorem dropped_of_some {members : List String}
    (h : fleetGroupMemberSids entry current = some members) (sid : String) :
    Dropped planning current entry sid ↔ sid ∉ members := by
  unfold Dropped
  rw [mem_fleetGroupMemberSids h]
  constructor
  · rintro ⟨_, _, hout⟩ ⟨name, hname, sids, hsids, hmem⟩
    exact hout name hname sids hsids hmem
  · intro hout
    refine ⟨machine_of_restricted h, Or.inr (by simp [h]), ?_⟩
    intro name hname sids hsids hmem
    exact hout ⟨name, hname, sids, hsids, hmem⟩

/-- Once it has none, every identifier is dropped, if there was one. -/
theorem dropped_of_none (h : fleetGroupMemberSids entry current = none) (sid : String) :
    Dropped planning current entry sid ↔ fleetGroupMemberSids entry planning ≠ none := by
  unfold Dropped
  constructor
  · rintro ⟨_, hrestricted, _⟩
    rcases hrestricted with hrestricted | hrestricted
    · exact hrestricted
    · exact absurd h hrestricted
  · intro hrestricted
    obtain ⟨members, hmembers⟩ := Option.ne_none_iff_exists'.mp hrestricted
    have hmachine := machine_of_restricted hmembers
    refine ⟨hmachine, Or.inl hrestricted, ?_⟩
    rcases fleetGroupMemberSids_eq_none.mp h with hnot | hnone
    · exact absurd hmachine hnot
    · intro name hname sids hsids
      rw [hnone name hname] at hsids
      cases hsids

theorem mode_of_opens (h : Opens state stableFileIdentity id entry resolved) {access : VaultAccess} :
    (authorizeMount state stableFileIdentity id callerSids).mode = some access ↔
      (∀ members ∈ fleetGroupMemberSids entry state.accessDirectory,
        ∃ sid ∈ callerSids, sid ∈ members) ∧
      heldAccess resolved.authorizationGrants callerSids = some access := by
  rw [authorizeMount_of_opens h]
  by_cases hmember : ∃ members ∈ fleetGroupMemberSids entry state.accessDirectory,
      ∀ sid ∈ callerSids, sid ∉ members
  · rw [if_pos hmember]
    simp only [denied, reduceCtorEq, false_iff]
    rintro ⟨hall, _⟩
    obtain ⟨members, hmembers, hnone⟩ := hmember
    obtain ⟨sid, hsid, hmem⟩ := hall members hmembers
    exact hnone sid hsid hmem
  · rw [if_neg hmember]
    push Not at hmember
    cases hheld : heldAccess resolved.authorizationGrants callerSids with
    | none => simp [denied]
    | some held => simpa using fun _ => hmember

/-- In a store that mounts the entry the property is the condition on the entry's grants. -/
theorem agreement_of_keeps
    (hkeeps : ∀ entry resolved, state.active.bind (PersistedPolicy.entryOf · id) = some entry →
      state.active.bind (PersistedPolicy.resolvedOf · id) = some resolved →
      hasParent entry.containerPath = true ∧
        KeepsToMembers planning state.accessDirectory entry resolved.authorizationGrants callerSids) :
    Agreement planning state stableFileIdentity hasParent id callerSids := by
  refine ⟨?_, ?_, ?_⟩
  · intro access hmode
    rcases denied_or_opens state stableFileIdentity id with hdenied | ⟨entry, resolved, hopens⟩
    · rw [hdenied] at hmode
      cases hmode
    · obtain ⟨hparent, hkeeps⟩ := hkeeps entry resolved hopens.named hopens.planned
      obtain ⟨hmember, hheld⟩ := (mode_of_opens hopens).mp hmode
      refine ⟨_, mountPlan_some.mpr ⟨entry, resolved, hopens.current, hopens.healthy, hopens.named,
        hopens.planned, hparent, rfl⟩, ?_⟩
      obtain ⟨⟨grant, hgrant, hsid, rfl⟩, _⟩ := heldAccess_eq_some.mp hheld
      simp only [List.mem_filter, decide_eq_true_eq]
      unfold KeepsToMembers at hkeeps
      cases hfleet : fleetGroupMemberSids entry state.accessDirectory with
      | none => exact ⟨grant, ⟨hgrant, by simp⟩, hsid, le_refl _⟩
      | some members =>
        rw [hfleet] at hkeeps
        by_cases hlive : grant.sid ∈ members
        · exact ⟨grant, ⟨hgrant, by simpa using hlive⟩, hsid, le_refl _⟩
        · obtain ⟨live, hmem, hlivesid, hlivemember, hle⟩ :=
            hkeeps (hmember members hfleet) grant hgrant hsid hlive
          exact ⟨live, ⟨hmem, by simpa using hlivemember⟩, hlivesid, hle⟩
  · intro plan entry hplan hentry grant hgrant
    obtain ⟨entry', resolved, _, _, hentry', hresolved, hparent, rfl⟩ := mountPlan_some.mp hplan
    rw [hentry, Option.some.injEq] at hentry'
    subst hentry'
    have hcondition := (hkeeps entry resolved hentry hresolved).2
    simp only [List.mem_filter, decide_eq_true_eq] at hgrant
    unfold KeepsToMembers at hcondition
    cases hfleet : fleetGroupMemberSids entry state.accessDirectory with
    | none =>
      rw [dropped_of_none hfleet]
      rw [hfleet] at hcondition
      intro hrestricted
      rw [hcondition hrestricted] at hgrant
      exact absurd hgrant.1 List.not_mem_nil
    | some members =>
      rw [dropped_of_some hfleet, not_not]
      exact hgrant.2 members hfleet
  · intro entry kept hentry hkept
    rcases denied_or_opens state stableFileIdentity id with hdenied | ⟨entry', resolved, hopens⟩
    · rw [hdenied, hdenied]
    · have hsame := hopens.named
      rw [hentry, Option.some.injEq] at hsame
      subst hsame
      have hcondition := (hkeeps entry resolved hentry hopens.planned).2
      rw [authorizeMount_of_opens hopens, authorizeMount_of_opens hopens]
      unfold KeepsToMembers at hcondition
      cases hfleet : fleetGroupMemberSids entry state.accessDirectory with
      | none =>
        rw [hfleet] at hcondition
        by_cases hrestricted : fleetGroupMemberSids entry planning ≠ none
        · rw [hcondition hrestricted]
          rfl
        · have hsame : ∀ sid, sid ∈ callerSids ↔ sid ∈ kept := by
            intro sid
            rw [hkept, dropped_of_none hfleet]
            simp only [hrestricted, not_false_eq_true, and_true]
          rw [heldAccess_congr hsame]
          simp
      | some members =>
        rw [hfleet] at hcondition
        have hin : ∀ sid, sid ∈ kept ↔ sid ∈ callerSids ∧ sid ∈ members := by
          intro sid
          rw [hkept, dropped_of_some hfleet, not_not]
        have hany : ∀ sids : List String, (∃ members' ∈ some members, ∀ sid ∈ sids, sid ∉ members') ↔
            ∀ sid ∈ sids, sid ∉ members := by simp
        by_cases hmember : ∃ sid ∈ callerSids, sid ∈ members
        · have hheld : heldAccess resolved.authorizationGrants callerSids =
              heldAccess resolved.authorizationGrants kept := by
            apply heldAccess_restrict
            · intro sid hsid
              exact ((hin sid).mp hsid).1
            · intro grant hgrant hsid
              by_cases hlive : grant.sid ∈ members
              · exact ⟨grant, hgrant, (hin _).mpr ⟨hsid, hlive⟩, le_refl _⟩
              · obtain ⟨live, hmem, hlivesid, hlivemember, hle⟩ :=
                  hcondition hmember grant hgrant hsid hlive
                exact ⟨live, hmem, (hin _).mpr ⟨hlivesid, hlivemember⟩, hle⟩
          have hkeptmember : ∃ sid ∈ kept, sid ∈ members := by
            obtain ⟨sid, hsid, hmem⟩ := hmember
            exact ⟨sid, (hin sid).mpr ⟨hsid, hmem⟩, hmem⟩
          have hopen : ¬ ∀ sid ∈ callerSids, sid ∉ members := by simpa using hmember
          have hkeptopen : ¬ ∀ sid ∈ kept, sid ∉ members := by simpa using hkeptmember
          rw [hheld]
          simp only [hany, if_neg hopen, if_neg hkeptopen]
        · have hnone : ∀ sid ∈ callerSids, sid ∉ members := by
            intro sid hsid hmem
            exact hmember ⟨sid, hsid, hmem⟩
          have hkeptnone : ∀ sid ∈ kept, sid ∉ members := by
            intro sid hsid hmem
            exact hmember ⟨sid, ((hin sid).mp hsid).1, hmem⟩
          simp only [hany, if_pos hnone, if_pos hkeptnone]

theorem keeps_of_agreement (hopens : Opens state stableFileIdentity id entry resolved)
    (hparent : hasParent entry.containerPath = true)
    (h : Agreement planning state stableFileIdentity hasParent id callerSids) :
    KeepsToMembers planning state.accessDirectory entry resolved.authorizationGrants callerSids := by
  have hplan := mountPlan_some.mpr ⟨entry, resolved, hopens.current, hopens.healthy, hopens.named,
    hopens.planned, hparent, rfl⟩
  unfold KeepsToMembers
  cases hfleet : fleetGroupMemberSids entry state.accessDirectory with
  | none =>
    intro hrestricted
    have hunmounted := h.unmounted _ entry hplan hopens.named
    simp only [hfleet, Option.mem_def, reduceCtorEq, false_implies, implies_true, decide_true,
      List.filter_true] at hunmounted
    refine List.eq_nil_iff_forall_not_mem.mpr ?_
    intro grant hgrant
    exact hunmounted grant hgrant ((dropped_of_none hfleet grant.sid).mpr hrestricted)
  | some members =>
    intro hmember grant hgrant hsid _
    have hheld : heldAccess resolved.authorizationGrants callerSids ≠ none := by
      intro hnone
      exact heldAccess_eq_none.mp hnone grant hgrant hsid
    obtain ⟨access, haccess⟩ := Option.ne_none_iff_exists'.mp hheld
    have hmode : (authorizeMount state stableFileIdentity id callerSids).mode = some access := by
      refine (mode_of_opens hopens).mpr ⟨?_, haccess⟩
      intro members' hmembers'
      rw [Option.mem_def, hfleet, Option.some.injEq] at hmembers'
      exact hmembers' ▸ hmember
    obtain ⟨plan, hplan', live, hlive, hlivesid, hle⟩ := h.covered access hmode
    rw [hplan, Option.some.injEq] at hplan'
    subst hplan'
    simp only [List.mem_filter, decide_eq_true_eq] at hlive
    refine ⟨live, hlive.1, hlivesid, hlive.2 members hfleet, ?_⟩
    exact ((heldAccess_eq_some.mp haccess).2 grant hgrant hsid).trans hle

/-- Planned grants are the greatest that the rules give, in whatever order the grants come; and in
every later store of the applied policy, authorising agrees with mounting exactly when what a caller
holds through dropped identifiers is no more than what its current members' identifiers hold. -/
theorem authorization_agrees_iff (resolver : Resolver) (directory : VaultAccessDirectory)
    (policy : VaultAccessPolicy) (planned : List (VaultAccessEntry × VaultAclPlan))
    (h : resolveAndPlan resolver directory policy = .ok planned) :
    List.Forall₂ (PlansGreatest resolver directory) policy.entries planned ∧
    (∀ policy', List.Forall₂ UpToGrantOrder policy.entries policy'.entries →
      ∃ planned', resolveAndPlan resolver directory policy' = .ok planned' ∧
        List.Forall₂ SameAccess planned planned') ∧
    ∀ (appliedAt : ℤ) (current : VaultAccessDirectory) (id : String) (callerSids : List String),
      (∀ state stableFileIdentity,
        state.active = some (persistedPolicy policy planned appliedAt) →
        state.accessDirectory = current →
        Agreement directory state stableFileIdentity resolver.hasParent id callerSids) ↔
      ∀ entry resolved, (persistedPolicy policy planned appliedAt).entryOf id = some entry →
        (persistedPolicy policy planned appliedAt).resolvedOf id = some resolved →
        KeepsToMembers directory current entry resolved.authorizationGrants callerSids := by
  have hplanned := (resolveAndPlan_ok.mp h).1
  refine ⟨hplanned.imp fun _ _ hplan => planEntry_greatest hplan, ?_, ?_⟩
  · intro policy' hpolicy
    exact resolveAndPlan_upToGrantOrder hpolicy h
  · intro appliedAt current id callerSids
    have hparent : ∀ entry, (persistedPolicy policy planned appliedAt).entryOf id = some entry →
        resolver.hasParent entry.containerPath = true := by
      intro entry hentry
      rcases find_planned hplanned with ⟨hnone, _⟩ | ⟨entry', plan, hfound, _, hplan⟩
      · have hnot : (persistedPolicy policy planned appliedAt).entryOf id = none := hnone
        rw [hnot] at hentry
        cases hentry
      · have hsome : (persistedPolicy policy planned appliedAt).entryOf id = some entry' := hfound
        rw [hsome, Option.some.injEq] at hentry
        subst hentry
        obtain ⟨_, _, _, _, _, hparent, _⟩ := planEntry_ok.mp hplan
        exact hparent
    constructor
    · intro hagree entry resolved hentry hresolved
      let state : AccessState :=
        ⟨some (persistedPolicy policy planned appliedAt), .current, current, true⟩
      have hopens : Opens state (fun _ => .ok resolved.identity) id entry resolved :=
        ⟨rfl, rfl, hentry, hresolved, rfl⟩
      exact keeps_of_agreement hopens (hparent entry hentry) (hagree state _ rfl rfl)
    · intro hkeeps state stableFileIdentity hactive hdirectory
      apply agreement_of_keeps
      intro entry resolved hentry hresolved
      rw [hactive, Option.bind_some] at hentry hresolved
      refine ⟨hparent entry hentry, ?_⟩
      rw [hdirectory]
      exact hkeeps entry resolved hentry hresolved

end Agreement

section Sample

def staffResolver : Resolver where
  stableFileIdentity path := .ok path
  resolvePrincipal name := .error (.principalResolution name)
  hasParent _ := true
  digest id := id

/-- Readers, and writers that come and go. -/
def staffDirectory (writers : List String) : VaultAccessDirectory where
  schemaVersion := 1
  users := [⟨"S-1-5-21-1", "alice", none⟩, ⟨"S-1-5-32-545", "staff", none⟩]
  groups := [⟨"r", "Readers", "readers", ["S-1-5-21-1"]⟩, ⟨"w", "Writers", "writers", writers⟩]

def staffEntry : VaultAccessEntry where
  id := "sales"
  label := "Sales"
  containerPath := "C:\\sales"
  containerIdentity := none
  containerKind := .standard
  primaryOwnerSid := none
  ownerAccount := "writers"
  accessPattern := none
  syncthingOptIn := none
  grants := [⟨"writers", .write⟩, ⟨"readers", .read⟩]
  mount := ⟨.machine, none⟩

def staffPolicy : VaultAccessPolicy := ⟨1, "policy", 1, 0, [staffEntry]⟩

def staffPlan : VaultAccessEntry × VaultAclPlan :=
  ({ staffEntry with containerIdentity := some "C:\\sales" },
    ⟨"C:\\sales", [⟨"S-1-5-32-545", .write⟩, ⟨"S-1-5-21-1", .read⟩],
      [⟨"S-1-5-32-545", .write⟩, ⟨"S-1-5-21-1", .read⟩], []⟩)

theorem staffPolicy_planned :
    resolveAndPlan staffResolver (staffDirectory ["S-1-5-32-545"]) staffPolicy = .ok [staffPlan] :=
  rfl

theorem authorization_agrees_staff :
    List.Forall₂ (PlansGreatest staffResolver (staffDirectory ["S-1-5-32-545"])) [staffEntry]
      [staffPlan] ∧
    ∀ state stableFileIdentity, state.active = some (persistedPolicy staffPolicy [staffPlan] 1) →
      state.accessDirectory = staffDirectory [] →
      Agreement (staffDirectory ["S-1-5-32-545"]) state stableFileIdentity (fun _ => true) "sales"
        ["S-1-5-21-1"] := by
  have h := authorization_agrees_iff staffResolver (staffDirectory ["S-1-5-32-545"]) staffPolicy
    [staffPlan] staffPolicy_planned
  refine ⟨h.1, (h.2.2 1 (staffDirectory []) "sales" ["S-1-5-21-1"]).mpr ?_⟩
  intro entry resolved hentry hresolved
  have hentry' : (persistedPolicy staffPolicy [staffPlan] 1).entryOf "sales" = some staffEntry := rfl
  have hresolved' : (persistedPolicy staffPolicy [staffPlan] 1).resolvedOf "sales" =
      some (resolvedEntry staffPlan) := rfl
  rw [hentry', Option.some.injEq] at hentry
  rw [hresolved', Option.some.injEq] at hresolved
  subst hentry hresolved
  have hfleet : fleetGroupMemberSids staffEntry (staffDirectory []) = some ["S-1-5-21-1"] := by
    decide
  unfold KeepsToMembers
  rw [hfleet]
  intro _ grant _ hsid hout
  exact absurd hsid hout

/-- A reader whose other identifier was taken out of the writers is authorised to write, while the
mounted root gives no more than reading. -/
theorem dropped_writer_authorized :
    resolveAndPlan staffResolver (staffDirectory ["S-1-5-32-545"]) staffPolicy = .ok [staffPlan] ∧
    ¬ Agreement (staffDirectory ["S-1-5-32-545"])
      ⟨some (persistedPolicy staffPolicy [staffPlan] 1), .current, staffDirectory [], true⟩ .ok
      (fun _ => true) "sales" ["S-1-5-21-1", "S-1-5-32-545"] := by
  refine ⟨rfl, ?_⟩
  intro h
  obtain ⟨plan, hplan, grant, hgrant, _, hle⟩ := h.covered .write (by decide)
  have hmounted : (mountPlan ⟨some (persistedPolicy staffPolicy [staffPlan] 1), .current,
      staffDirectory [], true⟩ (fun _ => true) "sales").map (fun plan => plan.acl.grants) =
        some [⟨"S-1-5-21-1", .read⟩] := by decide
  rw [hplan, Option.map_some, Option.some.injEq] at hmounted
  rw [hmounted, List.mem_singleton] at hgrant
  subst hgrant
  exact absurd hle (by decide)

end Sample

end AccessStore
