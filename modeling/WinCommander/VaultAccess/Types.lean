import Mathlib.Data.Finmap
import WinCommander.Library.AsciiText

/-!
# The vault access store: its data

Policies, the access directory, and the keys under which container paths are compared.
-/

namespace AccessStore

open AsciiText

inductive VaultError where
  | validation
  | forbidden
  | mounted
  | groupInUse
  | groupNameConflict
  | policyPathReserved
  | versionConflict
  | principalResolution (name : String)
  | containerIdentity
  | aclApply
  | aclReadback
  | persistence
  | rollbackUnverified
  | commitUnconfirmed
  deriving DecidableEq

section Policy

inductive VaultAccess where
  | read
  | write
  deriving DecidableEq

inductive VaultPresentation where
  | machine
  | perUser
  deriving DecidableEq

inductive VaultContainerKind where
  | standard
  | dual
  deriving DecidableEq

inductive VaultAccessPattern where
  | priv
  | sharedRead
  | sharedWrite
  deriving DecidableEq

structure VaultGrantInput where
  principalName : String
  access : VaultAccess
  deriving DecidableEq

structure VaultMountPolicy where
  presentation : VaultPresentation
  preferredLetter : Option String
  deriving DecidableEq

structure VaultAccessEntry where
  id : String
  label : String
  containerPath : String
  containerIdentity : Option String
  containerKind : VaultContainerKind
  primaryOwnerSid : Option String
  ownerAccount : String
  accessPattern : Option VaultAccessPattern
  syncthingOptIn : Option Bool
  grants : List VaultGrantInput
  mount : VaultMountPolicy
  deriving DecidableEq

structure VaultAccessPolicy where
  schemaVersion : ℕ
  policyId : String
  version : ℕ
  expectedPreviousVersion : ℕ
  entries : List VaultAccessEntry
  deriving DecidableEq

structure ResolvedGrant where
  sid : String
  access : VaultAccess
  deriving DecidableEq

structure ResolvedEntry where
  id : String
  identity : String
  grants : List ResolvedGrant
  authorizationGrants : List ResolvedGrant
  deriving DecidableEq

structure PersistedPolicy where
  policy : VaultAccessPolicy
  resolved : List ResolvedEntry
  appliedAt : ℤ
  deriving DecidableEq

inductive VaultValidationState where
  | neverApplied
  | current
  | degraded
  deriving DecidableEq

end Policy

section Directory

structure VaultAccessDirectoryUser where
  sid : String
  username : String
  displayName : Option String
  deriving DecidableEq

structure VaultAccessDirectoryGroup where
  id : String
  name : String
  localGroup : String
  memberSids : List String
  deriving DecidableEq

structure VaultAccessDirectory where
  schemaVersion : ℕ
  users : List VaultAccessDirectoryUser
  groups : List VaultAccessDirectoryGroup
  deriving DecidableEq

end Directory

section Paths

/-- What the standard library says of a path. -/
structure StdPath where
  isAbsolute : String → Bool
  hasParent : String → Bool
  hasFileName : String → Bool
  hasDotComponent : String → Bool

def validCreationPath (std : StdPath) (path : String) : Bool :=
  std.isAbsolute path && std.hasFileName path && !std.hasDotComponent path

def backslashed (c : Char) : Char := if c = '/' then '\\' else c

def personalKey (path : String) : String :=
  String.ofList (((trimChars path.toList).map backslashed).map Char.toLower)

def containerPolicyKey (path : String) : String :=
  String.ofList ((((trimChars path.toList).map backslashed).rdropWhile (· = '\\')).map Char.toLower)

/-- The verbatim spelling of a key, or the plain one of a verbatim key. -/
def personalKeyAlias (key : String) : String :=
  let cs := key.toList
  if "\\\\?\\unc\\".toList.isPrefixOf cs then String.ofList ('\\' :: '\\' :: cs.drop 8)
  else if "\\\\?\\".toList.isPrefixOf cs then String.ofList (cs.drop 4)
  else if "\\\\".toList.isPrefixOf cs then String.ofList ("\\\\?\\unc\\".toList ++ cs.drop 2)
  else String.ofList ("\\\\?\\".toList ++ cs)

/-- Does a policy name this file?  A common parent directory is no conflict. -/
def activePolicyClaimsCreationPath (active : PersistedPolicy) (path : String) : Bool :=
  let key := containerPolicyKey path
  let other := containerPolicyKey (personalKeyAlias key)
  active.policy.entries.any fun entry =>
    let entryKey := containerPolicyKey entry.containerPath
    entryKey = key || entryKey = other || containerPolicyKey (personalKeyAlias entryKey) = key

/-- Two keys spell one path. -/
def SameKey (key key' : String) : Prop :=
  key = key' ∨ personalKeyAlias key = key' ∨ personalKeyAlias key' = key

theorem SameKey.symm {key key' : String} (h : SameKey key key') : SameKey key' key := by
  rcases h with h | h | h
  · exact Or.inl h.symm
  · exact Or.inr (Or.inr h)
  · exact Or.inr (Or.inl h)

/-- The other spelling of the other spelling is the key itself. -/
def Regular (key : String) : Prop := personalKeyAlias (personalKeyAlias key) = key

end Paths

end AccessStore
