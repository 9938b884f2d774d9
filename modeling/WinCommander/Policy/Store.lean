import Mathlib
import WinCommander.Library.Run
import WinCommander.Proto.Preimages
import WinCommander.Proto.Signature

/-!
# The durable policy store

The service keeps three signed and versioned subtrees.  Each one is a file that outlives the
process and a copy in memory that does not.  An epoch is installed after its version, signature,
content and compilation have passed, first in the file and then in memory.
-/

namespace PolicyStore

open Json FleetProto Outcome

inductive PolicyStoreError where
  | signerKeyMismatch
  | badSignature
  | versionNotAdvancing (current incoming : Int64)
  | deserializeFailed
  | compileFailed (errors : List String)
  | io (kind : String)
  deriving DecidableEq

/-- The signed epoch, as received and as written to the file. -/
structure EpochInstallInput where
  version : Int64
  config : Document
  lockedPaths : List String
  managed : Bool
  targetKind : String
  targetId : Option String
  signatureB64 : String
  signerKeyB64 : String
  deriving DecidableEq

def EpochInstallInput.signingInput (input : EpochInstallInput) : EpochSigningInput where
  version := input.version
  config := input.config
  lockedPaths := input.lockedPaths
  managed := input.managed
  targetKind := input.targetKind
  targetId := input.targetId

/-- How an epoch is written to a file.  What was written is read back with its version. -/
structure EpochCodec where
  toVec : EpochInstallInput → Option (List UInt8)
  fromSlice : List UInt8 → Option EpochInstallInput
  version_fromSlice : ∀ {input bytes}, toVec input = some bytes →
    (fromSlice bytes).map EpochInstallInput.version = some input.version

/-- What the service was built with: the signature scheme, the key it pinned at enrolment and its
file format. -/
structure Host (Key : Type) where
  crypto : Crypto Key
  pinnedSigningKeyB64 : String
  codec : EpochCodec

/-- The parts of a subtree that differ: where its content is and how it is compiled. -/
structure SubtreeCompiler where
  Raw : Type
  Compiled : Type
  extractRaw : Value → Except PolicyStoreError Raw
  compile : Raw → Except (List String) Compiled

section Compilers

/-- The clipboard rule language, which this store only calls. -/
structure ClipRules where
  Rules : Type
  ContentRulesSubtree : Type
  CompiledRuleSet : Type
  contentRulesEq : DecidableEq ContentRulesSubtree
  rulesFromValue : Value → Option Rules
  contentRulesFromValue : Value → Option ContentRulesSubtree
  compile : Rules → Except (List String) CompiledRuleSet
  compileContentRules : ContentRulesSubtree → Except (List String) CompiledRuleSet

variable (clipRules : ClipRules)

def clipboardGuardCompiler : SubtreeCompiler where
  Raw := clipRules.Rules
  Compiled := clipRules.CompiledRuleSet
  extractRaw config := do
    let subtree ← okOr (config.get "clipboardGuard") .deserializeFailed
    let rulesValue ← okOr (subtree.get "rules") .deserializeFailed
    okOr (clipRules.rulesFromValue rulesValue) .deserializeFailed
  compile := clipRules.compile

def contentRulesCompiler : SubtreeCompiler where
  Raw := clipRules.ContentRulesSubtree
  Compiled := clipRules.CompiledRuleSet
  extractRaw config := do
    let subtree ← okOr (config.get "contentRules") .deserializeFailed
    okOr (clipRules.contentRulesFromValue subtree) .deserializeFailed
  compile := clipRules.compileContentRules

instance : DecidableEq (contentRulesCompiler clipRules).Raw := clipRules.contentRulesEq

/-- A placeholder: the content is kept as it is. -/
def inkReceiptCompiler : SubtreeCompiler where
  Raw := Value
  Compiled := Value
  extractRaw config := okOr (config.get "inkReceipt") .deserializeFailed
  compile raw := .ok raw

end Compilers

/-- The copy of a subtree in memory. -/
structure ManagedSubtree (C : SubtreeCompiler) where
  input : Option EpochInstallInput
  version : Option Int64
  raw : Option C.Raw
  compiled : Option C.Compiled
  rulesCompiled : Bool
  lastAttemptUnix : Option Int64

/-- A subtree: its copy in memory and its file, when there is one. -/
structure Slot (C : SubtreeCompiler) where
  memory : ManagedSubtree C
  file : Option (List UInt8)

/-- What goes wrong around an install: the compiler and the write may each fail. -/
structure InstallFaults where
  compile : Option (List String)
  write : Option String

/-- What goes wrong around a load: the read fails with an error kind, or the compiler fails. -/
structure LoadFaults where
  read : Option String
  compile : Option (List String)

inductive StartupOutcome where
  | neverInstalled
  | loaded (version : Int64)
  | degraded (error : PolicyStoreError)
  deriving DecidableEq

section Subtree

variable {Key : Type} (host : Host Key) (C : SubtreeCompiler)

/-- The signer is compared with the pinned key before the signature is looked at. -/
def verifyEpochSignature (input : EpochInstallInput) : Except PolicyStoreError Unit := do
  refuseIf (input.signerKeyB64 ≠ host.pinnedSigningKeyB64) .signerKeyMismatch
  refuseIf (verifySignatureB64 host.crypto host.pinnedSigningKeyB64
    (epochPreimage input.signingInput) input.signatureB64 = false) .badSignature

def SubtreeCompiler.compileUnder (fault : Option (List String)) (raw : C.Raw) :
    Except PolicyStoreError C.Compiled :=
  match fault with
  | some errors => .error (.compileFailed errors)
  | none => (C.compile raw).mapError .compileFailed

def verifyAndCompile (fault : Option (List String)) (input : EpochInstallInput) :
    Except PolicyStoreError (C.Raw × C.Compiled) := do
  verifyEpochSignature host input
  let raw ← C.extractRaw input.config.value
  let compiled ← C.compileUnder fault raw
  pure (raw, compiled)

/-- A write replaces the file as a whole or leaves it alone. -/
def atomicWrite (fault : Option String) : Except PolicyStoreError Unit :=
  match fault with
  | some kind => .error (.io kind)
  | none => .ok ()

/-- The steps of an install after the version guard, up to and with the write. -/
def persist (input : EpochInstallInput) (faults : InstallFaults) :
    Except PolicyStoreError ((C.Raw × C.Compiled) × List UInt8) := do
  let pair ← verifyAndCompile host C faults.compile input
  let bytes ← okOr (host.codec.toVec input) .deserializeFailed
  atomicWrite faults.write
  pure (pair, bytes)

/-- A version is installed only over a lower one. -/
def versionGuard (current : Option Int64) (incoming : Int64) : Except PolicyStoreError Unit :=
  match current with
  | some current => refuseIf (incoming ≤ current) (.versionNotAdvancing current incoming)
  | none => .ok ()

variable {C}

def ManagedSubtree.new : ManagedSubtree C where
  input := none
  version := none
  raw := none
  compiled := none
  rulesCompiled := false
  lastAttemptUnix := none

/-- A failed attempt leaves everything but the health flags. -/
def ManagedSubtree.fail (m : ManagedSubtree C) (now : Int64) : ManagedSubtree C :=
  { m with rulesCompiled := false, lastAttemptUnix := some now }

def ManagedSubtree.swap (input : EpochInstallInput) (pair : C.Raw × C.Compiled)
    (lastAttemptUnix : Option Int64) : ManagedSubtree C where
  input := some input
  version := some input.version
  raw := some pair.1
  compiled := some pair.2
  rulesCompiled := true
  lastAttemptUnix := lastAttemptUnix

def Slot.install (slot : Slot C) (input : EpochInstallInput) (now : Int64)
    (faults : InstallFaults) : Slot C × Except PolicyStoreError Unit :=
  match (do versionGuard slot.memory.version input.version; persist host C input faults) with
  | .error e => ({ slot with memory := slot.memory.fail now }, .error e)
  | .ok (pair, bytes) =>
    ({ memory := ManagedSubtree.swap input pair (some now), file := some bytes }, .ok ())

/-- The bytes of the file, or the kind of the error. -/
def Slot.read (slot : Slot C) (fault : Option String) : Except String (List UInt8) :=
  match fault with
  | some kind => .error kind
  | none => okOr slot.file "NotFound"

def Slot.loadAtStartup (slot : Slot C) (faults : LoadFaults) : Slot C × StartupOutcome :=
  match slot.read faults.read with
  | .error kind => (slot, if kind = "NotFound" then .neverInstalled else .degraded (.io kind))
  | .ok bytes =>
    match host.codec.fromSlice bytes with
    | none => (slot, .degraded .deserializeFailed)
    | some input =>
      match verifyAndCompile host C faults.compile input with
      | .ok pair =>
        ({ slot with memory := ManagedSubtree.swap input pair slot.memory.lastAttemptUnix },
          .loaded input.version)
      | .error e =>
        ({ slot with memory := { slot.memory with rulesCompiled := false } }, .degraded e)

/-- A new process: memory is empty and the file is loaded. -/
def Slot.restart (slot : Slot C) (faults : LoadFaults) : Slot C × StartupOutcome :=
  { slot with memory := ManagedSubtree.new : Slot C }.loadAtStartup host faults

/-- The version that the file holds. -/
def Slot.durableVersion (slot : Slot C) : Option Int64 :=
  (slot.file.bind host.codec.fromSlice).map EpochInstallInput.version

variable {host}

theorem versionGuard_ok {current : Option Int64} {incoming : Int64} :
    versionGuard current incoming = .ok () ↔ ∀ v, current = some v → v < incoming := by
  cases current with
  | none => simp [versionGuard]
  | some v => simp [versionGuard, Int64.not_le]

theorem durableVersion_of_persist {slot : Slot C} {input : EpochInstallInput}
    {faults : InstallFaults} {pair : C.Raw × C.Compiled} {bytes : List UInt8}
    (h : persist host C input faults = .ok (pair, bytes)) (hfile : slot.file = some bytes) :
    slot.durableVersion host = some input.version := by
  simp only [persist, bind_ok, okOr_ok, pure_ok, Prod.mk.injEq] at h
  obtain ⟨_, _, stored, hstored, _, _, _, rfl⟩ := h
  rw [Slot.durableVersion, hfile]
  exact host.codec.version_fromSlice hstored

/-- An install fails and the file stays, or it leaves the epoch in the file and in memory. -/
theorem Slot.install_cases (host : Host Key) (slot : Slot C) (input : EpochInstallInput) (now : Int64)
    (faults : InstallFaults) :
    (∃ e, slot.install host input now faults =
      ({ slot with memory := slot.memory.fail now }, .error e)) ∨
    ∃ pair bytes, (∀ v, slot.memory.version = some v → v < input.version) ∧
      persist host C input faults = .ok (pair, bytes) ∧
      slot.install host input now faults =
        ({ memory := ManagedSubtree.swap input pair (some now), file := some bytes }, .ok ()) := by
  unfold Slot.install
  cases hsteps : (do versionGuard slot.memory.version input.version; persist host C input faults) with
  | error e => exact Or.inl ⟨e, rfl⟩
  | ok result =>
    obtain ⟨⟨⟩, hguard, hpersist⟩ := bind_ok.mp hsteps
    exact Or.inr ⟨result.1, result.2, versionGuard_ok.mp hguard, hpersist, rfl⟩

/-- What passes every step of an install is installed when memory holds no version. -/
theorem Slot.install_of_persist {slot : Slot C} {input : EpochInstallInput} {now : Int64}
    {faults : InstallFaults} {pair : C.Raw × C.Compiled} {bytes : List UInt8}
    (hversion : slot.memory.version = none)
    (hpersist : persist host C input faults = .ok (pair, bytes)) :
    slot.install host input now faults =
      ({ memory := ManagedSubtree.swap input pair (some now), file := some bytes }, .ok ()) := by
  unfold Slot.install
  rw [hversion, hpersist]
  rfl

/-- A restart keeps the file and remembers the version in it or none. -/
theorem Slot.restart_cases (host : Host Key) (slot : Slot C) (faults : LoadFaults) :
    (slot.restart host faults).1.file = slot.file ∧
      ((slot.restart host faults).1.memory.version = none ∨
        (slot.restart host faults).1.memory.version = slot.durableVersion host) := by
  unfold Slot.restart Slot.loadAtStartup
  cases hread : Slot.read { slot with memory := ManagedSubtree.new : Slot C } faults.read with
  | error kind => exact ⟨rfl, Or.inl rfl⟩
  | ok bytes =>
    have hfile : slot.file = some bytes := by
      unfold Slot.read at hread
      split at hread
      · simp at hread
      · exact okOr_ok.mp hread
    dsimp only
    cases hinput : host.codec.fromSlice bytes with
    | none => exact ⟨rfl, Or.inl rfl⟩
    | some input =>
      dsimp only
      cases verifyAndCompile host C faults.compile input with
      | error e => exact ⟨rfl, Or.inl rfl⟩
      | ok pair =>
        refine ⟨rfl, Or.inr ?_⟩
        rw [Slot.durableVersion, hfile, Option.bind_some, hinput]
        rfl

end Subtree

section Store

variable {Key : Type} (host : Host Key) (clipRules : ClipRules)

inductive Subtree where
  | clipboardGuard
  | contentRules
  | inkReceipt
  deriving DecidableEq

def compiler : Subtree → SubtreeCompiler
  | .clipboardGuard => clipboardGuardCompiler clipRules
  | .contentRules => contentRulesCompiler clipRules
  | .inkReceipt => inkReceiptCompiler

/-- The subtrees of a store, each with a file of its own. -/
abbrev Store := (t : Subtree) → Slot (compiler clipRules t)

/-- The content that an epoch of the current version offers. -/
def offeredContent (input : EpochInstallInput) :
    Except PolicyStoreError (contentRulesCompiler clipRules).Raw := do
  verifyEpochSignature host input
  (contentRulesCompiler clipRules).extractRaw input.config.value

variable {clipRules}

def installClipboardEpoch (slot : Slot (clipboardGuardCompiler clipRules))
    (input : EpochInstallInput) (now : Int64) (faults : InstallFaults) :
    Slot (clipboardGuardCompiler clipRules) × Except PolicyStoreError Unit :=
  slot.install host input now faults

def installInkReceiptEpoch (slot : Slot inkReceiptCompiler) (input : EpochInstallInput)
    (now : Int64) (faults : InstallFaults) :
    Slot inkReceiptCompiler × Except PolicyStoreError Unit :=
  slot.install host input now faults

/-- The same content under the same version is accepted without a change; what else comes with
that version is left to the version guard. -/
def installContentEpoch (slot : Slot (contentRulesCompiler clipRules)) (input : EpochInstallInput)
    (now : Int64) (faults : InstallFaults) :
    Slot (contentRulesCompiler clipRules) × Except PolicyStoreError Unit :=
  if slot.memory.version = some input.version then
    match offeredContent host clipRules input with
    | .error e => (slot, .error e)
    | .ok offered =>
      if slot.memory.raw = some offered then (slot, .ok ())
      else slot.install host input now faults
  else slot.install host input now faults

def installEpoch : (t : Subtree) → Slot (compiler clipRules t) → EpochInstallInput → Int64 →
    InstallFaults → Slot (compiler clipRules t) × Except PolicyStoreError Unit
  | .clipboardGuard => installClipboardEpoch host
  | .contentRules => installContentEpoch host
  | .inkReceipt => installInkReceiptEpoch host

/-- A call of the store, with what the environment does to it. -/
inductive StoreCall where
  | install (target : Subtree) (input : EpochInstallInput) (now : Int64) (faults : InstallFaults)
  | restart (faults : Subtree → LoadFaults)

def storeStep (store : Store clipRules) : StoreCall → Store clipRules
  | .install target input now faults =>
    Function.update store target (installEpoch host target (store target) input now faults).1
  | .restart faults => fun t => ((store t).restart host (faults t)).1

variable {host}

/-- A call that installs does what the install of its subtree does, or nothing. -/
theorem installEpoch_cases (t : Subtree) (slot : Slot (compiler clipRules t))
    (input : EpochInstallInput) (now : Int64) (faults : InstallFaults) :
    installEpoch host t slot input now faults = slot.install host input now faults ∨
      (installEpoch host t slot input now faults).1 = slot := by
  cases t with
  | clipboardGuard => exact Or.inl rfl
  | inkReceipt => exact Or.inl rfl
  | contentRules =>
    show installContentEpoch host slot input now faults = _ ∨ (installContentEpoch host slot input
      now faults).1 = slot
    unfold installContentEpoch
    split
    · cases offeredContent host clipRules input with
      | error e => exact Or.inr rfl
      | ok offered =>
        dsimp only
        split
        · exact Or.inr rfl
        · exact Or.inl rfl
    · exact Or.inl rfl

/-- The fast path of an unchanged version needs a version in memory. -/
theorem installEpoch_of_none {t : Subtree} {slot : Slot (compiler clipRules t)}
    (h : slot.memory.version = none) (input : EpochInstallInput) (now : Int64)
    (faults : InstallFaults) :
    installEpoch host t slot input now faults = slot.install host input now faults := by
  cases t with
  | clipboardGuard => rfl
  | inkReceipt => rfl
  | contentRules => exact if_neg (by rw [h]; simp)

/-- A store that was just opened over the files of a directory. -/
def opened (clipRules : ClipRules) (files : Subtree → Option (List UInt8)) : Store clipRules :=
  fun t => { memory := ManagedSubtree.new, file := files t }

end Store

end PolicyStore
