import Mathlib
import WinCommander.Library.MachineInt
import WinCommander.Library.Register
import WinCommander.Policy.Store

/-!
# Rollback of the policy store

The version guard of an install reads the copy in memory, and a restart whose load fails leaves
that copy without a version although the file still has one.  The next epoch is then stored over
the file whatever its version is.
-/

namespace PolicyStore

open FleetProto Outcome

variable {Key : Type} (host : Host Key) {clipRules : ClipRules}

/-- The two versions of a subtree. -/
def Slot.register {C : SubtreeCompiler} (slot : Slot C) : Register Int64 where
  durable := slot.durableVersion host
  active := slot.memory.version

/-- Over a run of calls no subtree goes back, neither in its file nor in memory. -/
def NeverRollsBack (store : Store clipRules) (calls : List StoreCall) : Prop :=
  ∀ t, Register.NeverRollsBack (storeStep host) (fun store : Store clipRules =>
    (store t).register host) store calls

/-- An epoch that passes every check of an install finds no higher version in the file when memory
holds none. -/
def KeepsHigher (store : Store clipRules) : StoreCall → Prop
  | .install target input _ faults =>
    (store target).memory.version = none →
      (persist host (compiler clipRules target) input faults).toBool = true →
        ∀ v, (store target).durableVersion host = some v → v ≤ input.version
  | .restart _ => True

variable {host}

private theorem register_swap {C : SubtreeCompiler} {input : EpochInstallInput}
    {faults : InstallFaults} {pair : C.Raw × C.Compiled} {bytes : List UInt8}
    (h : persist host C input faults = .ok (pair, bytes)) (now : Int64) :
    Slot.register host { memory := ManagedSubtree.swap input pair (some now), file := some bytes } =
      ⟨some input.version, some input.version⟩ :=
  Register.ext (durableVersion_of_persist h rfl) rfl

private theorem move_install {C : SubtreeCompiler} (slot : Slot C) (input : EpochInstallInput)
    (now : Int64) (faults : InstallFaults) :
    Register.Move (slot.register host) ((slot.install host input now faults).1.register host) := by
  rcases slot.install_cases host input now faults with ⟨e, heq⟩ | ⟨pair, bytes, hguard, hpersist, heq⟩
  · rw [heq]
    exact Register.Move.keep
  · rw [heq, register_swap hpersist]
    apply Register.Move.store
    intro current hcurrent
    exact le_of_lt (hguard current hcurrent)

private theorem move_restart {C : SubtreeCompiler} (slot : Slot C) (faults : LoadFaults) :
    Register.Move (slot.register host) ((slot.restart host faults).1.register host) := by
  obtain ⟨hfile, hversion⟩ := slot.restart_cases host faults
  have hdurable : (slot.restart host faults).1.durableVersion host = slot.durableVersion host := by
    rw [Slot.durableVersion, hfile]
    rfl
  have heq : (slot.restart host faults).1.register host =
      ⟨(slot.register host).durable, (slot.restart host faults).1.memory.version⟩ :=
    Register.ext hdurable rfl
  rw [heq]
  exact Register.Move.reload _ hversion

/-- Every call moves the two versions of a subtree as a register may move. -/
theorem move_storeStep (store : Store clipRules) (call : StoreCall) (t : Subtree) :
    Register.Move ((store t).register host) ((storeStep host store call t).register host) := by
  cases call with
  | restart faults => exact move_restart (store t) (faults t)
  | install target input now faults =>
    by_cases ht : t = target
    · subst ht
      rw [storeStep, Function.update_self]
      rcases installEpoch_cases t (store t) input now faults with heq | heq
      · rw [heq]
        exact move_install (store t) input now faults
      · rw [heq]
        exact Register.Move.keep
    · rw [storeStep, Function.update_of_ne ht]
      exact Register.Move.keep

private theorem durableKept_of_durable_eq {r r' : Register Int64} (h : r'.durable = r.durable) :
    Register.DurableKept r r' := by
  intro v hv
  exact ⟨v, h.trans hv, le_refl v⟩

/-- Without a version in memory an install overwrites the file or leaves it. -/
private theorem durableKept_install_iff {t : Subtree} {slot : Slot (compiler clipRules t)}
    (hversion : slot.memory.version = none) (input : EpochInstallInput) (now : Int64)
    (faults : InstallFaults) :
    Register.DurableKept (slot.register host)
        ((installEpoch host t slot input now faults).1.register host) ↔
      ((persist host (compiler clipRules t) input faults).toBool = true →
        ∀ v, slot.durableVersion host = some v → v ≤ input.version) := by
  rw [installEpoch_of_none hversion]
  cases hpersist : persist host (compiler clipRules t) input faults with
  | error e =>
    rcases slot.install_cases host input now faults with
      ⟨e', heq⟩ | ⟨pair, bytes, _, hok, _⟩
    · rw [heq]
      exact iff_of_true (durableKept_of_durable_eq rfl) (fun h => absurd h (by simp [Except.toBool]))
    · rw [hpersist] at hok
      exact absurd hok (by simp)
  | ok result =>
    rw [Slot.install_of_persist hversion hpersist, register_swap hpersist]
    simp [Register.DurableKept, Slot.register, Except.toBool]

private theorem durableKept_iff {store : Store clipRules}
    (hsynced : ∀ t, ((store t).register host).Synced) (call : StoreCall) :
    (∀ t, Register.DurableKept ((store t).register host)
      ((storeStep host store call t).register host)) ↔ KeepsHigher host store call := by
  cases call with
  | restart faults =>
    refine iff_of_true (fun t => durableKept_of_durable_eq ?_) trivial
    have hfile := ((store t).restart_cases host (faults t)).1
    show ((store t).restart host (faults t)).1.durableVersion host = (store t).durableVersion host
    rw [Slot.durableVersion, hfile]
    rfl
  | install target input now faults =>
    have hself : storeStep host store (.install target input now faults) target =
        (installEpoch host target (store target) input now faults).1 := Function.update_self ..
    constructor
    · intro h hversion
      have htarget := h target
      rw [hself] at htarget
      exact (durableKept_install_iff hversion input now faults).mp htarget
    · intro h t
      by_cases hactive : (store t).memory.version = none
      · by_cases ht : t = target
        · subst ht
          rw [hself]
          exact (durableKept_install_iff hactive input now faults).mpr (h hactive)
        · rw [storeStep, Function.update_of_ne ht]
          exact Register.durableKept_refl _
      · exact (move_storeStep store _ t).durableKept (hsynced t) hactive

theorem synced_storeStep {store : Store clipRules} (h : ∀ t, ((store t).register host).Synced)
    (call : StoreCall) (t : Subtree) : ((storeStep host store call t).register host).Synced :=
  (move_storeStep store call t).synced (h t)

theorem synced_opened (files : Subtree → Option (List UInt8)) (t : Subtree) :
    ((opened clipRules files t).register host).Synced := by
  intro v hv
  exact absurd hv (by simp [Slot.register, opened, ManagedSubtree.new])

private theorem synced_run (files : Subtree → Option (List UInt8)) (calls : List StoreCall) :
    ∀ t, ((Machine.run (storeStep host) (opened clipRules files) calls t).register host).Synced :=
  Machine.run_invariant (I := fun store : Store clipRules => ∀ t, ((store t).register host).Synced)
    (P := fun _ _ => True) (fun _ call h _ => synced_storeStep h call) (synced_opened files)
    (Machine.Throughout.of_forall (fun _ _ => trivial) _ calls)

private theorem neverRollsBack_iff_durableKept (files : Subtree → Option (List UInt8))
    (calls : List StoreCall) :
    NeverRollsBack host (opened clipRules files) calls ↔
      ∀ t, Machine.Throughout (storeStep host) (fun store call =>
        Register.DurableKept ((store t).register host)
          ((storeStep host store call t).register host)) (opened clipRules files) calls :=
  forall_congr' fun t => Register.neverRollsBack_iff_throughout
    (fun store call => move_storeStep store call t) (synced_opened files t) calls

private theorem keepsHigher_of_neverRollsBack {files : Subtree → Option (List UInt8)}
    {calls : List StoreCall} (h : NeverRollsBack host (opened clipRules files) calls) :
    Machine.Throughout (storeStep host) (KeepsHigher host) (opened clipRules files) calls := by
  rw [neverRollsBack_iff_durableKept] at h
  apply (Machine.throughout_iff _ _).mpr
  intro xs call ys hcalls
  apply (durableKept_iff (synced_run files xs) call).mp
  intro t
  exact (Machine.throughout_iff _ _).mp (h t) xs call ys hcalls

private theorem neverRollsBack_of_keepsHigher {files : Subtree → Option (List UInt8)}
    {calls : List StoreCall}
    (h : Machine.Throughout (storeStep host) (KeepsHigher host) (opened clipRules files) calls) :
    NeverRollsBack host (opened clipRules files) calls := by
  rw [neverRollsBack_iff_durableKept]
  intro t
  apply (Machine.throughout_iff _ _).mpr
  intro xs call ys hcalls
  have hkeeps := (Machine.throughout_iff _ _).mp h xs call ys hcalls
  exact (durableKept_iff (synced_run files xs) call).mpr hkeeps t

variable (host clipRules)

/-- A store keeps its versions over a whole run exactly when no install of the run finds memory
without a version and a higher one in the file. -/
theorem neverRollsBack_iff (files : Subtree → Option (List UInt8)) (calls : List StoreCall) :
    NeverRollsBack host (opened clipRules files) calls ↔
      Machine.Throughout (storeStep host) (KeepsHigher host) (opened clipRules files) calls :=
  ⟨keepsHigher_of_neverRollsBack, neverRollsBack_of_keepsHigher⟩

section UnreadableFile

open FleetProto.Recorded

private def receiptSignature : List UInt8 :=
  [8, 216, 157, 221, 255, 91, 168, 234, 78, 251, 191, 46, 139, 128, 227, 119, 245, 255, 74, 37,
    173, 185, 242, 199, 253, 4, 96, 52, 2, 222, 193, 185, 213, 192, 128, 32, 244, 243, 180, 1, 8,
    148, 115, 228, 37, 12, 87, 51, 151, 87, 190, 228, 238, 75, 175, 185, 132, 97, 179, 149, 191,
    228, 98, 3]

private def staleSignature : List UInt8 :=
  [94, 44, 107, 30, 6, 194, 108, 252, 117, 172, 104, 99, 131, 55, 192, 4, 15, 159, 31, 154, 44,
    120, 69, 165, 91, 162, 163, 106, 28, 50, 174, 49, 61, 138, 137, 43, 1, 18, 33, 7, 28, 29, 40,
    78, 142, 34, 51, 107, 189, 181, 120, 111, 128, 163, 250, 15, 50, 193, 228, 131, 192, 137, 97,
    9]

private def receiptConfig : Json.Document where
  value := .object [("inkReceipt", .object [])]
  uniqueKeys := .object (by simp) fun m hm => by
    rw [List.mem_singleton.mp hm]
    exact .object (by simp) (by simp)

/-- Version 5 of the receipt policy, as the fleet server signs it. -/
private def receipt : EpochInstallInput where
  version := 5
  config := receiptConfig
  lockedPaths := []
  managed := true
  targetKind := "org"
  targetId := none
  signatureB64 :=
    "CNid3f9bqOpO+78ui4Djd/X/SiWtufLH/QRgNALewbnVwIAg9PO0AQiUc+QlDFczl1e+5O5Lr7mEYbOVv+RiAw=="
  signerKeyB64 := serverKeyB64

/-- The version 3 that the server signed before it. -/
private def stale : EpochInstallInput :=
  { receipt with
    version := 3
    signatureB64 :=
      "XixrHgbCbPx1rGhjgzfABA+fH5oseEWlW6KjahwyrjE9iokrARIhBxwdKE6OIjNrvbV4b4Cj+g8yweSDwIlhCQ==" }

/-- The file of an epoch, with one digit for its version. -/
private def fileBytes (version : Char) (signature : String) : List UInt8 :=
  Json.utf8 ("\x7b\"version\":".toList ++ version ::
    (",\"config\":\x7b\"inkReceipt\":\x7b\x7d\x7d,\"locked_paths\":[],\"managed\":true," ++
      "\"target_kind\":\"org\",\"target_id\":null,\"signature_b64\":\"" ++ signature ++
      "\",\"signer_key_b64\":\"" ++ serverKeyB64 ++ "\"\x7d").toList)

private def receiptBytes : List UInt8 := fileBytes '5' receipt.signatureB64

private def staleBytes : List UInt8 := fileBytes '3' stale.signatureB64

private theorem receiptBytes_ne_staleBytes : receiptBytes ≠ staleBytes := by
  intro h
  have htext := List.append_cancel_left (Json.utf8_injective h)
  exact absurd (List.cons.inj htext).1 (by decide)

/-- The format of the two files. -/
private def codec : EpochCodec where
  toVec input :=
    if input = receipt then some receiptBytes
    else if input = stale then some staleBytes else none
  fromSlice bytes :=
    if bytes = receiptBytes then some receipt
    else if bytes = staleBytes then some stale else none
  version_fromSlice := by
    intro input bytes h
    split at h
    · next hinput =>
      rw [← Option.some.inj h, if_pos rfl, hinput]
      rfl
    · split at h
      · next hinput =>
        rw [← Option.some.inj h, if_neg receiptBytes_ne_staleBytes.symm, if_pos rfl, hinput]
        rfl
      · exact absurd h (by simp)

private def recording : Recording where
  texts := [(serverKeyB64, serverKey), (receipt.signatureB64, receiptSignature),
    (stale.signatureB64, staleSignature)]
  signed := [(serverKey, epochPreimage receipt.signingInput, receiptSignature),
    (serverKey, epochPreimage stale.signingInput, staleSignature)]

private def receiptHost : Host (List UInt8) where
  crypto := recording.crypto
  pinnedSigningKeyB64 := serverKeyB64
  codec := codec

/-- No clipboard rule is ever read here. -/
private def noRules : ClipRules where
  Rules := Unit
  ContentRulesSubtree := Unit
  CompiledRuleSet := Unit
  contentRulesEq := inferInstance
  rulesFromValue _ := none
  contentRulesFromValue _ := none
  compile _ := .ok ()
  compileContentRules _ := .ok ()

private def noFaults : InstallFaults := ⟨none, none⟩

private theorem persisted {input : EpochInstallInput} {bytes : List UInt8}
    (hsigner : input.signerKeyB64 = serverKeyB64) (hconfig : input.config = receiptConfig)
    (hverifies : verifySignatureB64 recording.crypto serverKeyB64
      (epochPreimage input.signingInput) input.signatureB64 = true)
    (hbytes : codec.toVec input = some bytes) :
    persist receiptHost inkReceiptCompiler input noFaults =
      .ok ((.object [], .object []), bytes) := by
  have hsigned : verifyEpochSignature receiptHost input = .ok () := by
    apply bind_ok.mpr
    refine ⟨(), refuseIf_neg _ (not_not_intro hsigner), refuseIf_neg _ ?_⟩
    show ¬ verifySignatureB64 recording.crypto serverKeyB64 _ _ = false
    rw [hverifies]
    decide
  have hcompiled : verifyAndCompile receiptHost inkReceiptCompiler none input =
      .ok (.object [], .object []) := by
    rw [verifyAndCompile, hsigned, hconfig]
    rfl
  have hstored : okOr (receiptHost.codec.toVec input) PolicyStoreError.deserializeFailed =
      .ok bytes := okOr_ok.mpr hbytes
  rw [persist, noFaults, hcompiled]
  show (do let bytes ← okOr (receiptHost.codec.toVec input) PolicyStoreError.deserializeFailed; _) = _
  rw [hstored]
  rfl

private theorem serverKey_text : recording.texts.lookup serverKeyB64 = some serverKey := rfl

private theorem receipt_persisted : persist receiptHost inkReceiptCompiler receipt noFaults =
    .ok ((.object [], .object []), receiptBytes) := by
  have htext : recording.texts.lookup receipt.signatureB64 = some receiptSignature := rfl
  exact persisted rfl rfl
    (recording.verifies serverKey_text htext (by decide) List.mem_cons_self) rfl

private theorem stale_persisted : persist receiptHost inkReceiptCompiler stale noFaults =
    .ok ((.object [], .object []), staleBytes) := by
  have htext : recording.texts.lookup stale.signatureB64 = some staleSignature := rfl
  exact persisted rfl rfl (recording.verifies serverKey_text htext (by decide)
    (List.mem_cons_of_mem _ List.mem_cons_self)) rfl

/-- The read of the one restart is denied. -/
private def staleRun : List StoreCall := [
  .install .inkReceipt receipt 1000 noFaults,
  .restart fun _ => ⟨some "PermissionDenied", none⟩,
  .install .inkReceipt stale 2000 noFaults]

private theorem slot_after_install :
    storeStep receiptHost (opened noRules fun _ => none) (.install .inkReceipt receipt 1000 noFaults)
      .inkReceipt = { memory := ManagedSubtree.swap receipt (.object [], .object []) (some 1000),
                      file := some receiptBytes } := by
  rw [storeStep, Function.update_self]
  exact congrArg Prod.fst (Slot.install_of_persist rfl receipt_persisted)

private theorem slot_after_restart :
    storeStep receiptHost (storeStep receiptHost (opened noRules fun _ => none)
        (.install .inkReceipt receipt 1000 noFaults))
      (.restart fun _ => ⟨some "PermissionDenied", none⟩) .inkReceipt =
        { memory := ManagedSubtree.new, file := some receiptBytes } := by
  show (Slot.restart receiptHost (storeStep receiptHost _ _ .inkReceipt) _).1 = _
  rw [slot_after_install]
  rfl

private theorem stale_admitted :
    (persist receiptHost inkReceiptCompiler stale noFaults).toBool = true := by
  rw [stale_persisted]
  rfl

private theorem fromSlice_receiptBytes :
    receiptHost.codec.fromSlice receiptBytes = some receipt := by
  simp only [receiptHost, codec, if_true]

private theorem durableVersion_receipt : Slot.durableVersion receiptHost
    { memory := ManagedSubtree.new (C := inkReceiptCompiler), file := some receiptBytes } =
      some 5 := by
  rw [Slot.durableVersion, Option.bind_some, fromSlice_receiptBytes, Option.map_some]
  rfl

/-- After a load that could not read its file, version 3 is stored over version 5. -/
theorem stale_epoch_stored :
    ¬ NeverRollsBack receiptHost (opened noRules fun _ => none) staleRun := by
  intro h
  have hkeeps := (keepsHigher_of_neverRollsBack h).2.2.1
  have hle := hkeeps (by rw [slot_after_restart]; rfl) stale_admitted 5
    (by rw [slot_after_restart]; exact durableVersion_receipt)
  exact absurd hle (by decide)

end UnreadableFile

end PolicyStore
