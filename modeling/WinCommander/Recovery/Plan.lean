import WinCommander.Library.SelfDelimiting
import WinCommander.Wipe.Contract

/-!
# Signed recovery plans

What the plan of a recovery wipe says, and the bytes that are signed for it.
-/

namespace RecoveryWipe

open WipeAuth

section Plans

structure DiskIdentity where
  diskNumber : UInt32
  serialOrWwn : String
  deviceInstanceId : String
  sizeBytes : UInt64
  deriving DecidableEq

structure RecoveryPartitionIdentity where
  uniqueGuid : String
  gptType : String
  disk : DiskIdentity
  deriving DecidableEq

structure RecoveryWipeAdmission where
  deviceId : String
  recoveryPartition : RecoveryPartitionIdentity
  approvedTargetDisks : List DiskIdentity
  wimSha256 : String
  toolsSha256 : String
  oneShotBootEntry : String
  deriving DecidableEq

structure SignedRecoveryPlan where
  version : UInt8
  admission : RecoveryWipeAdmission
  wipeTokenNonce : Nonce
  expiresAt : Int64
  deriving DecidableEq

/-- A count in four bytes; a larger one is cut off. -/
def u32Bytes (n : ℕ) : List UInt8 := Bytes.toBe 4 n

def u64Bytes (n : UInt64) : List UInt8 := Bytes.toBe 8 n.toNat

def putStr (value : String) : List UInt8 :=
  u32Bytes (Bytes.ofString value).length ++ Bytes.ofString value

def putDisk (disk : DiskIdentity) : List UInt8 :=
  u32Bytes disk.diskNumber.toNat ++ (putStr disk.serialOrWwn ++ (putStr disk.deviceInstanceId ++
    u64Bytes disk.sizeBytes))

def putDisks (disks : List DiskIdentity) : List UInt8 :=
  u32Bytes disks.length ++ disks.flatMap putDisk

def magic : List UInt8 := Bytes.ofString "WINCOMMANDER-RECOVERY-WIPE-PLAN\x00"

def canonicalSignedPlanBytes (plan : SignedRecoveryPlan) : List UInt8 :=
  magic ++ (plan.version :: (putStr plan.admission.deviceId ++
    (putStr plan.admission.recoveryPartition.uniqueGuid ++
    (putStr plan.admission.recoveryPartition.gptType ++
    (putDisk plan.admission.recoveryPartition.disk ++
    (putDisks plan.admission.approvedTargetDisks ++ (putStr plan.admission.wimSha256 ++
    (putStr plan.admission.toolsSha256 ++ (putStr plan.admission.oneShotBootEntry ++
    (plan.wipeTokenNonce.val ++ i64Bytes plan.expiresAt))))))))))

end Plans

section Encoding

/-- A text whose length fits in four bytes. -/
def ShortText (value : String) : Prop := (Bytes.ofString value).length < 2 ^ 32

structure ShortDisk (disk : DiskIdentity) : Prop where
  serialOrWwn : ShortText disk.serialOrWwn
  deviceInstanceId : ShortText disk.deviceInstanceId

structure ShortPlan (plan : SignedRecoveryPlan) : Prop where
  deviceId : ShortText plan.admission.deviceId
  uniqueGuid : ShortText plan.admission.recoveryPartition.uniqueGuid
  gptType : ShortText plan.admission.recoveryPartition.gptType
  disk : ShortDisk plan.admission.recoveryPartition.disk
  count : plan.admission.approvedTargetDisks.length < 2 ^ 32
  disks : ∀ disk ∈ plan.admission.approvedTargetDisks, ShortDisk disk
  wimSha256 : ShortText plan.admission.wimSha256
  toolsSha256 : ShortText plan.admission.toolsSha256
  oneShotBootEntry : ShortText plan.admission.oneShotBootEntry

theorem toBe_injective {width m n : ℕ} (hm : m < 256 ^ width) (hn : n < 256 ^ width)
    (h : Bytes.toBe width m = Bytes.toBe width n) : m = n := by
  rw [← Bytes.ofBe_toBe_of_lt hm, h, Bytes.ofBe_toBe_of_lt hn]

theorem selfDelimiting_u32Bytes : SelfDelimiting (· < 2 ^ 32) u32Bytes := by
  refine .of_length (fun n _ => Bytes.length_toBe 4 n) fun m n hm hn h => ?_
  exact toBe_injective (by norm_num; exact hm) (by norm_num; exact hn) h

theorem selfDelimiting_u64Bytes : SelfDelimiting (fun _ => True) u64Bytes := by
  refine .of_length (fun n _ => Bytes.length_toBe 8 n.toNat) fun m n _ _ h => ?_
  exact UInt64.toNat.inj (toBe_injective (by norm_num; exact m.toNat_lt) (by norm_num; exact n.toNat_lt) h)

theorem ofString_injective {s t : String} (h : Bytes.ofString s = Bytes.ofString t) : s = t := by
  have hs := Bytes.toString_ofString s
  rw [h, Bytes.toString_ofString t] at hs
  exact (Option.some.inj hs).symm

theorem selfDelimiting_putStr : SelfDelimiting ShortText putStr :=
  .prefixed selfDelimiting_u32Bytes (fun _ _ _ _ => ofString_injective) fun _ h => h

theorem selfDelimiting_putDisk : SelfDelimiting ShortDisk putDisk := by
  intro a b r s ha hb h
  simp only [putDisk, List.append_assoc] at h
  obtain ⟨hnumber, h⟩ := selfDelimiting_u32Bytes _ _ _ _ a.diskNumber.toNat_lt b.diskNumber.toNat_lt h
  obtain ⟨hserial, h⟩ := selfDelimiting_putStr _ _ _ _ ha.serialOrWwn hb.serialOrWwn h
  obtain ⟨hinstance, h⟩ := selfDelimiting_putStr _ _ _ _ ha.deviceInstanceId hb.deviceInstanceId h
  obtain ⟨hsize, h⟩ := selfDelimiting_u64Bytes _ _ _ _ trivial trivial h
  refine ⟨?_, h⟩
  cases a
  cases b
  simp only at hnumber hserial hinstance hsize
  rw [UInt32.toNat.inj hnumber, hserial, hinstance, hsize]

theorem selfDelimiting_putDisks : SelfDelimiting
    (fun disks : List DiskIdentity => disks.length < 2 ^ 32 ∧ ∀ disk ∈ disks, ShortDisk disk)
    putDisks :=
  .counted selfDelimiting_u32Bytes selfDelimiting_putDisk

theorem i64Bytes_injective {x y : Int64} (h : i64Bytes x = i64Bytes y) : x = y := by
  rw [← i64OfBytes_i64Bytes x, h, i64OfBytes_i64Bytes]

/-- Plans that are signed alike are alike. -/
theorem canonicalSignedPlanBytes_injective {p q : SignedRecoveryPlan} (hp : ShortPlan p)
    (hq : ShortPlan q) (h : canonicalSignedPlanBytes p = canonicalSignedPlanBytes q) : p = q := by
  rw [canonicalSignedPlanBytes, canonicalSignedPlanBytes] at h
  obtain ⟨hversion, h⟩ := List.cons.inj (List.append_cancel_left h)
  obtain ⟨hdevice, h⟩ := selfDelimiting_putStr _ _ _ _ hp.deviceId hq.deviceId h
  obtain ⟨hguid, h⟩ := selfDelimiting_putStr _ _ _ _ hp.uniqueGuid hq.uniqueGuid h
  obtain ⟨htype, h⟩ := selfDelimiting_putStr _ _ _ _ hp.gptType hq.gptType h
  obtain ⟨hdisk, h⟩ := selfDelimiting_putDisk _ _ _ _ hp.disk hq.disk h
  obtain ⟨hdisks, h⟩ := selfDelimiting_putDisks _ _ _ _ ⟨hp.count, hp.disks⟩ ⟨hq.count, hq.disks⟩ h
  obtain ⟨hwim, h⟩ := selfDelimiting_putStr _ _ _ _ hp.wimSha256 hq.wimSha256 h
  obtain ⟨htools, h⟩ := selfDelimiting_putStr _ _ _ _ hp.toolsSha256 hq.toolsSha256 h
  obtain ⟨hboot, h⟩ := selfDelimiting_putStr _ _ _ _ hp.oneShotBootEntry hq.oneShotBootEntry h
  have hlength : p.wipeTokenNonce.val.length = q.wipeTokenNonce.val.length :=
    p.wipeTokenNonce.property.trans q.wipeTokenNonce.property.symm
  obtain ⟨hnonce, hexpires⟩ := List.append_inj h hlength
  obtain ⟨_, ⟨_, ⟨_, _, _⟩, _, _, _, _⟩, _, _⟩ := p
  obtain ⟨_, ⟨_, ⟨_, _, _⟩, _, _, _, _⟩, _, _⟩ := q
  simp only at *
  simp only [SignedRecoveryPlan.mk.injEq, RecoveryWipeAdmission.mk.injEq,
    RecoveryPartitionIdentity.mk.injEq]
  exact ⟨hversion, ⟨hdevice, ⟨hguid, htype, hdisk⟩, hdisks, hwim, htools, hboot⟩,
    Subtype.ext hnonce, i64Bytes_injective hexpires⟩

end Encoding
end RecoveryWipe
