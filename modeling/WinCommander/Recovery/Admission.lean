import WinCommander.Library.Hex
import WinCommander.Library.AsciiText
import WinCommander.Library.Run
import WinCommander.Recovery.Plan
import WinCommander.Wipe.Contract

/-!
# Admission of a recovery wipe

A call checks the token, the signature of the plan and what it observes against the plan, and takes the
nonce by creating a file for it.  Calls of any number of processes share the store of these files.
-/

namespace RecoveryWipe

open Outcome WipeAuth

section Validation

structure VerifiedRecoveryArtifacts where
  wimSha256 : String
  toolsSha256 : String
  deriving DecidableEq

structure RecoveryExecutionEvidence where
  deviceId : String
  recoveryPartition : RecoveryPartitionIdentity
  targetDisks : List DiskIdentity
  artifacts : VerifiedRecoveryArtifacts
  oneShotBootEntry : String
  onExternalPower : Bool
  deriving DecidableEq

/-- A call is refused, or it panics. -/
inductive Refusal where
  | refused (message : String)
  | panicked (message : String)
  deriving DecidableEq

def winreGptType : String := "DE94BBA4-06D1-4D40-A16A-BFD50179D6AC"

def wincommanderRecoveryGptType : String := "F19D5E12-4B10-4E4D-91C8-2F4F8AE7C301"

def isHexDigit (byte : UInt8) : Bool :=
  (48 ≤ byte && byte ≤ 57) || (65 ≤ byte && byte ≤ 70) || (97 ≤ byte && byte ≤ 102)

def isSha256 (value : String) : Bool :=
  (Bytes.ofString value).length = 64 && (Bytes.ofString value).all isHexDigit

def validDisk (disk : DiskIdentity) : Bool :=
  AsciiText.trim disk.serialOrWwn ≠ "" && AsciiText.trim disk.deviceInstanceId ≠ "" &&
    0 < disk.sizeBytes

def sameDisk (expected observed : DiskIdentity) : Bool := expected = observed && validDisk expected

def validRecoveryPartition (recoveryPartition : RecoveryPartitionIdentity) : Bool :=
  AsciiText.trim recoveryPartition.uniqueGuid ≠ "" &&
    AsciiText.eqIgnoreCase recoveryPartition.gptType wincommanderRecoveryGptType &&
    !AsciiText.eqIgnoreCase recoveryPartition.gptType winreGptType &&
    validDisk recoveryPartition.disk

def tokenError : WipeTokenError → String
  | .badFormat => "token is malformed or truncated"
  | .badSignature => "Ed25519 signature did not verify"
  | .wrongDevice => "device_id mismatch"
  | .expired => "token has expired"
  | .notYetValid => "token is not yet valid (issued_at in future)"
  | .wrongVersion => "unsupported token version"
  | .wrongAction => "token action is not 'wipe'"

def rejected : Fault → Refusal
  | .refused e => .refused s!"recovery wipe authorization rejected: {tokenError e}"
  | .panicked message => .panicked message

structure Request (VerifyingKey : Type) where
  plan : SignedRecoveryPlan
  evidence : RecoveryExecutionEvidence
  wipeToken : String
  planSignatureB64 : String
  verifyingKey : VerifyingKey
  nowUnix : Int64

/-- The check of a plan's signature, which is not the strict one of a token. -/
abbrev Verify (VerifyingKey : Type) := VerifyingKey → List UInt8 → List UInt8 → Bool

variable {SigningKey VerifyingKey : Type} (scheme : Scheme SigningKey VerifyingKey)
  (verify : Verify VerifyingKey)

def verifyPlanSignature (r : Request VerifyingKey) : Except Refusal Unit := do
  refuseIf (r.plan.version ≠ 1 ∨ r.plan.expiresAt < r.nowUnix)
    (.refused "recovery plan is unsupported or expired")
  let bytes ← okOr (scheme.decode r.planSignatureB64.toList)
    (.refused "recovery plan signature is malformed")
  refuseIf (bytes.length ≠ 64) (.refused "recovery plan signature is malformed")
  refuseIf (verify r.verifyingKey (canonicalSignedPlanBytes r.plan) bytes = false)
    (.refused "recovery plan signature did not verify")

def verifyToken (r : Request VerifyingKey) : Except Refusal VerifiedToken :=
  (verifyWipeToken scheme r.wipeToken r.verifyingKey r.plan.admission.deviceId r.nowUnix).mapError
    rejected

def validateAdmission (r : Request VerifyingKey) : Except Refusal Unit := do
  let admission := r.plan.admission
  let evidence := r.evidence
  let _ ← verifyToken scheme r
  refuseIf (admission.deviceId = "" ∨ admission.oneShotBootEntry = "" ∨
      isSha256 admission.wimSha256 = false ∨ isSha256 admission.toolsSha256 = false)
    (.refused "recovery admission is incomplete")
  refuseIf (admission.deviceId ≠ evidence.deviceId ∨
      admission.oneShotBootEntry ≠ evidence.oneShotBootEntry ∨ evidence.onExternalPower = false)
    (.refused "recovery device, boot entry, or power state changed")
  refuseIf (validRecoveryPartition admission.recoveryPartition = false ∨
      validRecoveryPartition evidence.recoveryPartition = false ∨
      admission.recoveryPartition.uniqueGuid ≠ evidence.recoveryPartition.uniqueGuid ∨
      sameDisk admission.recoveryPartition.disk evidence.recoveryPartition.disk = false ∨
      admission.recoveryPartition.gptType ≠ evidence.recoveryPartition.gptType)
    (.refused "recovery partition identity is not approved")
  refuseIf (admission.wimSha256 ≠ evidence.artifacts.wimSha256 ∨
      admission.toolsSha256 ≠ evidence.artifacts.toolsSha256)
    (.refused "recovery artifact hash mismatch")
  refuseIf (admission.approvedTargetDisks = [] ∨ 4 < admission.approvedTargetDisks.length ∨
      admission.approvedTargetDisks.length ≠ evidence.targetDisks.length ∨
      (admission.approvedTargetDisks.zip evidence.targetDisks).all (fun disks =>
        sameDisk disks.1 disks.2) = false)
    (.refused "recovery target disk identity changed since approval")

/-- Everything that a call checks before it turns to the store. -/
def validate (r : Request VerifyingKey) : Except Refusal Unit := do
  let verifiedToken ← verifyToken scheme r
  refuseIf (verifiedToken.nonce ≠ r.plan.wipeTokenNonce)
    (.refused "recovery plan is not bound to this wipe authorization")
  verifyPlanSignature scheme verify r
  validateAdmission scheme r

end Validation

section Calls

inductive Outcome where
  | ok
  | refused (refusal : Refusal)
  | nonceStore (message : String)
  deriving DecidableEq

/-- The store has a directory with a file for each nonce, and each file a call that created it. -/
structure NonceStore where
  directory : Bool
  files : List Char → Option ℕ

/-- How far a call has come; a crash may end it anywhere. -/
inductive Progress (VerifyingKey : Type) where
  | idle
  | admitted (r : Request VerifyingKey)
  | prepared (r : Request VerifyingKey)
  | created (r : Request VerifyingKey)
  | returned (r : Request VerifyingKey) (outcome : Outcome)
  | crashed

structure World (VerifyingKey : Type) where
  store : NonceStore
  calls : ℕ → Progress VerifyingKey

def World.start {VerifyingKey : Type} : World VerifyingKey := ⟨⟨false, fun _ => none⟩, fun _ => .idle⟩

/-- What a call does next; an operation on the store may fail. -/
inductive Action (VerifyingKey : Type) where
  | validate (r : Request VerifyingKey)
  | createDirAll (fails : Bool)
  | createNew (fails : Bool)
  | persist (fails : Bool)
  | crash

structure Step (VerifyingKey : Type) where
  call : ℕ
  action : Action VerifyingKey

def usedName (nonce : Nonce) : List Char := Hex.encode nonce.val ++ ".used".toList

variable {SigningKey VerifyingKey : Type} (scheme : Scheme SigningKey VerifyingKey)
  (verify : Verify VerifyingKey)

/-- One step of a call on the store; a step that is not its next one does nothing. -/
@[grind =] def act (store : NonceStore) (call : ℕ) : Progress VerifyingKey → Action VerifyingKey →
    NonceStore × Progress VerifyingKey
  | .idle, .validate r =>
      match validate scheme verify r with
      | .ok () => (store, .admitted r)
      | .error e => (store, .returned r (.refused e))
  | .admitted r, .createDirAll fails =>
      if fails then (store, .returned r (.nonceStore "recovery nonce store is unavailable"))
      else ({ store with directory := true }, .prepared r)
  | .prepared r, .createNew fails =>
      if store.files (usedName r.plan.wipeTokenNonce) ≠ none then
        (store, .returned r (.nonceStore "recovery authorization nonce was already consumed"))
      else if fails then (store, .returned r (.nonceStore "recovery nonce store is unavailable"))
      else
        ({ store with files := Function.update store.files (usedName r.plan.wipeTokenNonce) (some call) },
          .created r)
  | .created r, .persist fails =>
      if fails then (store, .returned r (.nonceStore "recovery nonce could not be persisted"))
      else (store, .returned r .ok)
  | .returned r outcome, _ => (store, .returned r outcome)
  | _, .crash => (store, .crashed)
  | progress, _ => (store, progress)

def step (w : World VerifyingKey) (s : Step VerifyingKey) : World VerifyingKey :=
  let next := act scheme verify w.store s.call (w.calls s.call) s.action
  ⟨next.1, Function.update w.calls s.call next.2⟩

end Calls

section Admissions

variable {SigningKey VerifyingKey : Type} (scheme : Scheme SigningKey VerifyingKey)
  (verify : Verify VerifyingKey)

/-- What a call may return success for. -/
structure Admissible (r : Request VerifyingKey) : Prop where
  token : ∃ payload signature token, tokenParts scheme r.wipeToken = .ok (payload, signature) ∧
    scheme.verifyStrict r.verifyingKey payload signature = true ∧
    parsePayloadBytes payload = .ok token ∧ token.action = "wipe" ∧
    token.deviceId = r.plan.admission.deviceId ∧ token.nonce = r.plan.wipeTokenNonce ∧
    token.issuedAt ≤ r.nowUnix ∧ r.nowUnix ≤ token.expiresAt
  plan : ∃ signature, scheme.decode r.planSignatureB64.toList = some signature ∧
    verify r.verifyingKey (canonicalSignedPlanBytes r.plan) signature = true
  unexpired : r.nowUnix ≤ r.plan.expiresAt
  deviceId : r.evidence.deviceId = r.plan.admission.deviceId
  bootEntry : r.evidence.oneShotBootEntry = r.plan.admission.oneShotBootEntry
  power : r.evidence.onExternalPower = true
  recoveryPartition : r.evidence.recoveryPartition = r.plan.admission.recoveryPartition
  wimSha256 : r.evidence.artifacts.wimSha256 = r.plan.admission.wimSha256
  toolsSha256 : r.evidence.artifacts.toolsSha256 = r.plan.admission.toolsSha256
  targetDisks : r.evidence.targetDisks = r.plan.admission.approvedTargetDisks

variable {scheme verify}

theorem eq_of_sameDisk {xs ys : List DiskIdentity} (hlength : xs.length = ys.length)
    (h : (xs.zip ys).all (fun disks => sameDisk disks.1 disks.2) = true) : xs = ys := by
  induction xs generalizing ys with
  | nil => exact (List.length_eq_zero_iff.mp hlength.symm).symm
  | cons x xs ih =>
    cases ys with
    | nil => cases hlength
    | cons y ys =>
      rw [List.zip_cons_cons, List.all_cons, Bool.and_eq_true] at h
      have hxy : x = y := of_decide_eq_true (Bool.and_eq_true_iff.mp h.1).1
      rw [hxy, ih (Nat.succ.inj hlength) h.2]

theorem verifyToken_ok {r : Request VerifyingKey} {token : VerifiedToken}
    (h : verifyToken scheme r = .ok token) :
    verifyWipeToken scheme r.wipeToken r.verifyingKey r.plan.admission.deviceId r.nowUnix =
      .ok token := by
  rw [verifyToken] at h
  cases hverify : verifyWipeToken scheme r.wipeToken r.verifyingKey r.plan.admission.deviceId
    r.nowUnix with
  | error e =>
    rw [hverify] at h
    cases h
  | ok token' =>
    rw [hverify] at h
    have htoken : token' = token := Except.ok.inj h
    rw [htoken]

theorem verifyPlanSignature_ok {r : Request VerifyingKey}
    (h : verifyPlanSignature scheme verify r = .ok ()) :
    r.nowUnix ≤ r.plan.expiresAt ∧ ∃ signature,
      scheme.decode r.planSignatureB64.toList = some signature ∧
      verify r.verifyingKey (canonicalSignedPlanBytes r.plan) signature = true := by
  rw [verifyPlanSignature] at h
  obtain ⟨_, hversion, h⟩ := bind_ok.mp h
  obtain ⟨signature, hdecode, h⟩ := bind_ok.mp h
  obtain ⟨_, _, h⟩ := bind_ok.mp h
  have hexpires := (not_or.mp (refuseIf_ok.mp hversion)).2
  have hverify := refuseIf_ok.mp h
  exact ⟨Int64.not_lt.mp hexpires, signature, okOr_ok.mp hdecode, Bool.eq_true_of_not_eq_false hverify⟩

theorem admissible_of_validate {r : Request VerifyingKey} (h : validate scheme verify r = .ok ()) :
    Admissible scheme verify r := by
  rw [validate] at h
  obtain ⟨token, htoken, h⟩ := bind_ok.mp h
  obtain ⟨_, hnonce, h⟩ := bind_ok.mp h
  obtain ⟨_, hsignature, h⟩ := bind_ok.mp h
  rw [validateAdmission] at h
  obtain ⟨_, _, h⟩ := bind_ok.mp h
  obtain ⟨_, _, h⟩ := bind_ok.mp h
  obtain ⟨_, hdevice, h⟩ := bind_ok.mp h
  obtain ⟨_, hpartition, h⟩ := bind_ok.mp h
  obtain ⟨_, hartifacts, h⟩ := bind_ok.mp h
  obtain ⟨payload, signature, hparts, _, hverify, hparse, _, haction, hdeviceId, hissued, hexpires⟩ :=
    verifyWipeToken_ok_iff.mp (verifyToken_ok htoken)
  obtain ⟨hunexpired, hplan⟩ := verifyPlanSignature_ok hsignature
  have hnonce := not_not.mp (refuseIf_ok.mp hnonce)
  have hdevice := refuseIf_ok.mp hdevice
  have hpartition := refuseIf_ok.mp hpartition
  have hartifacts := refuseIf_ok.mp hartifacts
  have hdisks := refuseIf_ok.mp h
  simp only [not_or, not_not, Bool.not_eq_false] at hdevice hpartition hartifacts hdisks
  have hdisk : r.plan.admission.recoveryPartition.disk = r.evidence.recoveryPartition.disk :=
    of_decide_eq_true (Bool.and_eq_true_iff.mp hpartition.2.2.2.1).1
  refine ⟨⟨payload, signature, token, hparts, hverify, hparse, haction, hdeviceId, hnonce, hissued,
    hexpires⟩, hplan, hunexpired, hdevice.1.symm, hdevice.2.1.symm, hdevice.2.2, ?_,
    hartifacts.1.symm, hartifacts.2.symm, (eq_of_sameDisk hdisks.2.2.1 hdisks.2.2.2).symm⟩
  cases hobserved : r.evidence.recoveryPartition
  cases hsigned : r.plan.admission.recoveryPartition
  rw [hobserved, hsigned] at hpartition hdisk
  simp only at hpartition hdisk
  rw [hpartition.2.2.1, hpartition.2.2.2.2, hdisk]

end Admissions

section Invariants

variable {SigningKey VerifyingKey : Type} {scheme : Scheme SigningKey VerifyingKey}
  {verify : Verify VerifyingKey}

/-- What a call that came this far has: its request was validated, and its nonce's file is its own. -/
def Stands (scheme : Scheme SigningKey VerifyingKey) (verify : Verify VerifyingKey)
    (store : NonceStore) (call : ℕ) : Progress VerifyingKey → Prop
  | .admitted r | .prepared r => validate scheme verify r = .ok ()
  | .created r | .returned r .ok => validate scheme verify r = .ok () ∧
      store.files (usedName r.plan.wipeTokenNonce) = some call
  | _ => True

/-- No file goes away or changes hands. -/
def Grows (store store' : NonceStore) : Prop :=
  ∀ name call, store.files name = some call → store'.files name = some call

/-- A call that will not be refused any more. -/
def Past : Progress VerifyingKey → Prop
  | .idle | .returned _ (.refused _) => False
  | _ => True

theorem usedName_injective {m n : Nonce} (h : usedName m = usedName n) : m = n :=
  Subtype.ext (Hex.encode_injective (List.append_cancel_right h))

variable {store : NonceStore} {call : ℕ} {progress : Progress VerifyingKey}
  {action : Action VerifyingKey}

/-- A step leaves the store, makes the directory for a validated request, or creates the file of one. -/
theorem act_cases (action : Action VerifyingKey) (h : Stands scheme verify store call progress) :
    ((act scheme verify store call progress action).1 = store ∧
        Stands scheme verify store call (act scheme verify store call progress action).2) ∨
      (∃ r, validate scheme verify r = .ok () ∧
        act scheme verify store call progress action = ({ store with directory := true }, .prepared r)) ∨
      ∃ r, validate scheme verify r = .ok () ∧ store.files (usedName r.plan.wipeTokenNonce) = none ∧
        act scheme verify store call progress action = ({ store with
          files := Function.update store.files (usedName r.plan.wipeTokenNonce) (some call) },
            .created r) := by
  cases progress with
  | idle =>
    cases action with
    | validate r =>
      refine Or.inl ?_
      cases hvalid : validate scheme verify r with
      | ok u =>
        simp only [act, hvalid]
        exact ⟨trivial, hvalid⟩
      | error e =>
        simp only [act, hvalid]
        exact ⟨trivial, trivial⟩
    | _ => exact Or.inl ⟨rfl, trivial⟩
  | admitted r =>
    cases action with
    | createDirAll fails =>
      cases fails with
      | true => exact Or.inl ⟨rfl, trivial⟩
      | false => exact Or.inr (Or.inl ⟨r, h, rfl⟩)
    | crash => exact Or.inl ⟨rfl, trivial⟩
    | _ => exact Or.inl ⟨rfl, h⟩
  | prepared r =>
    cases action with
    | createNew fails =>
      by_cases hused : store.files (usedName r.plan.wipeTokenNonce) = none
      · cases fails with
        | true =>
          simp only [act, hused, ne_eq, not_true_eq_false, if_false, if_true]
          exact Or.inl ⟨trivial, trivial⟩
        | false =>
          refine Or.inr (Or.inr ⟨r, h, hused, ?_⟩)
          simp [act, hused]
      · simp only [act, if_pos hused]
        exact Or.inl ⟨trivial, trivial⟩
    | crash => exact Or.inl ⟨rfl, trivial⟩
    | _ => exact Or.inl ⟨rfl, h⟩
  | created r =>
    cases action with
    | persist fails =>
      cases fails with
      | true => exact Or.inl ⟨rfl, trivial⟩
      | false => exact Or.inl ⟨rfl, h⟩
    | crash => exact Or.inl ⟨rfl, trivial⟩
    | _ => exact Or.inl ⟨rfl, h⟩
  | returned r outcome => exact Or.inl ⟨rfl, h⟩
  | crashed => cases action <;> exact Or.inl ⟨rfl, trivial⟩

theorem grows_update {name : List Char} (hfree : store.files name = none) :
    Grows store { store with files := Function.update store.files name (some call) } := by
  intro other owner howner
  have hne : other ≠ name := by
    rintro rfl
    rw [hfree] at howner
    cases howner
  exact (Function.update_of_ne hne ..).trans howner

theorem act_grows (h : Stands scheme verify store call progress) :
    Grows store (act scheme verify store call progress action).1 := by
  rcases act_cases action h with ⟨hstore, _⟩ | ⟨r, _, hact⟩ | ⟨r, _, hfree, hact⟩
  · rw [hstore]
    exact fun _ _ howner => howner
  · rw [hact]
    exact fun _ _ howner => howner
  · rw [hact]
    exact grows_update hfree

theorem act_stands (h : Stands scheme verify store call progress) :
    Stands scheme verify (act scheme verify store call progress action).1 call
      (act scheme verify store call progress action).2 := by
  rcases act_cases action h with ⟨hstore, hstands⟩ | ⟨r, hvalid, hact⟩ | ⟨r, hvalid, _, hact⟩
  · rw [hstore]
    exact hstands
  · rw [hact]
    exact hvalid
  · rw [hact]
    exact ⟨hvalid, Function.update_self ..⟩

theorem Stands.mono {store' : NonceStore} (h : Stands scheme verify store call progress)
    (hgrows : Grows store store') : Stands scheme verify store' call progress := by
  cases progress with
  | created r => exact ⟨h.1, hgrows _ _ h.2⟩
  | returned r outcome =>
    cases outcome with
    | ok => exact ⟨h.1, hgrows _ _ h.2⟩
    | _ => trivial
  | _ => exact h

/-- A call that changes the store will not be refused any more. -/
theorem act_past_of_change (h : Stands scheme verify store call progress)
    (hchange : (act scheme verify store call progress action).1 ≠ store) :
    Past (act scheme verify store call progress action).2 := by
  rcases act_cases action h with ⟨hstore, _⟩ | ⟨r, _, hact⟩ | ⟨r, _, _, hact⟩
  · exact absurd hstore hchange
  · rw [hact]
    trivial
  · rw [hact]
    trivial

theorem act_past (h : Past progress) : Past (act scheme verify store call progress action).2 := by
  cases progress with
  | idle => exact h.elim
  | admitted r =>
    cases action with
    | createDirAll fails => cases fails <;> trivial
    | _ => trivial
  | prepared r =>
    cases action with
    | createNew fails =>
      by_cases hused : store.files (usedName r.plan.wipeTokenNonce) = none
      · cases fails <;> simp [act, hused, Past]
      · simp [act, hused, Past]
    | _ => trivial
  | created r =>
    cases action with
    | persist fails => cases fails <;> trivial
    | _ => trivial
  | returned r outcome => exact h
  | crashed => cases action <;> trivial

end Invariants

section Runs

variable {SigningKey VerifyingKey : Type} {scheme : Scheme SigningKey VerifyingKey}
  {verify : Verify VerifyingKey}

def AllStand (scheme : Scheme SigningKey VerifyingKey) (verify : Verify VerifyingKey)
    (w : World VerifyingKey) : Prop :=
  ∀ call, Stands scheme verify w.store call (w.calls call)

theorem step_allStand (w : World VerifyingKey) (s : Step VerifyingKey)
    (h : AllStand scheme verify w) : AllStand scheme verify (step scheme verify w s) := by
  intro call
  by_cases hcall : call = s.call
  · rw [hcall, step]
    dsimp only
    rw [Function.update_self]
    exact act_stands (h s.call)
  · rw [step]
    dsimp only
    rw [Function.update_of_ne hcall]
    exact (h call).mono (act_grows (h s.call))

theorem run_allStand (scheme : Scheme SigningKey VerifyingKey) (verify : Verify VerifyingKey)
    (steps : List (Step VerifyingKey)) :
    AllStand scheme verify (Machine.run (step scheme verify) .start steps) :=
  Machine.run_invariant (P := fun _ _ => True) (fun w s h _ => step_allStand w s h)
    (fun _ => trivial) (Machine.Throughout.of_forall (fun _ _ => trivial) _ _)

theorem step_past (call : ℕ) (w : World VerifyingKey) (s : Step VerifyingKey)
    (h : Past (w.calls call)) : Past ((step scheme verify w s).calls call) := by
  by_cases hcall : call = s.call
  · subst hcall
    rw [step]
    dsimp only
    rw [Function.update_self]
    exact act_past h
  · rw [step]
    dsimp only
    rwa [Function.update_of_ne hcall]

/-- Plans that are signed alike are alike; of all calls with a nonce at most one returns success, and it
does so only for an admissible request; and no step of a refused call changes the store. -/
theorem recovery_admission (scheme : Scheme SigningKey VerifyingKey) (verify : Verify VerifyingKey) :
    (∀ p q, ShortPlan p → ShortPlan q → canonicalSignedPlanBytes p = canonicalSignedPlanBytes q →
      p = q) ∧
    ∀ steps, let w := Machine.run (step scheme verify) .start steps
      (∀ c c' r r', w.calls c = .returned r .ok → w.calls c' = .returned r' .ok →
        r.plan.wipeTokenNonce = r'.plan.wipeTokenNonce → c = c') ∧
      (∀ c r, w.calls c = .returned r .ok → Admissible scheme verify r) ∧
      ∀ before s after, steps = before ++ s :: after →
        ∀ r refusal, w.calls s.call = .returned r (.refused refusal) →
          (step scheme verify (Machine.run (step scheme verify) .start before) s).store =
            (Machine.run (step scheme verify) .start before).store := by
  refine ⟨fun p q hp hq h => canonicalSignedPlanBytes_injective hp hq h, fun steps => ⟨?_, ?_, ?_⟩⟩
  · intro c c' r r' hc hc' hnonce
    have hown := run_allStand scheme verify steps c
    have hown' := run_allStand scheme verify steps c'
    rw [hc] at hown
    rw [hc'] at hown'
    have hfile := hown'.2
    rw [← hnonce] at hfile
    exact Option.some.inj (hown.2.symm.trans hfile)
  · intro c r hc
    have hstands := run_allStand scheme verify steps c
    rw [hc] at hstands
    exact admissible_of_validate hstands.1
  · rintro before s after rfl r refusal hrefused
    by_contra hchange
    have hbefore := run_allStand scheme verify before s.call
    have hpast : Past ((step scheme verify (Machine.run (step scheme verify) .start before) s).calls
        s.call) := by
      rw [step]
      dsimp only
      rw [Function.update_self]
      exact act_past_of_change hbefore hchange
    have hlast : Past ((Machine.run (step scheme verify) .start (before ++ s :: after)).calls s.call) := by
      rw [Machine.run_append, Machine.run_cons]
      exact Machine.run_invariant (P := fun _ _ => True) (fun w t h _ => step_past s.call w t h) hpast
        (Machine.Throughout.of_forall (fun _ _ => trivial) _ _)
    rw [hrefused] at hlast
    exact hlast

end Runs
end RecoveryWipe
