import Mathlib
import WinCommander.Library.JsonDepth
import WinCommander.Library.JsonSize
import WinCommander.Library.Outcome
import WinCommander.Library.Serde
import WinCommander.Proto.Preimages
import WinCommander.Proto.Signature

/-!
# The authority of managed deployments

The service is bound to one organisation, device and signing key, and keeps a journal of the jobs that
it admitted.  A job is a setup, known by the digest of its bundle.
-/

namespace ManagedDeployment

open FleetProto Json Outcome

section Authority

structure ManagedDeploymentContext where
  orgId : String
  deviceId : String
  signingKeyB64 : String
  deriving DecidableEq

/-- A signed command, as far as it is read here. -/
structure SignedCommand where
  idempotencyKey : String
  deviceId : String
  catalogId : String
  actionClass : ActionClass
  payload : Document
  epochVersion : Int64
  signature : String
  signerKey : String

structure ManagedDeploymentRequest where
  command : SignedCommand
  bundle : Document

/-- A result is recorded as it is; `null` stands for none. -/
structure JournalEntry where
  digest : String
  result : Option Value
  notNull : result ≠ some .null

abbrev Jobs := AList fun _ : String => JournalEntry

structure Authority where
  context : Option ManagedDeploymentContext
  maxEpoch : Int64
  jobs : Jobs

def Authority.default : Authority := ⟨none, 0, ∅⟩

/-- The signature scheme and the hash, in hexadecimal. -/
structure Platform (Key : Type) where
  crypto : Crypto Key
  sha256 : List UInt8 → String

inductive Decision where
  | apply (setupId : String)
  | observed (result : Value)

def boundedId (value : String) (max : ℕ) : Bool :=
  value ≠ "" && value.utf8ByteSize ≤ max &&
    value.toList.all fun c => c.isAlphanum || ['-', '_', '.'].contains c

def maxJobs : ℕ := 256

variable {Key : Type} (platform : Platform Key)

def canonicalJsonSha256 (value : Value) : String := platform.sha256 (canonicalJsonBytes value)

def decodesTo32 (text : String) : Bool :=
  match platform.crypto.b64Decode text with
  | .ok bytes => bytes.length = 32
  | .error _ => false

def bind (s : Authority) (context : ManagedDeploymentContext) : Except String Authority := do
  refuseIf (boundedId context.orgId 80 = false ∨ boundedId context.deviceId 36 = false ∨
      decodesTo32 platform context.signingKeyB64 = false) "management_context_invalid"
  match s.context with
  | some existing => do
      refuseIf (existing ≠ context) "management_context_conflict"
      pure s
  | none => pure { s with context := some context }

def members : Value → Option (List (String × Value))
  | .object ms => some ms
  | _ => none

def textAt (v : Value) (key : String) : Option String := (v.get key).bind Value.asStr

def validIdempotencyKey (key : String) : Bool :=
  key ≠ "" && key.utf8ByteSize ≤ 128 &&
    key.toList.all fun c => c.isAlphanum || ['-', '_', '.', ':'].contains c

def signedBytes (command : SignedCommand) : List UInt8 :=
  canonicalCommandBytes command.idempotencyKey command.deviceId command.catalogId
    command.actionClass.asWireStr command.payload command.epochVersion

def bundleField (request : ManagedDeploymentRequest) (key : String) : Except String String :=
  okOr (textAt request.bundle.value key) "deployment_bundle_invalid"

/-- What is checked before the journal is read: the setup and the digest of its bundle. -/
def vet (s : Authority) (request : ManagedDeploymentRequest) : Except String (String × String) := do
  let context ← okOr s.context "management_service_unprovisioned"
  let command := request.command
  let payload ← okOr (members command.payload.value) "deployment_authority_invalid"
  refuseIf (payload.length ≠ 4 ∨ command.catalogId ≠ "managed_scanner.setup" ∨
      command.actionClass ≠ .destructive ∨ command.signerKey ≠ context.signingKeyB64 ∨
      command.deviceId ≠ context.deviceId ∨ command.epochVersion < s.maxEpoch ∨
      validIdempotencyKey command.idempotencyKey = false) "deployment_authority_invalid"
  refuseIf (verifySignatureB64 platform.crypto context.signingKeyB64 (signedBytes command)
      command.signature = false) "deployment_signature_invalid"
  let setupId ← bundleField request "setup_id"
  let deploymentId ← bundleField request "deployment_id"
  refuseIf (boundedId setupId 36 = false ∨ boundedId deploymentId 80 = false)
    "deployment_target_invalid"
  let orgId ← bundleField request "org_id"
  refuseIf (orgId ≠ context.orgId) "deployment_target_invalid"
  let deviceId ← bundleField request "device_id"
  refuseIf (deviceId ≠ context.deviceId ∨ textAt command.payload.value "setup_id" ≠ some setupId ∨
      textAt command.payload.value "deployment_id" ≠ some deploymentId ∨
      textAt command.payload.value "device_id" ≠ some context.deviceId) "deployment_target_invalid"
  let digest := canonicalJsonSha256 platform request.bundle.value
  refuseIf (textAt command.payload.value "bundle_sha256" ≠ some digest) "deployment_digest_invalid"
  pure (setupId, digest)

/-- The answer for a job whose result is not known. -/
def outcomeUnknown (setupId deviceId : String) : Value := .object [
  ("schema_version", .number (.ofInt 1)),
  ("setup_id", .string setupId),
  ("device_id", .string deviceId),
  ("state", .string "unknown"),
  ("reason_code", .string "installation_outcome_unknown")]

def boundDevice (s : Authority) : String := (s.context.map (·.deviceId)).getD ""

/-- The claim of a job that is not in the journal. -/
def claim (s : Authority) (request : ManagedDeploymentRequest) (now : Int64)
    (setupId digest : String) : Except String Authority := do
  let expires ← okOr ((request.bundle.value.get "expires_at").bind Value.asI64)
    "deployment_expiry_invalid"
  refuseIf (now ≤ 0 ∨ expires ≤ now ∨ 86400 < expires.toInt - now.toInt) "deployment_expired"
  refuseIf (maxJobs ≤ s.jobs.keys.length) "deployment_journal_full"
  pure { s with
    maxEpoch := request.command.epochVersion
    jobs := s.jobs.insert setupId ⟨digest, none, by simp⟩ }

def authorize (s : Authority) (request : ManagedDeploymentRequest) (now : Int64) :
    Except String (Decision × Authority) := do
  let (setupId, digest) ← vet platform s request
  match s.jobs.lookup setupId with
  | some existing => do
      refuseIf (existing.digest ≠ digest) "deployment_replay_conflict"
      pure (.observed (existing.result.getD (outcomeUnknown setupId (boundDevice s))), s)
  | none => do
      let s' ← claim s request now setupId digest
      pure (.apply setupId, s')

def receiptKeys : List String :=
  ["schema_version", "setup_id", "device_id", "client_id", "state", "reason_code"]

def receiptStates : List String := ["installed", "already_installed", "failed", "unknown"]

/-- An optional member is a short identifier. -/
def validMember (v : Value) (key : String) (max : ℕ) : Bool :=
  (v.get key).all fun value => (value.asStr).any fun id => boundedId id max

def complete (s : Authority) (setupId : String) (result : Value) :
    Except String (Value × Authority) := do
  let context ← okOr s.context "management_service_unprovisioned"
  let ms ← okOr (members result) "deployment_receipt_invalid"
  refuseIf (ms.any (fun m => !receiptKeys.contains m.1) = true ∨
      (result.get "schema_version").bind Value.asI64 ≠ some 1 ∨
      textAt result "setup_id" ≠ some setupId ∨ textAt result "device_id" ≠ some context.deviceId ∨
      (textAt result "state").any (fun state => receiptStates.contains state) = false ∨
      validMember result "client_id" 40 = false ∨ validMember result "reason_code" 80 = false)
    "deployment_receipt_invalid"
  let entry ← okOr (s.jobs.lookup setupId) "deployment_receipt_invalid"
  match entry.result with
  | some existing => do
      refuseIf (existing.normalize ≠ result.normalize) "deployment_receipt_conflict"
      pure (existing, s)
  | none =>
      if h : some result = some .null then .error "deployment_receipt_invalid"
      else pure (result, { s with jobs := s.jobs.insert setupId ⟨entry.digest, some result, h⟩ })

end Authority

section Stored

def contextValue (context : ManagedDeploymentContext) : Value := .object [
  ("org_id", .string context.orgId),
  ("device_id", .string context.deviceId),
  ("signing_key_b64", .string context.signingKeyB64)]

def entryValue (entry : JournalEntry) : Value := .object [
  ("digest", .string entry.digest),
  ("result", entry.result.getD .null)]

def jobValue (job : Sigma fun _ : String => JournalEntry) : String × Value := (job.1, entryValue job.2)

def authorityValue (s : Authority) : Value := .object [
  ("context", Serde.ofOption contextValue s.context),
  ("max_epoch", .number (.ofInt s.maxEpoch.toInt)),
  ("jobs", .object (s.jobs.entries.map jobValue))]

/-- Whatever cannot be read is one error. -/
def unreadable (_ : Value) (_ : String) : String := "management_store_invalid"

/-- The fields of a record that allows no others. -/
def knownFields (fields : List String) (v : Value) : Except String (List (String × Value)) := do
  let ms ← Serde.record unreadable "" fields fields.length v
  refuseIf (ms.any (fun m => !fields.contains m.1) = true) "management_store_invalid"
  pure ms

def readContext (v : Value) : Except String ManagedDeploymentContext := do
  let ms ← knownFields ["org_id", "device_id", "signing_key_b64"] v
  let orgId ← Serde.field ms "org_id" (Serde.string unreadable)
  let deviceId ← Serde.field ms "device_id" (Serde.string unreadable)
  let signingKeyB64 ← Serde.field ms "signing_key_b64" (Serde.string unreadable)
  pure ⟨← Serde.required "org_id" orgId, ← Serde.required "device_id" deviceId,
    ← Serde.required "signing_key_b64" signingKeyB64⟩

def readResult (v : Value) : { r : Option Value // r ≠ some .null } :=
  if h : v = .null then ⟨none, by simp⟩ else ⟨some v, by simpa using h⟩

def readEntry (v : Value) : Except String JournalEntry := do
  let ms ← knownFields ["digest", "result"] v
  let digest ← Serde.field ms "digest" (Serde.string unreadable)
  let result := readResult ((ms.lookup "result").getD .null)
  pure ⟨← Serde.required "digest" digest, result.val, result.property⟩

def readJob (member : String × Value) : Except String (Sigma fun _ : String => JournalEntry) := do
  let entry ← readEntry member.2
  pure ⟨member.1, entry⟩

def readJobs : List (String × Value) → Except String (List (Sigma fun _ : String => JournalEntry))
  | [] => pure []
  | m :: ms => do
      let job ← readJob m
      let jobs ← readJobs ms
      pure (job :: jobs)

def readI64 (v : Value) : Except String Int64 := okOr v.asI64 "management_store_invalid"

def readJobMap (v : Value) : Except String Jobs := do
  let ms ← okOr (members v) "management_store_invalid"
  let jobs ← readJobs ms
  pure jobs.toAList

def readAuthority (v : Value) : Except String Authority := do
  let ms ← knownFields ["context", "max_epoch", "jobs"] v
  let context ← Serde.field ms "context" (Serde.option readContext)
  let maxEpoch ← Serde.field ms "max_epoch" readI64
  let jobs ← Serde.field ms "jobs" readJobMap
  pure ⟨context.join, ← Serde.required "max_epoch" maxEpoch, ← Serde.required "jobs" jobs⟩

end Stored

section RoundTrip

theorem readContext_contextValue (context : ManagedDeploymentContext) :
    readContext (contextValue context) = .ok context := rfl

theorem readResult_getD (entry : JournalEntry) :
    (readResult (entry.result.getD .null)).val = entry.result := by
  cases h : entry.result with
  | none => simp [readResult]
  | some v =>
    have hnull : v ≠ .null := by
      rintro rfl
      exact entry.notNull h
    simp [readResult, hnull]

theorem readEntry_entryValue (entry : JournalEntry) : readEntry (entryValue entry) = .ok entry := by
  have hread : readEntry (entryValue entry) =
      .ok ⟨entry.digest, (readResult (entry.result.getD .null)).val,
        (readResult (entry.result.getD .null)).property⟩ := rfl
  rw [hread]
  cases entry with
  | mk digest result notNull =>
    simp only [Except.ok.injEq, JournalEntry.mk.injEq, true_and]
    exact readResult_getD ⟨digest, result, notNull⟩

theorem readJobs_map (jobs : List (Sigma fun _ : String => JournalEntry)) :
    readJobs (jobs.map jobValue) = .ok jobs := by
  induction jobs with
  | nil => rfl
  | cons job jobs ih =>
    have hjob : readJob (jobValue job) = .ok job := by
      rw [readJob, jobValue, readEntry_entryValue]
      rfl
    rw [List.map_cons, readJobs, hjob, ih]
    rfl

theorem toAList_entries (jobs : Jobs) : jobs.entries.toAList = jobs := by
  have hself : ∀ l : List (Sigma fun _ : String => JournalEntry), l.NodupKeys → l.dedupKeys = l := by
    intro l
    induction l with
    | nil => intro _; rfl
    | cons job l ih =>
      intro hnd
      rw [List.nodupKeys_cons] at hnd
      rw [List.dedupKeys_cons, ih hnd.2, List.kinsert_def, List.kerase_of_notMem_keys hnd.1]
  exact AList.ext (hself jobs.entries jobs.nodupKeys)

theorem readJobMap_object (jobs : Jobs) :
    readJobMap (.object (jobs.entries.map jobValue)) = .ok jobs := by
  have hread : readJobMap (.object (jobs.entries.map jobValue)) =
      (do let jobs ← readJobs (jobs.entries.map jobValue); pure jobs.toAList) := rfl
  rw [hread, readJobs_map]
  exact congrArg Except.ok (toAList_entries jobs)

theorem readI64_ofInt (x : Int64) : readI64 (.number (.ofInt x.toInt)) = .ok x := by
  rw [readI64, Serde.asI64_ofInt, okOr_some]

/-- What is stored is read back. -/
theorem readAuthority_authorityValue (s : Authority) : readAuthority (authorityValue s) = .ok s := by
  have hcontext : Serde.option readContext (Serde.ofOption contextValue s.context) = .ok s.context :=
    Serde.option_ofOption readContext_contextValue (fun _ => by simp [contextValue]) s.context
  have hread : readAuthority (authorityValue s) = (do
      let context ← (Serde.option readContext (Serde.ofOption contextValue s.context)).map some
      let maxEpoch ← (readI64 (.number (.ofInt s.maxEpoch.toInt))).map some
      let jobs ← (readJobMap (.object (s.jobs.entries.map jobValue))).map some
      pure ⟨context.join, ← Serde.required "max_epoch" maxEpoch, ← Serde.required "jobs" jobs⟩) := rfl
  rw [hread, hcontext, readI64_ofInt, readJobMap_object]
  rfl

end RoundTrip
section Rules

variable {Key : Type} (platform : Platform Key)

/-- A bundle is the one that a command names, and the command is of the bound organisation's key for
the bound device. -/
structure Covers (context : ManagedDeploymentContext) (request : ManagedDeploymentRequest)
    (setupId digest : String) : Prop where
  catalog : request.command.catalogId = "managed_scanner.setup"
  signer : request.command.signerKey = context.signingKeyB64
  verifies : verifySignatureB64 platform.crypto context.signingKeyB64 (signedBytes request.command)
    request.command.signature = true
  commandDevice : request.command.deviceId = context.deviceId
  org : textAt request.bundle.value "org_id" = some context.orgId
  bundleDevice : textAt request.bundle.value "device_id" = some context.deviceId
  device : textAt request.command.payload.value "device_id" = some context.deviceId
  bundleSetup : textAt request.bundle.value "setup_id" = some setupId
  setup : textAt request.command.payload.value "setup_id" = some setupId
  deployment : ∃ deploymentId, textAt request.bundle.value "deployment_id" = some deploymentId ∧
    textAt request.command.payload.value "deployment_id" = some deploymentId
  bundleDigest : canonicalJsonSha256 platform request.bundle.value = digest
  sameDigest : textAt request.command.payload.value "bundle_sha256" = some digest

variable {platform}

theorem vet_covers {s : Authority} {request : ManagedDeploymentRequest} {setupId digest : String}
    (h : vet platform s request = .ok (setupId, digest)) :
    ∃ context, s.context = some context ∧ Covers platform context request setupId digest ∧
      s.maxEpoch ≤ request.command.epochVersion := by
  simp only [vet, bundleField, bind_ok, okOr_ok, refuseIf_ok, pure_ok] at h
  obtain ⟨context, hcontext, payload, -, -, hcommand, -, hverify, setup, hsetup, deployment,
    hdeployment, -, -, org, horg, -, horgEq, device, hdevice, -, htarget, -, hdigest, heq⟩ := h
  obtain ⟨rfl, rfl⟩ := Prod.mk.inj heq
  have horgSame : org = context.orgId := not_not.mp horgEq
  simp only [not_or, not_not] at hcommand htarget
  refine ⟨context, hcontext, ?_, ?_⟩
  · exact {
      catalog := hcommand.2.1
      signer := hcommand.2.2.2.1
      verifies := by simpa using hverify
      commandDevice := hcommand.2.2.2.2.1
      org := by rw [horg, horgSame]
      bundleDevice := by rw [hdevice, htarget.1]
      device := htarget.2.2.2
      bundleSetup := hsetup
      setup := htarget.2.1
      deployment := ⟨deployment, hdeployment, htarget.2.2.1⟩
      bundleDigest := rfl
      sameDigest := not_not.mp hdigest }
  · exact Int64.not_lt.mp hcommand.2.2.2.2.2.1

/-- A request that covers a setup and is well formed is vetted. -/
theorem vet_of_covers {s : Authority} {request : ManagedDeploymentRequest} {setupId digest : String}
    {context : ManagedDeploymentContext} (hcontext : s.context = some context)
    (hcovers : Covers platform context request setupId digest)
    (hepoch : ¬ request.command.epochVersion < s.maxEpoch)
    (hpayload : (members request.command.payload.value).map List.length = some 4)
    (hclass : request.command.actionClass = .destructive)
    (hkey : validIdempotencyKey request.command.idempotencyKey = true)
    (hsetup : boundedId setupId 36 = true)
    (hdeployment : ∀ deploymentId, textAt request.bundle.value "deployment_id" = some deploymentId →
      boundedId deploymentId 80 = true) :
    vet platform s request = .ok (setupId, digest) := by
  obtain ⟨deploymentId, hbundle, hcommand⟩ := hcovers.deployment
  have hlength := hdeployment deploymentId hbundle
  obtain ⟨payload, hmembers, hfour⟩ := Option.map_eq_some_iff.mp hpayload
  have hdigest := hcovers.bundleDigest
  simp only [vet, bundleField, bind_ok, okOr_ok, refuseIf_ok, pure_ok]
  refine ⟨context, hcontext, payload, hmembers, (), ?_, (), ?_, setupId, hcovers.bundleSetup,
    deploymentId, hbundle, (), ?_, context.orgId, hcovers.org, (), ?_, context.deviceId,
    hcovers.bundleDevice, (), ?_, (), ?_, ?_⟩
  · simp [hfour, hcovers.catalog, hclass, hcovers.signer, hcovers.commandDevice, hepoch, hkey]
  · simp [hcovers.verifies]
  · simp [hsetup, hlength]
  · simp
  · simp [hcovers.setup, hcommand, hcovers.device]
  · rw [hdigest]
    exact not_not.mpr hcovers.sameDigest
  · rw [hdigest]

theorem claim_eq {s s' : Authority} {request : ManagedDeploymentRequest} {now : Int64}
    {setupId digest : String} (h : claim s request now setupId digest = .ok s') :
    s' = { s with
      maxEpoch := request.command.epochVersion
      jobs := s.jobs.insert setupId ⟨digest, none, by simp⟩ } ∧
      0 < now ∧ ∃ expires, (request.bundle.value.get "expires_at").bind Value.asI64 = some expires ∧
        now < expires := by
  simp only [claim, bind_ok, okOr_ok, refuseIf_ok, pure_ok, not_or, Int64.not_le] at h
  obtain ⟨expires, hexpires, -, htime, -, -, heq⟩ := h
  exact ⟨heq.symm, htime.1, expires, hexpires, htime.2.1⟩

/-- An admitted request is about a job in the journal, which answers it, or it claims the job. -/
theorem authorize_cases {s s' : Authority} {request : ManagedDeploymentRequest} {now : Int64}
    {decision : Decision} (h : authorize platform s request now = .ok (decision, s')) :
    ∃ setupId digest, vet platform s request = .ok (setupId, digest) ∧
      ((∃ entry, s.jobs.lookup setupId = some entry ∧ entry.digest = digest ∧ s' = s ∧
          decision = .observed (entry.result.getD (outcomeUnknown setupId (boundDevice s)))) ∨
        (s.jobs.lookup setupId = none ∧ decision = .apply setupId ∧
          claim s request now setupId digest = .ok s')) := by
  rw [authorize, bind_ok] at h
  obtain ⟨⟨setupId, digest⟩, hvet, h⟩ := h
  refine ⟨setupId, digest, hvet, ?_⟩
  dsimp only at h
  cases hjob : s.jobs.lookup setupId with
  | some entry =>
    rw [hjob] at h
    simp only [bind_ok, refuseIf_ok, pure_ok, Prod.mk.injEq, not_not] at h
    obtain ⟨-, hdigest, hdecision, hs⟩ := h
    exact .inl ⟨entry, rfl, hdigest, hs.symm, hdecision.symm⟩
  | none =>
    rw [hjob] at h
    simp only [bind_ok, pure_ok, Prod.mk.injEq] at h
    obtain ⟨claimed, hclaim, hdecision, hs⟩ := h
    exact .inr ⟨rfl, hdecision.symm, hs ▸ hclaim⟩

/-- A job in the journal is answered from the journal. -/
theorem authorize_recorded {s : Authority} {request : ManagedDeploymentRequest} {setupId : String}
    {entry : JournalEntry} (hvet : vet platform s request = .ok (setupId, entry.digest))
    (hentry : s.jobs.lookup setupId = some entry) (now : Int64) :
    authorize platform s request now =
      .ok (.observed (entry.result.getD (outcomeUnknown setupId (boundDevice s))), s) := by
  simp [authorize, hvet, hentry, refuseIf, Except.bind, Bind.bind, pure, Except.pure]

/-- A job that is not in the journal is claimed. -/
theorem authorize_new {s s' : Authority} {request : ManagedDeploymentRequest} {now : Int64}
    {setupId digest : String} (hvet : vet platform s request = .ok (setupId, digest))
    (hentry : s.jobs.lookup setupId = none) (hclaim : claim s request now setupId digest = .ok s') :
    authorize platform s request now = .ok (.apply setupId, s') := by
  simp [authorize, hvet, hentry, hclaim, Except.bind, Bind.bind, pure, Except.pure]

theorem bind_cases {s s' : Authority} {context : ManagedDeploymentContext}
    (h : bind platform s context = .ok s') :
    s' = s ∨ s.context = none ∧ s' = { s with context := some context } := by
  rw [bind, bind_ok] at h
  obtain ⟨-, -, h⟩ := h
  cases hcontext : s.context with
  | some existing =>
    rw [hcontext] at h
    simp only [bind_ok, pure_ok] at h
    obtain ⟨-, -, hs⟩ := h
    exact .inl hs.symm
  | none =>
    rw [hcontext] at h
    simp only [pure_ok] at h
    exact .inr ⟨rfl, h.symm⟩

theorem depth_of_textAt {v member : Value} {key text : String} (h : textAt v key = some text)
    (hmember : v.get key = some member) : member.depth = 0 := by
  rw [textAt, hmember, Option.bind_some] at h
  exact Value.depth_of_asStr h

theorem depth_of_validMember {v member : Value} {key : String} {max : ℕ}
    (h : validMember v key max = true) (hmember : v.get key = some member) : member.depth = 0 := by
  rw [validMember, hmember, Option.all_some, Option.any_eq_true] at h
  obtain ⟨text, htext, -⟩ := h
  exact Value.depth_of_asStr htext

/-- What a receipt has is a number or a text. -/
theorem complete_shallow {s s' : Authority} {setupId : String} {result answer : Value}
    (hu : result.UniqueKeys) (h : complete s setupId result = .ok (answer, s')) :
    result.depth ≤ 1 := by
  simp only [complete, bind_ok, okOr_ok, refuseIf_ok, not_or, not_not, Bool.not_eq_false] at h
  obtain ⟨context, -, ms, hms, -, hreceipt, -⟩ := h
  obtain ⟨hknown, hschema, hsetup, hdevice, hstate, hclient, hreason⟩ := hreceipt
  cases result with
  | object members =>
    obtain rfl : members = ms := Option.some.inj hms
    cases hu with
    | object hnd _ =>
      rw [Value.depth_object_le]
      intro m hm
      have hget : (Value.object members).get m.1 = some m.2 := (Keyed.lookup_eq_some_iff_mem hnd).mpr hm
      have hkey : m.1 ∈ receiptKeys := by
        by_contra hout
        exact hknown (List.any_eq_true.mpr ⟨m, hm, by simpa using hout⟩)
      obtain ⟨text, hstate, -⟩ := (Option.any_eq_true _ _).mp hstate
      simp only [receiptKeys, List.mem_cons, List.not_mem_nil, or_false] at hkey
      rcases hkey with hkey | hkey | hkey | hkey | hkey | hkey <;> rw [hkey] at hget
      · rw [hget, Option.bind_some] at hschema
        exact (Value.depth_of_asI64 hschema).le
      · exact (depth_of_textAt hsetup hget).le
      · exact (depth_of_textAt hdevice hget).le
      · exact (depth_of_validMember hclient hget).le
      · exact (depth_of_textAt hstate hget).le
      · exact (depth_of_validMember hreason hget).le
  | null => simp [members] at hms
  | bool b => simp [members] at hms
  | number n => simp [members] at hms
  | string text => simp [members] at hms
  | array es => simp [members] at hms

theorem complete_cases {s s' : Authority} {setupId : String} {result answer : Value}
    (h : complete s setupId result = .ok (answer, s')) :
    ∃ entry, s.jobs.lookup setupId = some entry ∧
      ((entry.result = some answer ∧ s' = s) ∨
        (entry.result = none ∧ answer = result ∧ ∃ hnull,
          s' = { s with jobs := s.jobs.insert setupId ⟨entry.digest, some result, hnull⟩ })) := by
  simp only [complete, bind_ok, okOr_ok, refuseIf_ok] at h
  obtain ⟨context, -, ms, -, -, -, entry, hentry, h⟩ := h
  refine ⟨entry, hentry, ?_⟩
  cases hresult : entry.result with
  | some existing =>
    rw [hresult] at h
    simp only [bind_ok, refuseIf_ok, pure_ok, Prod.mk.injEq] at h
    obtain ⟨-, -, hanswer, hs⟩ := h
    exact .inl ⟨by rw [hanswer], hs.symm⟩
  | none =>
    rw [hresult] at h
    dsimp only at h
    split at h
    · exact absurd h (by simp)
    · rename_i hnull
      simp only [pure_ok, Prod.mk.injEq] at h
      exact .inr ⟨rfl, h.1.symm, hnull, h.2.symm⟩

end Rules

section Order

/-- What is bound stays bound, the epoch does not fall, and what the journal has stays in it. -/
structure Later (s t : Authority) : Prop where
  context : ∀ context, s.context = some context → t.context = some context
  maxEpoch : s.maxEpoch ≤ t.maxEpoch
  jobs : ∀ setupId entry, s.jobs.lookup setupId = some entry →
    ∃ entry', t.jobs.lookup setupId = some entry' ∧ entry'.digest = entry.digest ∧
      ∀ result, entry.result = some result → entry'.result = some result

theorem Later.refl (s : Authority) : Later s s where
  context _ h := h
  maxEpoch := Int64.le_refl _
  jobs _ entry h := ⟨entry, h, rfl, fun _ h => h⟩

theorem Later.trans {s t u : Authority} (hst : Later s t) (htu : Later t u) : Later s u where
  context context h := htu.context context (hst.context context h)
  maxEpoch := Int64.le_trans hst.maxEpoch htu.maxEpoch
  jobs := by
    intro setupId entry h
    obtain ⟨entry', h', hdigest', hresult'⟩ := hst.jobs setupId entry h
    obtain ⟨entry'', h'', hdigest'', hresult''⟩ := htu.jobs setupId entry' h'
    exact ⟨entry'', h'', hdigest''.trans hdigest',
      fun result hresult => hresult'' result (hresult' result hresult)⟩

/-- A journal that gets one job, or the result of a job that had none. -/
theorem Later.insert {s t : Authority} (setupId : String) (entry : JournalEntry)
    (hcontext : t.context = s.context) (hepoch : s.maxEpoch ≤ t.maxEpoch)
    (hjobs : t.jobs = s.jobs.insert setupId entry)
    (hbefore : ∀ old, s.jobs.lookup setupId = some old →
      entry.digest = old.digest ∧ old.result = none) : Later s t where
  context context h := hcontext.trans h
  maxEpoch := hepoch
  jobs := by
    intro other old hold
    rw [hjobs]
    by_cases hsame : other = setupId
    · subst hsame
      have holdEntry := hbefore old hold
      refine ⟨entry, AList.lookup_insert _, holdEntry.1, ?_⟩
      intro result hresult
      exact absurd (holdEntry.2.symm.trans hresult) (by simp)
    · exact ⟨old, by rw [AList.lookup_insert_ne hsame, hold], rfl, fun _ h => h⟩

variable {Key : Type} {platform : Platform Key} {s s' : Authority}

theorem bind_later {context : ManagedDeploymentContext} (h : bind platform s context = .ok s') :
    Later s s' := by
  rcases bind_cases h with hs | ⟨hnone, hs⟩
  · rw [hs]
    exact Later.refl s
  · rw [hs]
    exact {
      context := fun context hcontext => absurd (hnone.symm.trans hcontext) (by simp)
      maxEpoch := Int64.le_refl _
      jobs := fun _ entry hentry => ⟨entry, hentry, rfl, fun _ h => h⟩ }

theorem claim_later {request : ManagedDeploymentRequest} {now : Int64} {setupId digest : String}
    (hepoch : s.maxEpoch ≤ request.command.epochVersion) (hnone : s.jobs.lookup setupId = none)
    (h : claim s request now setupId digest = .ok s') : Later s s' := by
  have heq := (claim_eq h).1
  apply Later.insert setupId ⟨digest, none, by simp⟩
  · rw [heq]
  · rw [heq]
    exact hepoch
  · rw [heq]
  · intro old hold
    exact absurd (hnone.symm.trans hold) (by simp)

theorem complete_later {setupId : String} {result answer : Value}
    (h : complete s setupId result = .ok (answer, s')) : Later s s' := by
  obtain ⟨entry, hentry, ⟨-, hs⟩ | ⟨hnone, -, hnull, hs⟩⟩ := complete_cases h
  · rw [hs]
    exact Later.refl s
  · apply Later.insert setupId ⟨entry.digest, some result, hnull⟩
    · rw [hs]
    · have hepoch : s'.maxEpoch = s.maxEpoch := by rw [hs]
      exact hepoch ▸ Int64.le_refl _
    · rw [hs]
    · intro old hold
      obtain rfl := Option.some.inj (hentry.symm.trans hold)
      exact ⟨rfl, hnone⟩

end Order
end ManagedDeployment
