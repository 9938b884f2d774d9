import WinCommander.Hybrid.Signed
import WinCommander.Library.Bytes
import WinCommander.Library.Codec

/-!
# The protected history of licences

The desktop reads one licence from a cache file.  The service keeps the last signed cache of each of
up to four licences in a protected registry value, and takes a licence only if it is not older than
what is kept.
-/

namespace LicenceCache

open HybridJws Outcome

section Data

structure ExistingToken where
  payload : String
  signature : String
  hybrid : Option String
  deriving DecidableEq

/-- A cache file as it is read. -/
structure ExistingCache where
  token : ExistingToken
  lastVerifiedAt : Option ℕ
  seatsUsed : Option ℕ
  seatLimit : Option ℕ
  deriving DecidableEq

/-- A cache file as it is written. -/
structure PersistedLicenseCache where
  payload : String
  signature : String
  hybrid : String
  lastVerifiedAt : ℕ
  seatsUsed : Option ℕ
  seatLimit : Option ℕ
  deriving DecidableEq

def PersistedLicenseCache.existing (p : PersistedLicenseCache) : ExistingCache :=
  ⟨⟨p.payload, p.signature, some p.hybrid⟩, some p.lastVerifiedAt, p.seatsUsed, p.seatLimit⟩

structure StoreLicenseCacheRequest where
  payload : String
  signature : String
  seatsUsed : Option ℕ
  seatLimit : Option ℕ
  hybrid : Option String

/-- The token of a request or of a cache is its payload with both proofs. -/
def StoreLicenseCacheRequest.token (request : StoreLicenseCacheRequest) : ExistingToken :=
  ⟨request.payload, request.signature, request.hybrid⟩

structure SignedClaims where
  licenseId : Option String
  deviceHash : String
  iat : ℕ
  exp : ℕ

structure RefreshClaims where
  licenseId : String
  deviceHash : String
  iss : String
  sub : String
  isPortable : Bool

structure Ledger where
  version : ℕ
  records : List String
  deriving DecidableEq

structure HistoricalTrust where
  ed : List UInt8
  pq : List UInt8
  edId : String
  pqId : String
  maximumEpoch : ℕ

def HistoricalTrust.policy (old : HistoricalTrust) : Trust :=
  ⟨.licence, 1, old.edId, old.ed, old.pqId, old.pq⟩

/-- The keys of a build.  An epoch is from one on. -/
structure Policy where
  publicKey : String
  trust : Trust
  oldTrust : Option HistoricalTrust
  minimumEpoch_pos : 1 ≤ trust.minimumEpoch

/-- The JSON forms, base64 and the signature schemes.  A text is written into a history no shorter than
it is, and the two readings of one payload agree on the licence. -/
structure Platform where
  schemes : Schemes
  parse : List UInt8 → Option Json.Value
  urlSafeNoPad : String → Option (List UInt8)
  urlSafe : String → Option (List UInt8)
  standard : String → Option (List UInt8)
  validKey : List UInt8 → Bool
  verifyStrict : List UInt8 → List UInt8 → List UInt8 → Bool
  existingCache : List UInt8 → Option ExistingCache
  legacyCache : List UInt8 → Option ExistingToken
  toVecPretty : PersistedLicenseCache → Option String
  existingCache_toVecPretty : ∀ {p text}, toVecPretty p = some text →
    existingCache (Bytes.ofString text) = some p.existing
  ledger : Codec Ledger
  ledger_size : ∀ {l : Ledger} {bytes : List UInt8} {r : String}, r ∈ l.records →
    ledger.toVec l = some bytes → r.utf8ByteSize ≤ bytes.length
  signedClaims : List UInt8 → Option SignedClaims
  refreshClaims : List UInt8 → Option RefreshClaims
  licenseId_agrees : ∀ {bytes s r}, signedClaims bytes = some s → refreshClaims bytes = some r →
    s.licenseId = some r.licenseId

def maxRecords : ℕ := 4

def cacheLimit : ℕ := 64 * 1024

def maxSignedPayloadBytes : ℕ := 16 * 1024

def maxSignatureBytes : ℕ := 256

def mainlineAppId : String := "com.servalabs.wincommander"

end Data

section Validation

variable (p : Platform) (policy : Policy)

def isWhitespace (c : Char) : Bool :=
  (9 ≤ c.toNat && c.toNat ≤ 13) || c.toNat = 0x20 || c.toNat = 0x85 || c.toNat = 0xA0 ||
    c.toNat = 0x1680 || (0x2000 ≤ c.toNat && c.toNat ≤ 0x200A) || c.toNat = 0x2028 ||
    c.toNat = 0x2029 || c.toNat = 0x202F || c.toNat = 0x205F || c.toNat = 0x3000

def validateClaims (payload : List UInt8) : Except String Unit := do
  refuseIf (payload = [] ∨ maxSignedPayloadBytes < payload.length) "license cache payload is invalid"
  let claims ← okOr (p.signedClaims payload) "license cache payload is invalid"
  refuseIf (claims.deviceHash.toList.all isWhitespace = true ∨ claims.exp = 0 ∨
    claims.exp < claims.iat) "license cache payload is invalid"

def decodeB64Any (input : String) : Option (List UInt8) :=
  (p.urlSafeNoPad input).or ((p.urlSafe input).or (p.standard input))

def validateRequest (request : StoreLicenseCacheRequest) : Except String Unit := do
  refuseIf (request.payload = "" ∨ maxSignedPayloadBytes < request.payload.utf8ByteSize)
    "license cache request is invalid"
  refuseIf (request.signature = "" ∨ maxSignatureBytes < request.signature.utf8ByteSize)
    "license cache request is invalid"
  let key ← okOr (decodeB64Any p policy.publicKey) "license verification is unavailable"
  let signature ← okOr (decodeB64Any p request.signature) "license cache signature is invalid"
  refuseIf (key.length ≠ 32) "license verification is unavailable"
  refuseIf (signature.length ≠ 64) "license cache signature is invalid"
  refuseIf (p.validKey key = false) "license verification is unavailable"
  refuseIf (p.verifyStrict key (Bytes.ofString request.payload) signature = false)
    "license cache signature is invalid"
  validateClaims p (Bytes.ofString request.payload)

def validateHybridRequest (envelope : List UInt8) (trust : Trust) : Except String Verified := do
  refuseIf (envelope = [] ∨ 32 * 1024 < envelope.length ∨ trust.purpose ≠ .licence)
    "license cache request is invalid"
  let verified ← (verify p.schemes p.parse envelope trust).mapError fun _ =>
    "license cache signature is invalid"
  validateClaims p verified.payload
  pure verified

def validateDualRequest (request : StoreLicenseCacheRequest) : Except String Unit := do
  validateRequest p policy request
  let hybrid ← okOr request.hybrid "hybrid license is required"
  let verified ← validateHybridRequest p (Bytes.ofString hybrid) policy.trust
  refuseIf (verified.payload ≠ Bytes.ofString request.payload)
    "hybrid license does not match the classical license"

/-- A server clock ahead of the device does not make a future time. -/
def signedVerificationTime (payload : String) (now : ℕ) : Except String ℕ := do
  let claims ← okOr (p.signedClaims (Bytes.ofString payload)) "license cache payload is invalid"
  pure (min claims.iat now)

/-- What was signed with the old keys counts up to their last epoch. -/
def verifyHistorical (envelope : List UInt8) : Except String Verified := do
  let old ← okOr policy.oldTrust "historical license trust is unavailable"
  refuseIf (old.maximumEpoch = 0 ∨ policy.trust.minimumEpoch ≤ old.maximumEpoch)
    "historical license trust is invalid"
  let verified ← validateHybridRequest p envelope old.policy
  refuseIf (old.maximumEpoch < verified.epoch) "historical license epoch exceeds its limit"
  pure verified

/-- A proof that is kept may be older than what is accepted now. -/
def verifyKept (envelope : List UInt8) : Except String Verified :=
  match validateHybridRequest p envelope { policy.trust with minimumEpoch := 1 } with
  | .ok verified => .ok verified
  | .error _ => verifyHistorical p policy envelope

/-- The epoch of a licence that is kept. -/
def verifyPrevious (previous : StoreLicenseCacheRequest) : Except String ℕ := do
  let envelope ← okOr previous.hybrid "hybrid license is required"
  let verified ← verifyKept p policy (Bytes.ofString envelope)
  refuseIf (verified.payload ≠ Bytes.ofString previous.payload)
    "hybrid license does not match the classical license"
  pure verified.epoch

def sameLicence (old new : SignedClaims) : Bool :=
  match old.licenseId, new.licenseId with
  | some a, some b => a ≠ "" ∧ a = b
  | none, none => old.deviceHash = new.deviceHash
  | _, _ => false

/-- A candidate is not older than a cache.  A cache without the second proof is no floor. -/
def checkPreviousWithHistory (bytes : List UInt8) (candidate : StoreLicenseCacheRequest) :
    Except String Unit := do
  let existing ← okOr (p.existingCache bytes) "license cache is invalid"
  let previous : StoreLicenseCacheRequest :=
    ⟨existing.token.payload, existing.token.signature, none, none, existing.token.hybrid⟩
  validateRequest p policy previous
  if previous.hybrid = none then pure () else do
    let previousEpoch ← verifyPrevious p policy previous
    let proof ← okOr candidate.hybrid "hybrid license is required"
    let verified ← validateHybridRequest p (Bytes.ofString proof) policy.trust
    refuseIf (verified.payload ≠ Bytes.ofString candidate.payload)
      "hybrid license does not match the classical license"
    refuseIf (verified.epoch < previousEpoch) "license cache would restore an older signing epoch"
    let old ← okOr (p.signedClaims (Bytes.ofString previous.payload)) "license cache is invalid"
    let new ← okOr (p.signedClaims (Bytes.ofString candidate.payload)) "license cache is invalid"
    refuseIf (sameLicence old new = true ∧ new.iat < old.iat)
      "license cache would restore an older signed licence"
    refuseIf (sameLicence old new = true ∧ new.iat = old.iat ∧ candidate.payload ≠ previous.payload)
      "license cache has conflicting licences issued in the same second; retry"

end Validation

section Ledgers

variable (p : Platform) (policy : Policy)

/-- The first version stored one whole cache. -/
def readLedger (raw : List UInt8) (accepts : ExistingToken → Bool) : Except String Ledger :=
  match p.ledger.fromSlice raw with
  | some ledger => .ok ledger
  | none => do
    let legacy ← okOr (p.legacyCache raw) "license security record is invalid"
    refuseIf (accepts legacy = false) "license security record is invalid"
    let text ← okOr (Bytes.toString raw) "license security record is invalid"
    pure ⟨1, [text]⟩

/-- The history that a candidate is put into. -/
def openLedger (retained : Option (List UInt8)) : Except String Ledger :=
  match retained with
  | none => .ok ⟨1, []⟩
  | some raw => readLedger p raw fun legacy => legacy.hybrid.isSome

/-- A cache file that has the second proof: its text, its payload and its claims. -/
structure CachedLicence where
  text : List UInt8
  payload : String
  claims : SignedClaims

def readCached (existing : Option (List UInt8)) (candidate : StoreLicenseCacheRequest) :
    Except String (Option CachedLicence) :=
  match existing with
  | none => .ok none
  | some bytes => do
    checkPreviousWithHistory p policy bytes candidate
    let cache ← okOr (p.existingCache bytes) "license cache is invalid"
    if cache.token.hybrid = none then pure none
    else do
      let claims ← okOr (p.signedClaims (Bytes.ofString cache.token.payload))
        "license cache is invalid"
      pure (some ⟨bytes, cache.token.payload, claims⟩)

/-- The record of the candidate's licence, and whether there is one of the cached licence. -/
structure Seen where
  replaced : Option ℕ
  cachedMatch : Bool

def checkRecord (candidate : StoreLicenseCacheRequest) (new : SignedClaims)
    (cached : Option CachedLicence) (seen : Seen) (record : String × ℕ) : Except String Seen := do
  let oldCache ← okOr (p.existingCache (Bytes.ofString record.1)) "license security record is invalid"
  refuseIf (oldCache.token.hybrid = none) "license security record is invalid"
  checkPreviousWithHistory p policy (Bytes.ofString record.1) candidate
  let oldClaims ← okOr (p.signedClaims (Bytes.ofString oldCache.token.payload))
    "license security record is invalid"
  let ofCached := cached.any fun c => sameLicence oldClaims c.claims
  refuseIf (ofCached = true ∧ seen.cachedMatch = true) "license security record is invalid"
  -- A newer or conflicting cache is not discarded when the licence changes.
  refuseIf (∃ c ∈ cached, sameLicence oldClaims c.claims = true ∧ sameLicence c.claims new = false ∧
    oldCache.token.payload ≠ c.payload) "license security history needs reconciliation"
  refuseIf (sameLicence oldClaims new = true ∧ seen.replaced.isSome = true)
    "license security record is invalid"
  pure ⟨if sameLicence oldClaims new = true then some record.2 else seen.replaced,
    seen.cachedMatch || ofCached⟩

/-- A cached licence that is not in the history is added to it when the licence changes. -/
def keepCached (records : List String) (cached : Option CachedLicence) (new : SignedClaims)
    (cachedMatch : Bool) : Except String (List String) :=
  match cached with
  | none => .ok records
  | some c =>
    if cachedMatch = false ∧ sameLicence c.claims new = false then do
      refuseIf (maxRecords ≤ records.length) "license security history is full; recovery is required"
      let text ← okOr (Bytes.toString c.text) "license security record is invalid"
      pure (records ++ [text])
    else .ok records

def placeRecord (records : List String) (replaced : Option ℕ) (record : String) :
    Except String (List String) :=
  match replaced with
  | some index => .ok (records.set index record)
  | none =>
    if records.length < maxRecords then .ok (records ++ [record])
    else .error "license security history is full; recovery is required"

/-- The history with a candidate in it. -/
def advance (retained existing : Option (List UInt8)) (candidate : StoreLicenseCacheRequest)
    (bytes : List UInt8) : Except String (List UInt8) := do
  validateDualRequest p policy candidate
  let current ← okOr (p.existingCache bytes) "license security record is invalid"
  refuseIf (current.token ≠ candidate.token) "license security record does not match request"
  let record ← okOr (Bytes.toString bytes) "license security record is invalid"
  let ledger ← openLedger p retained
  refuseIf (ledger.version ≠ 1 ∨ maxRecords < ledger.records.length ∨
    retained.isSome = true ∧ ledger.records = []) "license security record is invalid"
  let new ← okOr (p.signedClaims (Bytes.ofString candidate.payload)) "license cache is invalid"
  let cached ← readCached p policy existing candidate
  let seen ← ledger.records.zipIdx.foldlM (checkRecord p policy candidate new cached) ⟨none, false⟩
  let kept ← keepCached ledger.records cached new seen.cachedMatch
  let records ← placeRecord kept seen.replaced record
  let output ← okOr (p.ledger.toVec ⟨ledger.version, records⟩) "license security record is invalid"
  refuseIf (cacheLimit < output.length) "license security history is full; recovery is required"
  pure output

/-- The exact token is in the history already. -/
def verifyCurrent (retained : List UInt8) (candidate : StoreLicenseCacheRequest)
    (expectedTime : ℕ) (bytes : List UInt8) : Except String Unit := do
  let _ ← advance p policy (some retained) none candidate bytes
  let current ← okOr (p.existingCache bytes) "license security record is invalid"
  let verifiedAt ← okOr current.lastVerifiedAt "license cache verification time is missing"
  refuseIf (verifiedAt ≠ expectedTime) "license cache changed during verification"
  let ledger ← readLedger p retained fun _ => true
  let found ← ledger.records.foldlM (fun found record => do
    if found then pure true
    else do
      let old ← okOr (p.existingCache (Bytes.ofString record)) "license security record is invalid"
      pure (decide (old.token = candidate.token ∧ old.lastVerifiedAt = some verifiedAt))) false
  refuseIf (found = false) "license cache does not match security history"

/-- The kept token of the licence of a cache, and when it was taken. -/
structure Pending where
  candidate : StoreLicenseCacheRequest
  acceptedAt : ℕ

def findPending (old : RefreshClaims) (found : Option Pending) (record : String) :
    Except String (Option Pending) := do
  let cache ← okOr (p.existingCache (Bytes.ofString record)) "license security record is invalid"
  let summary ← okOr (p.signedClaims (Bytes.ofString cache.token.payload))
    "license security record is invalid"
  if summary.licenseId ≠ some old.licenseId then pure found
  else do
    let claims ← okOr (p.refreshClaims (Bytes.ofString cache.token.payload))
      "license security record is invalid"
    refuseIf (claims.deviceHash ≠ old.deviceHash ∨ claims.isPortable ≠ old.isPortable ∨
      found.isSome = true) "license security record is invalid"
    let time ← okOr cache.lastVerifiedAt "license security record is invalid"
    pure (some ⟨⟨cache.token.payload, cache.token.signature, cache.seatsUsed, cache.seatLimit,
      cache.token.hybrid⟩, time⟩)

def pendingRenewal (retained : List UInt8) (expected : StoreLicenseCacheRequest) :
    Except String (Option Pending) := do
  let ledger ← readLedger p retained fun _ => true
  refuseIf (ledger.version ≠ 1 ∨ ledger.records = [] ∨ maxRecords < ledger.records.length)
    "license security record is invalid"
  let old ← okOr (p.refreshClaims (Bytes.ofString expected.payload)) "license cache is invalid"
  let found ← ledger.records.foldlM (findPending p old) none
  pure (found.filter fun pending => pending.candidate.token ≠ expected.token)

end Ledgers

section Lowering

variable {schemes : Schemes} {parse : List UInt8 → Option Json.Value} {trust : Trust} {n : ℕ}

theorem checkEntry_lower (hn : n ≤ trust.minimumEpoch) {payload : String} {found found' : Found}
    {entry : SignatureEntry} (h : checkEntry schemes parse trust payload found entry = .ok found') :
    checkEntry schemes parse { trust with minimumEpoch := n } payload found entry = .ok found' := by
  simp only [checkEntry, bind_ok, refuseIf_ok, okOr_ok] at h ⊢
  obtain ⟨bytes, hbytes, header, hheader, u, hcontext, hrest⟩ := h
  refine ⟨bytes, hbytes, header, hheader, u, ?_, hrest⟩
  intro hbad
  exact hcontext (hbad.imp_right <| Or.imp_right <| Or.imp_right <| Or.imp_right <|
    Or.imp_left fun hlow => hlow.trans_le hn)

theorem checkEntries_lower (hn : n ≤ trust.minimumEpoch) {payload : String} {found found' : Found}
    {entries : List SignatureEntry}
    (h : entries.foldlM (checkEntry schemes parse trust payload) found = .ok found') :
    entries.foldlM (checkEntry schemes parse { trust with minimumEpoch := n } payload) found =
      .ok found' := by
  induction entries generalizing found with
  | nil => exact h
  | cons entry entries ih =>
    rw [List.foldlM_cons, bind_ok] at h ⊢
    obtain ⟨next, hnext, hrest⟩ := h
    exact ⟨next, checkEntry_lower hn hnext, ih hrest⟩

/-- What is accepted from an epoch on is accepted from an earlier one on. -/
theorem verify_lower (hn : n ≤ trust.minimumEpoch) {input : List UInt8} {verified : Verified}
    (h : verify schemes parse input trust = .ok verified) :
    verify schemes parse input { trust with minimumEpoch := n } = .ok verified := by
  simp only [verify, bind_ok, refuseIf_ok, okOr_ok] at h ⊢
  obtain ⟨u, hlimits, envelope, henvelope, u', htwo, payload, hpayload, found, hfound, hrest⟩ := h
  exact ⟨u, hlimits, envelope, henvelope, u', htwo, payload, hpayload, found,
    checkEntries_lower hn hfound, hrest⟩

theorem validateHybridRequest_lower {p : Platform} (hn : n ≤ trust.minimumEpoch)
    {envelope : List UInt8} {verified : Verified}
    (h : validateHybridRequest p envelope trust = .ok verified) :
    validateHybridRequest p envelope { trust with minimumEpoch := n } = .ok verified := by
  simp only [validateHybridRequest, bind_ok, refuseIf_ok, mapError_ok] at h ⊢
  obtain ⟨u, hlimits, found, hfound, hrest⟩ := h
  exact ⟨u, hlimits, found, verify_lower hn hfound, hrest⟩

end Lowering

section Floors

variable (p : Platform) (policy : Policy)

/-- What a licence that is kept holds others to. -/
structure Floor where
  claims : SignedClaims
  payload : String
  epoch : ℕ

def floorOf (token : ExistingToken) : Option Floor := do
  let claims ← p.signedClaims (Bytes.ofString token.payload)
  let epoch ← (verifyPrevious p policy
    ⟨token.payload, token.signature, none, none, token.hybrid⟩).toOption
  pure ⟨claims, token.payload, epoch⟩

def recordCache (record : String) : Option ExistingCache := p.existingCache (Bytes.ofString record)

def recordFloor (record : String) : Option Floor :=
  (recordCache p record).bind fun cache => floorOf p policy cache.token

/-- The epochs do not fall, and within one licence neither does the time of issue.  One time of issue
has one payload. -/
structure NotOlder (f g : Floor) : Prop where
  epoch : f.epoch ≤ g.epoch
  issued : sameLicence f.claims g.claims = true → f.claims.iat ≤ g.claims.iat
  payload : sameLicence f.claims g.claims = true → f.claims.iat = g.claims.iat →
    f.payload = g.payload

/-- One floor takes the place of another one. -/
structure Supersedes (f g : Floor) : Prop where
  same : sameLicence f.claims g.claims = true
  notOlder : NotOlder f g

theorem sameLicence_iff {a b : SignedClaims} : sameLicence a b = true ↔
    (∃ id, id ≠ "" ∧ a.licenseId = some id ∧ b.licenseId = some id) ∨
      a.licenseId = none ∧ b.licenseId = none ∧ a.deviceHash = b.deviceHash := by
  unfold sameLicence
  cases a.licenseId <;> cases b.licenseId <;> simp
  intro hsame
  rw [hsame]

theorem sameLicence_symm {a b : SignedClaims} (h : sameLicence a b = true) :
    sameLicence b a = true := by
  rw [sameLicence_iff] at h ⊢
  cases h with
  | inl h =>
    obtain ⟨id, hid, ha, hb⟩ := h
    exact Or.inl ⟨id, hid, hb, ha⟩
  | inr h => exact Or.inr ⟨h.2.1, h.1, h.2.2.symm⟩

theorem sameLicence_trans {a b c : SignedClaims} (hab : sameLicence a b = true)
    (hbc : sameLicence b c = true) : sameLicence a c = true := by
  unfold sameLicence at hab hbc ⊢
  cases ha : a.licenseId <;> cases hb : b.licenseId <;> cases hc : c.licenseId <;> simp_all

theorem Supersedes.trans_notOlder {f g h : Floor} (hfg : Supersedes f g) (hgh : NotOlder g h) :
    NotOlder f h where
  epoch := hfg.notOlder.epoch.trans hgh.epoch
  issued hsame := (hfg.notOlder.issued hfg.same).trans
    (hgh.issued (sameLicence_trans (sameLicence_symm hfg.same) hsame))
  payload hsame heq := by
    have hgsame := sameLicence_trans (sameLicence_symm hfg.same) hsame
    have hfirst := hfg.notOlder.issued hfg.same
    have hsecond := hgh.issued hgsame
    exact (hfg.notOlder.payload hfg.same (by omega)).trans (hgh.payload hgsame (by omega))

theorem Supersedes.trans {f g h : Floor} (hfg : Supersedes f g) (hgh : Supersedes g h) :
    Supersedes f h where
  same := sameLicence_trans hfg.same hgh.same
  notOlder := hfg.trans_notOlder hgh.notOlder

variable {p policy}

theorem toOption_eq_some {ε α : Type} {x : Except ε α} {a : α} : x.toOption = some a ↔ x = .ok a := by
  cases x <;> simp [Except.toOption]

theorem floorOf_eq_some {token : ExistingToken} {f : Floor} :
    floorOf p policy token = some f ↔ p.signedClaims (Bytes.ofString token.payload) = some f.claims ∧
      f.payload = token.payload ∧
      verifyPrevious p policy ⟨token.payload, token.signature, none, none, token.hybrid⟩ =
        .ok f.epoch := by
  simp only [floorOf, Option.bind_eq_bind, Option.bind_eq_some_iff, toOption_eq_some, Option.pure_def,
    Option.some.injEq]
  constructor
  · rintro ⟨claims, hclaims, epoch, hepoch, rfl⟩
    exact ⟨hclaims, rfl, hepoch⟩
  · intro h
    refine ⟨f.claims, h.1, f.epoch, h.2.2, ?_⟩
    rw [← h.2.1]

/-- A candidate with both proofs has a floor, by the epoch that it is taken with. -/
theorem floorOf_candidate {candidate : StoreLicenseCacheRequest} {proof : String}
    {verified : Verified} {claims : SignedClaims} (hproof : candidate.hybrid = some proof)
    (hverified : validateHybridRequest p (Bytes.ofString proof) policy.trust = .ok verified)
    (hpayload : verified.payload = Bytes.ofString candidate.payload)
    (hclaims : p.signedClaims (Bytes.ofString candidate.payload) = some claims) :
    floorOf p policy candidate.token = some ⟨claims, candidate.payload, verified.epoch⟩ := by
  rw [floorOf_eq_some]
  refine ⟨hclaims, rfl, ?_⟩
  have hkept : verifyKept p policy (Bytes.ofString proof) = .ok verified := by
    rw [verifyKept, validateHybridRequest_lower policy.minimumEpoch_pos hverified]
  simp only [verifyPrevious, bind_ok, okOr_ok, refuseIf_ok, pure_ok]
  exact ⟨proof, hproof, verified, hkept, (), not_not.mpr hpayload, rfl⟩

/-- What a candidate that is checked against a cache with both proofs is not older than. -/
theorem notOlder_of_checkPrevious {bytes : List UInt8} {candidate : StoreLicenseCacheRequest}
    {cache : ExistingCache} (hcache : p.existingCache bytes = some cache)
    (hhybrid : cache.token.hybrid ≠ none)
    (h : checkPreviousWithHistory p policy bytes candidate = .ok ()) :
    ∃ f g, floorOf p policy cache.token = some f ∧ floorOf p policy candidate.token = some g ∧
      NotOlder f g := by
  simp only [checkPreviousWithHistory, bind_ok, okOr_ok] at h
  obtain ⟨cache', hcache', u, -, h⟩ := h
  rw [hcache] at hcache'
  rw [← Option.some.inj hcache', if_neg hhybrid] at h
  simp only [bind_ok, okOr_ok, refuseIf_ok, not_and, ne_eq, not_not] at h
  obtain ⟨previousEpoch, hprevious, proof, hproof, verified, hverified, -, hpayload, -, hepoch,
    old, hold, new, hnew, -, hissued, hsecond⟩ := h
  refine ⟨⟨old, cache.token.payload, previousEpoch⟩, ⟨new, candidate.payload, verified.epoch⟩,
    ?_, floorOf_candidate hproof hverified hpayload hnew, ?_⟩
  · exact floorOf_eq_some.mpr ⟨hold, rfl, hprevious⟩
  · exact {
      epoch := Nat.not_lt.mp hepoch
      issued := fun hsame => Nat.not_lt.mp (hissued hsame)
      payload := fun hsame heq => (hsecond hsame heq.symm).symm }

end Floors

section Records

variable (p : Platform) (policy : Policy)

def recordClaims (record : String) : Option SignedClaims :=
  (recordCache p record).bind fun cache => p.signedClaims (Bytes.ofString cache.token.payload)

def SameAs (new : SignedClaims) (record : String) : Prop :=
  ∃ claims, recordClaims p record = some claims ∧ sameLicence claims new = true

/-- What each record is checked for before a candidate is taken. -/
structure Checked (candidate : StoreLicenseCacheRequest) (record : String) : Prop where
  cache : ∃ cache, recordCache p record = some cache ∧ cache.token.hybrid ≠ none
  notOlder : checkPreviousWithHistory p policy (Bytes.ofString record) candidate = .ok ()
  claims : ∃ claims, recordClaims p record = some claims

/-- The records of the registry value. -/
def recordsOf : Option (List UInt8) → List String
  | none => []
  | some raw =>
    match p.ledger.fromSlice raw with
    | some ledger => ledger.records
    | none => (Bytes.toString raw).toList

/-- No two records are of one licence. -/
def Distinct (records : List String) : Prop :=
  records.Pairwise fun r r' => ∀ claims, recordClaims p r' = some claims → ¬ SameAs p claims r

/-- How the history changes when a candidate is put into it. -/
structure Advanced (records : List String) (candidate : StoreLicenseCacheRequest)
    (bytes out : List UInt8) (record : String) (new : SignedClaims) (before after : List String) :
    Prop where
  dual : validateDualRequest p policy candidate = .ok ()
  text : Bytes.toString bytes = some record
  cache : ∃ cache, p.existingCache bytes = some cache ∧ cache.token = candidate.token
  claims : p.signedClaims (Bytes.ofString candidate.payload) = some new
  written : p.ledger.toVec ⟨1, before ++ record :: after⟩ = some out
  size : out.length ≤ cacheLimit
  room : (before ++ record :: after).length ≤ maxRecords
  checked : ∀ r ∈ records, Checked p policy candidate r
  others : ∀ r ∈ before ++ after, Checked p policy candidate r ∧ ¬ SameAs p new r
  kept : ∀ r ∈ records, r ∈ before ++ after ∨ SameAs p new r
  distinct : Distinct p records → Distinct p (before ++ after)

/-- The one element with a property is where an index says, counted from `n`. -/
def OnlyAt (P : String → Prop) (records : List String) (n : ℕ) : Option ℕ → Prop
  | none => ∀ r ∈ records, ¬ P r
  | some i => ∃ before r after, records = before ++ r :: after ∧ i = n + before.length ∧ P r ∧
      ∀ r' ∈ before ++ after, ¬ P r'

variable {p policy} {candidate : StoreLicenseCacheRequest} {new : SignedClaims}
  {cached : Option CachedLicence}

theorem OnlyAt.cons {P : String → Prop} {r : String} {records : List String} {n : ℕ}
    {index : Option ℕ} (hr : ¬ P r) (h : OnlyAt P records (n + 1) index) :
    OnlyAt P (r :: records) n index := by
  cases index with
  | none => exact List.forall_mem_cons.mpr ⟨hr, h⟩
  | some i =>
    obtain ⟨before, r', after, hrecords, hi, hr', hothers⟩ := h
    refine ⟨r :: before, r', after, by rw [hrecords, List.cons_append], ?_, hr', ?_⟩
    · rw [hi, List.length_cons]
      omega
    · exact List.forall_mem_cons.mpr ⟨hr, hothers⟩

theorem OnlyAt.append {P : String → Prop} {r : String} {records : List String} {n : ℕ}
    {index : Option ℕ} (hr : ¬ P r) (h : OnlyAt P records n index) :
    OnlyAt P (records ++ [r]) n index := by
  cases index with
  | none =>
    intro r' hr'
    rcases List.mem_append.mp hr' with hmem | hmem
    · exact h r' hmem
    · rw [List.mem_singleton.mp hmem]
      exact hr
  | some i =>
    obtain ⟨before, r', after, hrecords, hi, hr', hothers⟩ := h
    refine ⟨before, r', after ++ [r], by rw [hrecords]; simp, hi, hr', ?_⟩
    intro r'' hr''
    rw [← List.append_assoc] at hr''
    rcases List.mem_append.mp hr'' with hmem | hmem
    · exact hothers r'' hmem
    · rw [List.mem_singleton.mp hmem]
      exact hr

/-- The step of the loop over the records. -/
theorem checkRecord_ok {seen seen' : Seen} {record : String} {n : ℕ}
    (h : checkRecord p policy candidate new cached seen (record, n) = .ok seen') :
    Checked p policy candidate record ∧
      (¬ SameAs p new record ∧ seen'.replaced = seen.replaced ∨
        SameAs p new record ∧ seen.replaced = none ∧ seen'.replaced = some n) ∧
      (seen'.cachedMatch = false →
        seen.cachedMatch = false ∧ ∀ c ∈ cached, ¬ SameAs p c.claims record) := by
  simp only [checkRecord, bind_ok, okOr_ok, refuseIf_ok, pure_ok] at h
  obtain ⟨cache, hcache, -, hhybrid, u, hprevious, claims, hclaims, -, -, -, -, -, hreplaced, rfl⟩ := h
  have hrecord : recordClaims p record = some claims := by
    rw [recordClaims, recordCache, hcache]
    exact hclaims
  have hsame (c : SignedClaims) : SameAs p c record ↔ sameLicence claims c = true := by
    constructor
    · rintro ⟨claims', hclaims', hsame⟩
      rw [hrecord] at hclaims'
      rw [Option.some.inj hclaims']
      exact hsame
    · exact fun hsame => ⟨claims, hrecord, hsame⟩
  refine ⟨⟨⟨cache, hcache, hhybrid⟩, hprevious, claims, hrecord⟩, ?_, ?_⟩
  · by_cases hnew : sameLicence claims new = true
    · refine Or.inr ⟨(hsame new).mpr hnew, ?_, if_pos hnew⟩
      simpa [hnew] using hreplaced
    · exact Or.inl ⟨fun h => hnew ((hsame new).mp h), if_neg hnew⟩
  · intro hmatch
    simp only [Bool.or_eq_false_iff] at hmatch
    refine ⟨hmatch.1, ?_⟩
    intro c hc hcached
    rw [hsame] at hcached
    have hany := hmatch.2
    rw [Option.mem_def.mp hc] at hany
    simp [hcached] at hany

/-- The loop over the records. -/
theorem checkRecords_ok {records : List String} {n : ℕ} {seen seen' : Seen}
    (h : (records.zipIdx n).foldlM (checkRecord p policy candidate new cached) seen = .ok seen') :
    (∀ r ∈ records, Checked p policy candidate r) ∧
      (seen.replaced = none → OnlyAt (SameAs p new) records n seen'.replaced) ∧
      (seen.replaced ≠ none → seen'.replaced = seen.replaced ∧ ∀ r ∈ records, ¬ SameAs p new r) ∧
      (seen'.cachedMatch = false →
        seen.cachedMatch = false ∧ ∀ r ∈ records, ∀ c ∈ cached, ¬ SameAs p c.claims r) := by
  induction records generalizing n seen with
  | nil =>
    rw [List.zipIdx_nil, List.foldlM_nil, pure_ok] at h
    rw [← h]
    refine ⟨by simp, ?_, fun _ => ⟨rfl, by simp⟩, fun hmatch => ⟨hmatch, by simp⟩⟩
    intro hnone
    rw [hnone]
    exact fun r hr => absurd hr List.not_mem_nil
  | cons r records ih =>
    rw [List.zipIdx_cons, List.foldlM_cons, bind_ok] at h
    obtain ⟨mid, hmid, hrest⟩ := h
    obtain ⟨hchecked, hreplaced, hmatch⟩ := checkRecord_ok hmid
    obtain ⟨hall, hnone, hsome, hunmatched⟩ := ih hrest
    refine ⟨List.forall_mem_cons.mpr ⟨hchecked, hall⟩, ?_, ?_, ?_⟩
    · intro hseen
      rcases hreplaced with ⟨hother, heq⟩ | ⟨hsame, -, hindex⟩
      · exact (hnone (heq.trans hseen)).cons hother
      · obtain ⟨hkeep, hothers⟩ := hsome (by rw [hindex]; simp)
        rw [hkeep, hindex]
        exact ⟨[], r, records, rfl, rfl, hsame, hothers⟩
    · intro hseen
      rcases hreplaced with ⟨hother, heq⟩ | ⟨-, habsent, -⟩
      · obtain ⟨hkeep, hothers⟩ := hsome (by rw [heq]; exact hseen)
        exact ⟨hkeep.trans heq, List.forall_mem_cons.mpr ⟨hother, hothers⟩⟩
      · exact absurd habsent hseen
    · intro hfinal
      obtain ⟨hmidMatch, hothers⟩ := hunmatched hfinal
      obtain ⟨hseen, hhead⟩ := hmatch hmidMatch
      exact ⟨hseen, List.forall_mem_cons.mpr ⟨hhead, hothers⟩⟩

theorem keepCached_ok {records kept : List String} {cachedMatch : Bool}
    (h : keepCached records cached new cachedMatch = .ok kept) :
    kept = records ∨ ∃ c text, cached = some c ∧ cachedMatch = false ∧
      sameLicence c.claims new = false ∧ records.length < maxRecords ∧
      Bytes.toString c.text = some text ∧ kept = records ++ [text] := by
  cases cached with
  | none => exact Or.inl (Except.ok.inj h).symm
  | some c =>
    rw [keepCached] at h
    split at h
    · next hadd =>
      simp only [bind_ok, refuseIf_ok, okOr_ok, pure_ok] at h
      obtain ⟨-, hroom, text, htext, hkept⟩ := h
      exact Or.inr ⟨c, text, rfl, hadd.1, hadd.2, Nat.not_le.mp hroom, htext, hkept.symm⟩
    · exact Or.inl (Except.ok.inj h).symm

/-- A record is put in the one place that is its own, or at the end. -/
theorem placeRecord_ok {P : String → Prop} {kept records : List String} {replaced : Option ℕ}
    {record : String} (honly : OnlyAt P kept 0 replaced)
    (h : placeRecord kept replaced record = .ok records) :
    ∃ before after, records = before ++ record :: after ∧ (∀ r ∈ before ++ after, ¬ P r) ∧
      (kept = before ++ after ∧ kept.length < maxRecords ∨
        ∃ old, P old ∧ kept = before ++ old :: after) := by
  cases replaced with
  | none =>
    rw [placeRecord] at h
    split at h
    · next hroom =>
      refine ⟨kept, [], (Except.ok.inj h).symm, ?_, Or.inl ⟨(List.append_nil kept).symm, hroom⟩⟩
      rw [List.append_nil]
      exact honly
    · cases h
  | some index =>
    obtain ⟨before, old, after, hkept, hindex, hold, hothers⟩ := honly
    refine ⟨before, after, ?_, hothers, Or.inr ⟨old, hold, hkept⟩⟩
    rw [← Except.ok.inj h, hkept, hindex, Nat.zero_add, List.set_append_right _ _ (Nat.le_refl _),
      Nat.sub_self, List.set_cons_zero]

theorem readLedger_ok {raw : List UInt8} {accepts : ExistingToken → Bool} {ledger : Ledger}
    (h : readLedger p raw accepts = .ok ledger) : recordsOf p (some raw) = ledger.records := by
  rw [readLedger] at h
  rw [recordsOf]
  cases hread : p.ledger.fromSlice raw with
  | some l =>
    rw [hread] at h
    rw [Except.ok.inj h]
  | none =>
    rw [hread] at h
    simp only [bind_ok, okOr_ok, refuseIf_ok, pure_ok] at h
    obtain ⟨-, -, -, -, text, htext, rfl⟩ := h
    rw [htext]
    rfl

theorem recordCache_of_toString {bytes : List UInt8} {record : String}
    (h : Bytes.toString bytes = some record) : recordCache p record = p.existingCache bytes := by
  rw [recordCache, Bytes.ofString_of_toString h]

/-- The cache file is checked as a record would be. -/
theorem readCached_ok {existing : Option (List UInt8)} {c : CachedLicence} {text : String}
    (h : readCached p policy existing candidate = .ok (some c))
    (htext : Bytes.toString c.text = some text) :
    existing = some c.text ∧ Checked p policy candidate text ∧
      recordClaims p text = some c.claims := by
  cases existing with
  | none => cases h
  | some bytes =>
    simp only [readCached, bind_ok, okOr_ok] at h
    obtain ⟨u, hprevious, cache, hcache, h⟩ := h
    split at h
    · cases h
    · next hhybrid =>
      simp only [bind_ok, okOr_ok, pure_ok, Option.some.injEq] at h
      obtain ⟨claims, hclaims, rfl⟩ := h
      have hrecord : recordCache p text = some cache := (recordCache_of_toString htext).trans hcache
      have hread : recordClaims p text = some claims := by
        rw [recordClaims, hrecord]
        exact hclaims
      refine ⟨rfl, ⟨⟨cache, hrecord, hhybrid⟩, ?_, claims, hread⟩, hread⟩
      rw [Bytes.ofString_of_toString htext]
      exact hprevious

theorem Distinct.append_cached {records : List String} {c : CachedLicence} {text : String}
    (h : Distinct p records) (hclaims : recordClaims p text = some c.claims)
    (hothers : ∀ r ∈ records, ¬ SameAs p c.claims r) : Distinct p (records ++ [text]) := by
  refine List.pairwise_append.mpr ⟨h, List.pairwise_singleton _ _, ?_⟩
  intro r hr r' hr' claims hread
  rw [List.mem_singleton.mp hr', hclaims] at hread
  rw [← Option.some.inj hread]
  exact hothers r hr

theorem openLedger_ok {retained : Option (List UInt8)} {ledger : Ledger}
    (h : openLedger p retained = .ok ledger) : recordsOf p retained = ledger.records := by
  cases retained with
  | none =>
    rw [← Except.ok.inj h]
    rfl
  | some raw => exact readLedger_ok h

theorem advance_ok {retained existing : Option (List UInt8)} {bytes out : List UInt8}
    (h : advance p policy retained existing candidate bytes = .ok out) :
    ∃ record new before after, Advanced p policy (recordsOf p retained)
      candidate bytes out record new before after := by
  simp only [advance, bind_ok, okOr_ok, refuseIf_ok, pure_ok, not_or, not_lt, ne_eq, not_not] at h
  obtain ⟨u, hdual, current, hcurrent, -, htoken, record, hrecord, ledger, hledger, -,
    ⟨hversion, hlength, -⟩, new, hnew, cached, hcached, seen, hseen, kept, hkept, records, hplace,
    output, houtput, -, hsize, rfl⟩ := h
  obtain ⟨hchecked, honly, -, hunmatched⟩ := checkRecords_ok hseen
  rw [openLedger_ok hledger]
  have hfound : OnlyAt (SameAs p new) kept 0 seen.replaced ∧ kept.length ≤ maxRecords ∧
      (∀ r ∈ kept, Checked p policy candidate r) ∧ (∀ r ∈ ledger.records, r ∈ kept) ∧
      (Distinct p ledger.records → Distinct p kept) := by
    rcases keepCached_ok hkept with heq | ⟨c, text, hc, hmatch, hother, hroom, htext, heq⟩
    · rw [heq]
      exact ⟨honly rfl, hlength, hchecked, fun r hr => hr, id⟩
    · rw [hc] at hcached
      obtain ⟨-, hcheckedText, hclaims⟩ := readCached_ok hcached htext
      have hnotSame : ¬ SameAs p new text := by
        rintro ⟨claims, hread, hsame⟩
        rw [hclaims] at hread
        rw [← Option.some.inj hread, hother] at hsame
        cases hsame
      rw [heq]
      refine ⟨(honly rfl).append hnotSame, ?_, ?_, ?_, ?_⟩
      · rw [List.length_append, List.length_singleton]
        exact hroom
      · intro r hr
        rcases List.mem_append.mp hr with hmem | hmem
        · exact hchecked r hmem
        · rw [List.mem_singleton.mp hmem]
          exact hcheckedText
      · exact fun r hr => List.mem_append_left _ hr
      · intro hdistinct
        apply hdistinct.append_cached hclaims
        exact fun r hr => (hunmatched hmatch).2 r hr c hc
  obtain ⟨hindex, hkeptLength, hkeptChecked, hkeptAll, hkeptDistinct⟩ := hfound
  obtain ⟨before, after, hrecords, hothers, hcase⟩ := placeRecord_ok hindex hplace
  rw [hrecords] at houtput
  have hsub : ∀ r ∈ before ++ after, r ∈ kept := by
    intro r hr
    rcases hcase with ⟨heq, -⟩ | ⟨old, -, heq⟩
    · exact heq ▸ hr
    · rw [heq]
      rcases List.mem_append.mp hr with hmem | hmem
      · exact List.mem_append_left _ hmem
      · exact List.mem_append_right _ (List.mem_cons_of_mem _ hmem)
  refine ⟨record, new, before, after, {
    dual := hdual
    text := hrecord
    cache := ⟨current, hcurrent, htoken⟩
    claims := hnew
    written := by rw [← hversion]; exact houtput
    size := hsize
    room := ?_
    checked := hchecked
    others := fun r hr => ⟨hkeptChecked r (hsub r hr), hothers r hr⟩
    kept := ?_
    distinct := ?_ }⟩
  · rcases hcase with ⟨heq, hroom⟩ | ⟨old, -, heq⟩
    · rw [heq, List.length_append] at hroom
      rw [List.length_append, List.length_cons]
      omega
    · rw [heq, List.length_append, List.length_cons] at hkeptLength
      rw [List.length_append, List.length_cons]
      exact hkeptLength
  · intro r hr
    have hmem := hkeptAll r hr
    rcases hcase with ⟨heq, -⟩ | ⟨old, hold, heq⟩
    · exact Or.inl (heq ▸ hmem)
    · rw [heq] at hmem
      rcases List.mem_append.mp hmem with hbefore | hafter
      · exact Or.inl (List.mem_append_left _ hbefore)
      · rcases List.mem_cons.mp hafter with hcurrentRecord | hrest
        · rw [hcurrentRecord]
          exact Or.inr hold
        · exact Or.inl (List.mem_append_right _ hrest)
  · intro hdistinct
    have hkept' := hkeptDistinct hdistinct
    rcases hcase with ⟨heq, -⟩ | ⟨old, -, heq⟩
    · exact heq ▸ hkept'
    · rw [heq] at hkept'
      exact hkept'.sublist (List.Sublist.append_left (List.sublist_cons_self old after) before)

end Records

end LicenceCache
