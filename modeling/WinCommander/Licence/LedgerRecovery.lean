import WinCommander.Licence.LedgerRuns

/-!
# Recovery of an interrupted renewal

A renewal may be cut off between its two writes.  A recovery after it completes it from the history
or leaves everything as it was, and what it leaves needs no further recovery.
-/

namespace LicenceCache

open HybridJws Outcome

section Tokens

variable {p : Platform} {policy : Policy} {a b : StoreLicenseCacheRequest}

theorem fields_of_token (h : a.token = b.token) :
    a.payload = b.payload ∧ a.signature = b.signature ∧ a.hybrid = b.hybrid := by
  have hfields := h
  simp only [StoreLicenseCacheRequest.token, ExistingToken.mk.injEq] at hfields
  exact hfields

theorem validateRequest_congr (h : a.token = b.token) :
    validateRequest p policy a = validateRequest p policy b := by
  have hfields := fields_of_token h
  simp only [validateRequest, hfields.1, hfields.2.1]

theorem validateDualRequest_congr (h : a.token = b.token) :
    validateDualRequest p policy a = validateDualRequest p policy b := by
  have hfields := fields_of_token h
  simp only [validateDualRequest, validateRequest_congr h, hfields.1, hfields.2.2]

theorem checkPreviousWithHistory_congr (h : a.token = b.token) (bytes : List UInt8) :
    checkPreviousWithHistory p policy bytes a = checkPreviousWithHistory p policy bytes b := by
  have hfields := fields_of_token h
  simp only [checkPreviousWithHistory, hfields.1, hfields.2.2]

theorem checkRecord_congr (h : a.token = b.token) :
    checkRecord p policy a = checkRecord p policy b := by
  funext new cached seen record
  simp only [checkRecord, checkPreviousWithHistory_congr h]

theorem readCached_congr (h : a.token = b.token) (existing : Option (List UInt8)) :
    readCached p policy existing a = readCached p policy existing b := by
  cases existing with
  | none => rfl
  | some bytes => simp only [readCached, checkPreviousWithHistory_congr h]

theorem advance_congr (h : a.token = b.token) (retained existing : Option (List UInt8))
    (bytes : List UInt8) :
    advance p policy retained existing a bytes = advance p policy retained existing b bytes := by
  have hfields := fields_of_token h
  simp only [advance, validateDualRequest_congr h, h, hfields.1, readCached_congr h,
    checkRecord_congr h]

/-- Of a request only the token is verified. -/
theorem verifyCurrent_congr (h : a.token = b.token) (raw : List UInt8) (time : ℕ)
    (bytes : List UInt8) :
    verifyCurrent p policy raw a time bytes = verifyCurrent p policy raw b time bytes := by
  simp only [verifyCurrent, advance_congr h, h]

theorem pendingRenewal_congr (h : a.token = b.token) (raw : List UInt8) :
    pendingRenewal p raw a = pendingRenewal p raw b := by
  simp only [pendingRenewal, (fields_of_token h).1, h]

end Tokens

section Histories

variable {p : Platform} {policy : Policy} {candidate : StoreLicenseCacheRequest}
  {records before after : List String} {record : String} {new : SignedClaims}

/-- A history in which one record is of a licence. -/
structure OneOf (p : Platform) (raw : List UInt8) (new : SignedClaims) (before after : List String)
    (record : String) : Prop where
  read : readLedger p raw (fun _ => true) = .ok ⟨1, before ++ record :: after⟩
  room : (before ++ record :: after).length ≤ maxRecords
  readable : ∀ r ∈ before ++ record :: after, ∃ cache claims, recordCache p r = some cache ∧
    p.signedClaims (Bytes.ofString cache.token.payload) = some claims
  same : SameAs p new record
  others : ∀ r ∈ before ++ after, ¬ SameAs p new r

theorem Checked.readable {r : String} (h : Checked p policy candidate r) :
    ∃ cache claims, recordCache p r = some cache ∧
      p.signedClaims (Bytes.ofString cache.token.payload) = some claims := by
  obtain ⟨cache, hcache, -⟩ := h.cache
  obtain ⟨claims, hclaims⟩ := h.claims
  rw [recordClaims, hcache, Option.bind_some] at hclaims
  exact ⟨cache, claims, hcache, hclaims⟩

/-- A history that is read for a candidate is read for every other use. -/
theorem readLedger_of_openLedger {raw : List UInt8} {ledger : Ledger}
    (h : openLedger p (some raw) = .ok ledger) :
    readLedger p raw (fun _ => true) = .ok ledger := by
  rw [openLedger, readLedger] at h
  rw [readLedger]
  cases hread : p.ledger.fromSlice raw with
  | some l =>
    rw [hread] at h
    exact h
  | none =>
    rw [hread] at h
    simp only [bind_ok, okOr_ok, refuseIf_ok] at h ⊢
    obtain ⟨legacy, hlegacy, -, -, text, htext, hledger⟩ := h
    exact ⟨legacy, hlegacy, (), by simp, text, htext, hledger⟩

/-- What a successful check of a history against a candidate says of the history. -/
theorem ledger_of_advance {raw bytes out : List UInt8} {existing : Option (List UInt8)}
    (h : advance p policy (some raw) existing candidate bytes = .ok out) :
    readLedger p raw (fun _ => true) = .ok ⟨1, recordsOf p (some raw)⟩ ∧
      (recordsOf p (some raw)).length ≤ maxRecords ∧
      ∃ new replaced, p.signedClaims (Bytes.ofString candidate.payload) = some new ∧
        OnlyAt (SameAs p new) (recordsOf p (some raw)) 0 replaced := by
  simp only [advance, bind_ok, okOr_ok, refuseIf_ok, pure_ok, not_or, not_lt, ne_eq, not_not] at h
  obtain ⟨-, -, current, -, -, -, record, -, ledger, hledger, -, ⟨hversion, hlength, -⟩, new, hnew,
    cached, -, seen, hseen, -⟩ := h
  rw [openLedger_ok hledger, readLedger_of_openLedger hledger, ← hversion]
  obtain ⟨-, honly, -⟩ := checkRecords_ok hseen
  exact ⟨rfl, hlength, new, seen.replaced, hnew, honly rfl⟩

/-- The record of a licence in a history that holds it. -/
theorem oneOf_of_advance {raw bytes out : List UInt8} {existing : Option (List UInt8)}
    (h : advance p policy (some raw) existing candidate bytes = .ok out)
    (hnew : p.signedClaims (Bytes.ofString candidate.payload) = some new) {r : String}
    (hr : r ∈ recordsOf p (some raw)) (hsame : SameAs p new r) :
    ∃ before after, OneOf p raw new before after r := by
  obtain ⟨hread, hroom, new', replaced, hnew', honly⟩ := ledger_of_advance h
  obtain ⟨record, new'', before', after', hadv⟩ := advance_ok h
  rw [hnew] at hnew'
  rw [← Option.some.inj hnew'] at honly
  cases replaced with
  | none => exact absurd hsame (honly r hr)
  | some index =>
    obtain ⟨before, r', after, hrecords, -, hsame', hothers⟩ := honly
    have heq : r = r' := by
      by_contra hne
      rw [hrecords] at hr
      apply hothers r _ hsame
      rcases List.mem_append.mp hr with hbefore | hafter
      · exact List.mem_append_left _ hbefore
      · exact List.mem_append_right _ ((List.mem_cons.mp hafter).resolve_left hne)
    rw [hrecords] at hread hroom
    refine ⟨before, after, ?_⟩
    rw [heq]
    exact {
      read := hread
      room := hroom
      readable := fun r hr => (hadv.checked r (hrecords ▸ hr)).readable
      same := hsame'
      others := hothers }

/-- The history that a candidate was put into. -/
theorem Advanced.oneOf {bytes out : List UInt8}
    (h : Advanced p policy records candidate bytes out record new before after)
    (hself : sameLicence new new = true) : OneOf p out new before after record where
  read := by
    rw [readLedger, p.ledger.fromSlice_toVec h.written]
  room := h.room
  readable := by
    intro r hr
    rcases List.mem_append.mp hr with hbefore | hafter
    · exact (h.others r (List.mem_append_left _ hbefore)).1.readable
    · rcases List.mem_cons.mp hafter with heq | hmem
      · obtain ⟨cache, hcache, htoken⟩ := h.recordCache
        refine ⟨cache, new, heq ▸ hcache, ?_⟩
        rw [htoken]
        exact h.claims
      · exact (h.others r (List.mem_append_right _ hmem)).1.readable
  same := ⟨new, h.recordClaims, hself⟩
  others r hr := (h.others r hr).2

end Histories

section Again

variable {p : Platform} {policy : Policy} {records before after : List String}
  {candidate : StoreLicenseCacheRequest} {bytes out : List UInt8} {record : String}
  {new : SignedClaims}

/-- A candidate passes the check against its own record. -/
theorem Advanced.checkedSelf (h : Advanced p policy records candidate bytes out record new before
    after) : Checked p policy candidate record := by
  obtain ⟨cache, hcache, htoken⟩ := h.recordCache
  have hdual := h.dual
  simp only [validateDualRequest, bind_ok, okOr_ok, refuseIf_ok, ne_eq, not_not] at hdual
  obtain ⟨u, hvalid, proof, hproof, verified, hverified, hpayload⟩ := hdual
  have hfloor := floorOf_eq_some.mp (floorOf_candidate hproof hverified hpayload h.claims)
  have hfields : cache.token.payload = candidate.payload ∧
      cache.token.signature = candidate.signature ∧ cache.token.hybrid = candidate.hybrid := by
    rw [htoken]
    exact ⟨rfl, rfl, rfl⟩
  refine ⟨⟨cache, hcache, by rw [hfields.2.2, hproof]; simp⟩, ?_, new, h.recordClaims⟩
  simp only [checkPreviousWithHistory, bind_ok, okOr_ok]
  refine ⟨cache, hcache, u, ?_, ?_⟩
  · rw [← hvalid]
    apply validateRequest_congr
    rw [← htoken]
    rfl
  · rw [if_neg (by rw [hfields.2.2, hproof]; simp)]
    simp only [bind_ok, okOr_ok, refuseIf_ok]
    refine ⟨verified.epoch, ?_, proof, hproof, verified, hverified, (), not_not.mpr hpayload, (),
      Nat.lt_irrefl _, new, ?_, new, h.claims, (), fun hbad => Nat.lt_irrefl _ hbad.2, ?_⟩
    · rw [hfields.1, hfields.2.1, hfields.2.2]
      exact hfloor.2.2
    · rw [hfields.1]
      exact h.claims
    · exact fun hbad => hbad.2.2 hfields.1.symm

/-- The check of a record of another licence, without a cache. -/
theorem checkRecord_other {r : String} (hr : Checked p policy candidate r) (hother : ¬ SameAs p new r)
    (seen : Seen) (n : ℕ) : checkRecord p policy candidate new none seen (r, n) = .ok seen := by
  obtain ⟨cache, hcache, hhybrid⟩ := hr.cache
  obtain ⟨claims, hclaims⟩ := hr.claims
  have hread : p.signedClaims (Bytes.ofString cache.token.payload) = some claims := by
    rw [recordClaims, hcache, Option.bind_some] at hclaims
    exact hclaims
  have hdiffers : ¬ sameLicence claims new = true := fun hsame => hother ⟨claims, hclaims, hsame⟩
  simp only [checkRecord, bind_ok, okOr_ok, refuseIf_ok, pure_ok]
  refine ⟨cache, hcache, (), hhybrid, (), hr.notOlder, claims, hread, (), by simp, (), by simp, (),
    fun hbad => hdiffers hbad.1, ?_⟩
  rw [if_neg hdiffers]
  simp

/-- The check of the record of the candidate's licence. -/
theorem checkRecord_same {r : String} (hr : Checked p policy candidate r) (hsame : SameAs p new r)
    (n : ℕ) : checkRecord p policy candidate new none ⟨none, false⟩ (r, n) = .ok ⟨some n, false⟩ := by
  obtain ⟨cache, hcache, hhybrid⟩ := hr.cache
  obtain ⟨claims, hclaims, hlicence⟩ := hsame
  have hread : p.signedClaims (Bytes.ofString cache.token.payload) = some claims := by
    rw [recordClaims, hcache, Option.bind_some] at hclaims
    exact hclaims
  simp only [checkRecord, bind_ok, okOr_ok, refuseIf_ok, pure_ok]
  refine ⟨cache, hcache, (), hhybrid, (), hr.notOlder, claims, hread, (), by simp, (), by simp, (),
    by simp, ?_⟩
  rw [if_pos hlicence]
  simp

theorem checkRecords_others {rs : List String} (hrs : ∀ r ∈ rs, Checked p policy candidate r ∧
    ¬ SameAs p new r) (seen : Seen) (n : ℕ) :
    (rs.zipIdx n).foldlM (checkRecord p policy candidate new none) seen = .ok seen := by
  induction rs generalizing n with
  | nil => rfl
  | cons r rs ih =>
    rw [List.forall_mem_cons] at hrs
    rw [List.zipIdx_cons, List.foldlM_cons, bind_ok]
    exact ⟨seen, checkRecord_other hrs.1.1 hrs.1.2 seen n, ih hrs.2 (n + 1)⟩

/-- A candidate that is in the history may be put into it again, and nothing changes. -/
theorem Advanced.again (h : Advanced p policy records candidate bytes out record new before after)
    (hself : sameLicence new new = true) :
    advance p policy (some out) none candidate bytes = .ok out := by
  obtain ⟨cache, hcache, htoken⟩ := h.cache
  have hread : p.ledger.fromSlice out = some ⟨1, before ++ record :: after⟩ :=
    p.ledger.fromSlice_toVec h.written
  have hbefore : ∀ r ∈ before, Checked p policy candidate r ∧ ¬ SameAs p new r :=
    fun r hr => h.others r (List.mem_append_left _ hr)
  have hafter : ∀ r ∈ after, Checked p policy candidate r ∧ ¬ SameAs p new r :=
    fun r hr => h.others r (List.mem_append_right _ hr)
  have hsame : SameAs p new record := ⟨new, h.recordClaims, hself⟩
  have hloop : (before ++ record :: after).zipIdx.foldlM (checkRecord p policy candidate new none)
      ⟨none, false⟩ = .ok ⟨some before.length, false⟩ := by
    rw [List.zipIdx_append, List.foldlM_append, bind_ok]
    refine ⟨⟨none, false⟩, checkRecords_others hbefore _ _, ?_⟩
    rw [Nat.zero_add, List.zipIdx_cons, List.foldlM_cons, bind_ok]
    exact ⟨_, checkRecord_same h.checkedSelf hsame _, checkRecords_others hafter _ _⟩
  have hplace : placeRecord (before ++ record :: after) (some before.length) record =
      .ok (before ++ record :: after) := by
    rw [placeRecord, List.set_append_right _ _ (Nat.le_refl _), Nat.sub_self, List.set_cons_zero]
  simp only [advance, bind_ok, okOr_ok, refuseIf_ok, pure_ok]
  refine ⟨(), h.dual, cache, hcache, (), not_not.mpr htoken, record, h.text,
    ⟨1, before ++ record :: after⟩, ?_, (), ?_, new, h.claims, none, rfl, ⟨some before.length, false⟩,
    hloop, before ++ record :: after, rfl, before ++ record :: after, hplace, out, h.written, (),
    Nat.not_lt.mpr h.size, rfl⟩
  · simp only [openLedger, readLedger, hread]
  · have hroom := h.room
    simp only [not_or, ne_eq, not_true_eq_false, not_false_eq_true, true_and, not_lt]
    refine ⟨hroom, ?_⟩
    rintro ⟨-, hnil⟩
    exact absurd hnil (by simp)

/-- The loop that looks for the token of a candidate finds it. -/
theorem found_of_mem {rs : List String} {time : ℕ} (hrs : ∀ r ∈ rs, ∃ cache, recordCache p r = some cache)
    {r : String} (hr : r ∈ rs) {cache : ExistingCache} (hcache : recordCache p r = some cache)
    (htoken : cache.token = candidate.token) (htime : cache.lastVerifiedAt = some time) :
    rs.foldlM (fun found record => do
      if found then pure true
      else do
        let old ← okOr (p.existingCache (Bytes.ofString record)) "license security record is invalid"
        pure (decide (old.token = candidate.token ∧ old.lastVerifiedAt = some time))) false =
      (Except.ok true : Except String Bool) := by
  have hstays (rest : List String) : rest.foldlM (fun found record => do
      if found then pure true
      else do
        let old ← okOr (p.existingCache (Bytes.ofString record)) "license security record is invalid"
        pure (decide (old.token = candidate.token ∧ old.lastVerifiedAt = some time))) true =
      (Except.ok true : Except String Bool) := by
    induction rest with
    | nil => rfl
    | cons r' rest ih =>
      rw [List.foldlM_cons, bind_ok]
      exact ⟨true, rfl, ih⟩
  induction rs with
  | nil => exact absurd hr List.not_mem_nil
  | cons r' rs ih =>
    rw [List.forall_mem_cons] at hrs
    obtain ⟨cache', hcache'⟩ := hrs.1
    rw [List.foldlM_cons, bind_ok]
    by_cases hhere : cache'.token = candidate.token ∧ cache'.lastVerifiedAt = some time
    · refine ⟨true, ?_, hstays rs⟩
      rw [if_neg (by decide)]
      simp only [bind_ok, okOr_ok, pure_ok]
      exact ⟨cache', hcache', decide_eq_true hhere⟩
    · refine ⟨false, ?_, ih hrs.2 ?_⟩
      · rw [if_neg (by decide)]
        simp only [bind_ok, okOr_ok, pure_ok]
        exact ⟨cache', hcache', decide_eq_false hhere⟩
      · rcases List.mem_cons.mp hr with heq | hmem
        · rw [← heq, hcache] at hcache'
          rw [← Option.some.inj hcache'] at hhere
          exact absurd ⟨htoken, htime⟩ hhere
        · exact hmem

end Again

section Pending

variable {p : Platform} {policy : Policy} {candidate : StoreLicenseCacheRequest}
  {before after : List String} {record : String} {new : SignedClaims} {raw : List UInt8}
  {old : RefreshClaims}

/-- The request that would store a cache. -/
def ExistingCache.request (cache : ExistingCache) : StoreLicenseCacheRequest :=
  ⟨cache.token.payload, cache.token.signature, cache.seatsUsed, cache.seatLimit, cache.token.hybrid⟩

/-- Two claims with one id are of one licence. -/
theorem sameLicence_of_id {a b : SignedClaims} {id : String} (hid : id ≠ "")
    (ha : a.licenseId = some id) (hb : b.licenseId = some id) : sameLicence a b = true :=
  sameLicence_iff.mpr (Or.inl ⟨id, hid, ha, hb⟩)

theorem findPending_others {rs : List String} {id : String} (hid : id ≠ "")
    (hnew : new.licenseId = some id) (hold : old.licenseId = id)
    (hrs : ∀ r ∈ rs, (∃ cache claims, recordCache p r = some cache ∧
      p.signedClaims (Bytes.ofString cache.token.payload) = some claims) ∧ ¬ SameAs p new r)
    (found : Option Pending) : rs.foldlM (findPending p old) found = .ok found := by
  induction rs with
  | nil => rfl
  | cons r rs ih =>
    rw [List.forall_mem_cons] at hrs
    obtain ⟨cache, claims, hcache, hclaims⟩ := hrs.1.1
    rw [List.foldlM_cons, bind_ok]
    refine ⟨found, ?_, ih hrs.2⟩
    have hother : claims.licenseId ≠ some old.licenseId := by
      intro heq
      apply hrs.1.2
      refine ⟨claims, ?_, sameLicence_of_id hid (hold ▸ heq) hnew⟩
      rw [recordClaims, hcache, Option.bind_some, hclaims]
    simp only [findPending, bind_ok, okOr_ok]
    refine ⟨cache, hcache, claims, hclaims, ?_⟩
    rw [if_pos hother]
    rfl

/-- The search finds the one record of the licence. -/
theorem OneOf.pendingRenewal (h : OneOf p raw new before after record)
    {expected : StoreLicenseCacheRequest} (hold : p.refreshClaims (Bytes.ofString expected.payload) =
      some old) (hid : old.licenseId ≠ "") (hnew : new.licenseId = some old.licenseId)
    {cache : ExistingCache} {claims : RefreshClaims} {time : ℕ}
    (hcache : recordCache p record = some cache)
    (hclaims : p.refreshClaims (Bytes.ofString cache.token.payload) = some claims)
    (hdevice : claims.deviceHash = old.deviceHash) (hportable : claims.isPortable = old.isPortable)
    (htime : cache.lastVerifiedAt = some time) :
    LicenceCache.pendingRenewal p raw expected =
      .ok (if cache.token = expected.token then none else some ⟨cache.request, time⟩) := by
  obtain ⟨signed, hsigned, hsame⟩ := h.same
  have hread : p.signedClaims (Bytes.ofString cache.token.payload) = some signed := by
    rw [recordClaims, hcache, Option.bind_some] at hsigned
    exact hsigned
  have hsignedId : signed.licenseId = some old.licenseId := by
    rcases sameLicence_iff.mp hsame with ⟨id, -, hfirst, hsecond⟩ | ⟨-, hnone, -⟩
    · rw [hfirst, ← hsecond, hnew]
    · rw [hnew] at hnone
      cases hnone
  have hreadable (r : String) (hr : r ∈ before ++ after) : (∃ cache claims,
      recordCache p r = some cache ∧ p.signedClaims (Bytes.ofString cache.token.payload) =
        some claims) ∧ ¬ SameAs p new r := by
    refine ⟨h.readable r ?_, h.others r hr⟩
    rcases List.mem_append.mp hr with hbefore | hafter
    · exact List.mem_append_left _ hbefore
    · exact List.mem_append_right _ (List.mem_cons_of_mem _ hafter)
  have hbefore : before.foldlM (findPending p old) none = .ok none :=
    findPending_others hid hnew rfl (fun r hr => hreadable r (List.mem_append_left _ hr)) none
  have hafter (found : Option Pending) : after.foldlM (findPending p old) found = .ok found :=
    findPending_others hid hnew rfl (fun r hr => hreadable r (List.mem_append_right _ hr)) found
  have hhere : findPending p old none record = .ok (some ⟨cache.request, time⟩) := by
    simp only [findPending, bind_ok, okOr_ok]
    refine ⟨cache, hcache, signed, hread, ?_⟩
    rw [if_neg (by simp [hsignedId])]
    simp only [bind_ok, okOr_ok, refuseIf_ok, pure_ok]
    exact ⟨claims, hclaims, (), by simp [hdevice, hportable], time, htime, rfl⟩
  simp only [LicenceCache.pendingRenewal, bind_ok, okOr_ok, refuseIf_ok, pure_ok]
  refine ⟨_, h.read, (), ?_, old, hold, some ⟨cache.request, time⟩, ?_, ?_⟩
  · have hroom := h.room
    simp only [ne_eq, not_true_eq_false, false_or, not_or, not_lt]
    exact ⟨by simp, hroom⟩
  · rw [List.foldlM_append, bind_ok]
    refine ⟨none, hbefore, ?_⟩
    rw [List.foldlM_cons, bind_ok]
    exact ⟨_, hhere, hafter _⟩
  · by_cases htoken : cache.token = expected.token
    · rw [if_pos htoken]
      rw [Option.filter_some, if_neg]
      exact fun hne => of_decide_eq_true hne htoken
    · rw [if_neg htoken]
      rw [Option.filter_some, if_pos]
      exact decide_eq_true htoken

end Pending

section Recovering

variable {p : Platform} {policy : Policy} {t : Store} {bytes raw out : List UInt8}
  {cache kept : ExistingCache} {time later : ℕ} {candidate : StoreLicenseCacheRequest}

/-- A call in which every read and every write succeeds. -/
def Io.working : Io := ⟨.ok (), true, true, .done, .done⟩

/-- A recovery that reads the state it is made in. -/
def recover (p : Platform) (policy : Policy) (s : Store) (now : ℕ) : Performed :=
  perform p policy s (.recover s .working now .working)

/-- A store that is read as a cache and a history. -/
structure Reads (p : Platform) (t : Store) (bytes raw : List UInt8) (cache : ExistingCache)
    (time : ℕ) : Prop where
  file : t.file = some bytes
  fileSize : bytes.length ≤ cacheLimit
  anchor : t.anchor = some raw
  anchorSize : ¬ (raw = [] ∨ cacheLimit < raw.length)
  parsed : p.existingCache bytes = some cache
  verifiedAt : cache.lastVerifiedAt = some time

theorem Reads.readCache (h : Reads p t bytes raw cache time) :
    LicenceCache.readCache t .working = .ok (some bytes) := by
  simp only [LicenceCache.readCache, bind_ok, refuseIf_ok, pure_ok, h.file]
  exact ⟨(), by simp [Io.working], (), by simpa using h.fileSize, trivial⟩

theorem Reads.readAnchor (h : Reads p t bytes raw cache time) :
    LicenceCache.readAnchor t .working = .ok (some raw) := by
  simp only [LicenceCache.readAnchor, bind_ok, refuseIf_ok, pure_ok, h.anchor]
  refine ⟨(), ?_, trivial⟩
  simpa [Io.working] using h.anchorSize

theorem Reads.selectPending (h : Reads p t bytes raw cache time) {pending : Option Pending}
    (hpending : pendingRenewal p raw cache.request = .ok pending)
    (hpast : ∀ found ∈ pending, found.acceptedAt ≤ later) :
    LicenceCache.selectPending p t .working later = .ok (⟨cache.request, time⟩, pending) := by
  simp only [LicenceCache.selectPending, asPrevious, bind_ok, okOr_ok, refuseIf_ok, pure_ok]
  refine ⟨some bytes, h.readCache, bytes, rfl, cache, h.parsed, ⟨cache.request, time⟩,
    ⟨time, h.verifiedAt, rfl⟩, some raw, h.readAnchor, raw, rfl, pending, hpending, (), ?_, rfl⟩
  rintro ⟨found, hfound, hfuture⟩
  exact absurd (hpast found hfound) (Nat.not_le.mpr hfuture)

/-- Where the history agrees with the cache, a recovery changes nothing. -/
theorem Reads.recover (h : Reads p t bytes raw cache time)
    (hpending : pendingRenewal p raw cache.request = .ok none)
    (hcurrent : verifyCurrent p policy raw cache.request time bytes = .ok ()) :
    LicenceCache.recover p policy t later = ⟨t, .ok none⟩ := by
  have hselect : LicenceCache.selectPending p t .working later = .ok (⟨cache.request, time⟩, none) :=
    h.selectPending hpending (by simp)
  have hverify : verifyWithAnchor p policy t .working ⟨cache.request, time⟩ = .ok () := by
    simp only [verifyWithAnchor, bind_ok, okOr_ok]
    exact ⟨(), rfl, some bytes, h.readCache, bytes, rfl, some raw, h.readAnchor, raw, rfl, hcurrent⟩
  simp only [LicenceCache.recover, perform, hselect, hverify]
  rfl

/-- A renewal that the history holds already is written to the cache. -/
theorem recover_pending {previous : Previous} {found : Pending} {file : List UInt8}
    (hselect : selectPending p t .working later = .ok (previous, some found))
    (hprepare : prepareRenewal p policy t .working previous found.candidate found.acceptedAt =
      .ok ⟨none, file⟩) :
    recover p policy t later = ⟨{ t with file := some file }, .ok (some found.candidate)⟩ := by
  simp only [recover, perform, hselect, hprepare]
  rfl

/-- A candidate whose token is in the history, with the time it was taken, is the current one. -/
theorem OneOf.verifyCurrent {before after : List String} {record : String} {new : SignedClaims}
    (h : OneOf p raw new before after record)
    (hadvance : advance p policy (some raw) none candidate bytes = .ok out)
    (hcurrent : p.existingCache bytes = some cache) (htime : cache.lastVerifiedAt = some time)
    (hkept : recordCache p record = some kept) (htoken : kept.token = candidate.token)
    (hkeptTime : kept.lastVerifiedAt = some time) :
    LicenceCache.verifyCurrent p policy raw candidate time bytes = .ok () := by
  have hreadable (r : String) (hr : r ∈ before ++ record :: after) :
      ∃ cache, recordCache p r = some cache := by
    obtain ⟨cache, -, hcache, -⟩ := h.readable r hr
    exact ⟨cache, hcache⟩
  have hfound := found_of_mem hreadable (List.mem_append_right _ List.mem_cons_self) hkept htoken
    hkeptTime
  simp only [LicenceCache.verifyCurrent, bind_ok, okOr_ok, refuseIf_ok]
  exact ⟨out, hadvance, cache, hcurrent, time, htime, (), not_not.mpr rfl, _, h.read, true, hfound,
    by decide⟩

end Recovering

section Interrupted

variable {p : Platform} {policy : Policy} {s : Store} {previous : Previous}
  {candidate : StoreLicenseCacheRequest} {io : Io} {now later : ℕ} {next file : List UInt8}

/-- What a renewal works with. -/
structure Renewing where
  existing : List UInt8
  retained : List UInt8
  prior : ExistingCache
  old : RefreshClaims
  fresh : RefreshClaims
  claims : SignedClaims
  proof : String
  text : String

def Renewing.persisted (d : Renewing) (candidate : StoreLicenseCacheRequest) (now : ℕ) :
    PersistedLicenseCache :=
  ⟨candidate.payload, candidate.signature, d.proof, min d.claims.iat now, d.prior.seatsUsed,
    d.prior.seatLimit⟩

/-- A renewal that has passed every check and is to move the history on. -/
structure Started (p : Platform) (policy : Policy) (s : Store) (previous : Previous)
    (candidate : StoreLicenseCacheRequest) (now : ℕ) (next : List UInt8) (d : Renewing) : Prop where
  reads : Reads p s d.existing d.retained d.prior previous.time
  token : d.prior.token = previous.expected.token
  valid : validateRequest p policy previous.expected = .ok ()
  current : verifyCurrent p policy d.retained previous.expected previous.time d.existing = .ok ()
  dual : validateDualRequest p policy candidate = .ok ()
  old : p.refreshClaims (Bytes.ofString previous.expected.payload) = some d.old
  fresh : p.refreshClaims (Bytes.ofString candidate.payload) = some d.fresh
  device : ¬ (d.old.licenseId ≠ d.fresh.licenseId ∨ d.old.deviceHash ≠ d.fresh.deviceHash ∨
    d.old.isPortable ≠ d.fresh.isPortable ∨ d.fresh.iss ≠ "wincommander-license-worker" ∨
    d.fresh.sub ≠ mainlineAppId)
  notOlder : checkPreviousWithHistory p policy d.existing candidate = .ok ()
  proof : candidate.hybrid = some d.proof
  claims : p.signedClaims (Bytes.ofString candidate.payload) = some d.claims
  text : p.toVecPretty (d.persisted candidate now) = some d.text
  advanced : advance p policy (some d.retained) (some d.existing) candidate
    (Bytes.ofString d.text) = .ok next

theorem prepareRenewal_started
    (h : prepareRenewal p policy s io previous candidate now = .ok ⟨some next, file⟩) :
    ∃ d, Started p policy s previous candidate now next d ∧ file = Bytes.ofString d.text := by
  simp only [prepareRenewal, readCache, readAnchor, signedVerificationTime, bind_ok, okOr_ok,
    refuseIf_ok, pure_ok, not_or, ne_eq, not_not] at h
  obtain ⟨u, -, cached, ⟨u₁, -, u₂, hfileSize, hfile⟩, existing, hexisting, anchor, ⟨u₃, hanchorSize,
    hanchor⟩, retained, hretained, prior, hprior, u₄, ⟨htoken, htime⟩, u₅, hvalid, u₆, hdual, old, hold,
    fresh, hfresh, u₇, hdevice, u₈, hnotOlder, proof, hproof, time, ⟨claims, hclaims, rfl⟩, text, htext,
    h⟩ := h
  rw [hexisting] at hfile
  rw [hretained] at hanchor
  cases hcurrent : verifyCurrent p policy retained previous.expected previous.time existing with
  | error e =>
    rw [hcurrent] at h
    simp only [bind_ok, pure_ok] at h
    obtain ⟨-, -, hprepared⟩ := h
    cases hprepared
  | ok u =>
    rw [hcurrent] at h
    simp only [bind_ok, pure_ok] at h
    obtain ⟨next', hnext, hprepared⟩ := h
    cases hprepared
    refine ⟨⟨existing, retained, prior, old, fresh, claims, proof, text⟩, ?_, rfl⟩
    exact {
      reads := {
        file := hfile
        fileSize := by
          rw [hfile] at hfileSize
          simpa using hfileSize
        anchor := hanchor
        anchorSize := by
          rw [hanchor] at hanchorSize
          simpa using hanchorSize.2
        parsed := hprior
        verifiedAt := htime }
      token := htoken
      valid := hvalid
      current := hcurrent
      dual := hdual
      old := hold
      fresh := hfresh
      device := by simpa using hdevice
      notOlder := hnotOlder
      proof := hproof
      claims := hclaims
      text := htext
      advanced := hnext }

end Interrupted

section Settling

variable {p : Platform} {policy : Policy} {s : Store} {previous : Previous}
  {candidate : StoreLicenseCacheRequest} {now later : ℕ} {next : List UInt8} {d : Renewing}

/-- The cache that a renewal writes, as it is read back. -/
def Renewing.saved (d : Renewing) (candidate : StoreLicenseCacheRequest) (now : ℕ) : ExistingCache :=
  (d.persisted candidate now).existing

theorem Started.saved_token (h : Started p policy s previous candidate now next d) :
    (d.saved candidate now).token = candidate.token := by
  rw [StoreLicenseCacheRequest.token, h.proof]
  rfl

theorem Started.recordCache (h : Started p policy s previous candidate now next d) :
    LicenceCache.recordCache p d.text = some (d.saved candidate now) :=
  p.existingCache_toVecPretty h.text

theorem Started.sameId (h : Started p policy s previous candidate now next d) :
    d.old.licenseId = d.fresh.licenseId := by
  by_contra hne
  exact h.device (Or.inl hne)

theorem Started.claimsId (h : Started p policy s previous candidate now next d) :
    d.claims.licenseId = some d.fresh.licenseId := p.licenseId_agrees h.claims h.fresh

/-- The history that a renewal starts from has one record of the licence, which is its own. -/
theorem Started.before (h : Started p policy s previous candidate now next d)
    (hid : d.fresh.licenseId ≠ "") : ∃ before after record kept signed,
      OneOf p d.retained signed before after record ∧
      p.signedClaims (Bytes.ofString previous.expected.payload) = some signed ∧
      signed.licenseId = some d.old.licenseId ∧ LicenceCache.recordCache p record = some kept ∧
      kept.token = previous.expected.token ∧ kept.lastVerifiedAt = some previous.time := by
  obtain ⟨⟨out, hout⟩, record, hrecord, kept, hkept, htoken, htime⟩ := verifyCurrent_ok h.current
  obtain ⟨-, -, signed, -, hsigned, -⟩ := ledger_of_advance hout
  have hsignedId := p.licenseId_agrees hsigned h.old
  have hself : sameLicence signed signed = true :=
    sameLicence_of_id (h.sameId ▸ hid) hsignedId hsignedId
  have hsame : SameAs p signed record := by
    refine ⟨signed, ?_, hself⟩
    rw [recordClaims, hkept, Option.bind_some, htoken]
    exact hsigned
  obtain ⟨before, after, hone⟩ := oneOf_of_advance hout hsigned hrecord hsame
  exact ⟨before, after, record, kept, signed, hone, hsigned, hsignedId, hkept, htoken, htime⟩

/-- The history that it writes has one record of the licence, which is the text of the cache. -/
theorem Started.after (h : Started p policy s previous candidate now next d)
    (hid : d.fresh.licenseId ≠ "") : ∃ before after, OneOf p next d.claims before after d.text ∧
      advance p policy (some next) none candidate (Bytes.ofString d.text) = .ok next ∧
      d.text.utf8ByteSize ≤ next.length ∧ next.length ≤ cacheLimit := by
  obtain ⟨record, new, before, after, hadv⟩ := advance_ok h.advanced
  have hrecord : d.text = record :=
    Option.some.inj ((Bytes.toString_ofString d.text).symm.trans hadv.text)
  have hnew : d.claims = new := Option.some.inj (h.claims.symm.trans hadv.claims)
  have hself : sameLicence new new = true := by
    rw [← hnew]
    exact sameLicence_of_id hid h.claimsId h.claimsId
  rw [hrecord, hnew]
  refine ⟨before, after, hadv.oneOf hself, ?_, ?_, hadv.size⟩
  · rw [← hrecord]
    exact hadv.again hself
  · exact p.ledger_size (List.mem_append_right _ List.mem_cons_self) hadv.written

/-- Where nothing was written, a recovery changes nothing. -/
theorem Started.undone (h : Started p policy s previous candidate now next d)
    (hid : d.fresh.licenseId ≠ "") : recover p policy s later = ⟨s, .ok none⟩ := by
  obtain ⟨before, after, record, kept, signed, hone, -, hsignedId, hkept, htoken, htime⟩ :=
    h.before hid
  have hexpected : d.prior.request.token = previous.expected.token := h.token
  have hold : p.refreshClaims (Bytes.ofString d.prior.request.payload) = some d.old := by
    rw [(fields_of_token hexpected).1]
    exact h.old
  have hkeptClaims : p.refreshClaims (Bytes.ofString kept.token.payload) = some d.old := by
    rw [htoken]
    exact h.old
  apply h.reads.recover
  · rw [hone.pendingRenewal hold (h.sameId ▸ hid) hsignedId hkept hkeptClaims rfl rfl htime,
      if_pos (htoken.trans hexpected.symm)]
  · rw [verifyCurrent_congr hexpected]
    exact h.current

section Written

variable (h : Started p policy s previous candidate now next d) (hid : d.fresh.licenseId ≠ "")
  (hnext : ¬ (next = [] ∨ cacheLimit < next.length))

include h hid

/-- The candidate is the current one of the history that was written for it. -/
theorem Started.written : verifyCurrent p policy next (d.saved candidate now).request
    (min d.claims.iat now) (Bytes.ofString d.text) = .ok () := by
  obtain ⟨before, after, hone, hadvance, -⟩ := h.after hid
  have hsaved : (d.saved candidate now).request.token = candidate.token := h.saved_token
  rw [← advance_congr hsaved] at hadvance
  exact hone.verifyCurrent hadvance h.recordCache rfl h.recordCache rfl rfl

/-- What was there before is not. -/
theorem Started.replaced (htoken : candidate.token ≠ previous.expected.token) : ∃ e,
    verifyCurrent p policy next d.prior.request previous.time d.existing = .error e := by
  obtain ⟨before, after, hone, -⟩ := h.after hid
  obtain ⟨-, -, -, -, signed, -, hsigned, hsignedId, -⟩ := h.before hid
  cases hcurrent : verifyCurrent p policy next d.prior.request previous.time d.existing with
  | error e => exact ⟨e, rfl⟩
  | ok u =>
    obtain ⟨-, r, hr, kept, hkept, hkeptToken, -⟩ := verifyCurrent_ok hcurrent
    have hexpected : kept.token = previous.expected.token := hkeptToken.trans h.token
    rw [readLedger_ok hone.read] at hr
    by_cases hown : r = d.text
    · rw [hown, h.recordCache] at hkept
      rw [← Option.some.inj hkept, h.saved_token] at hexpected
      exact absurd hexpected htoken
    · have hother : r ∈ before ++ after := by
        rcases List.mem_append.mp hr with hbefore | hafter
        · exact List.mem_append_left _ hbefore
        · exact List.mem_append_right _ ((List.mem_cons.mp hafter).resolve_left hown)
      have hclaims : recordClaims p r = some signed := by
        rw [recordClaims, hkept, Option.bind_some, hexpected]
        exact hsigned
      have hsame : sameLicence signed d.claims = true :=
        sameLicence_of_id hid (h.sameId ▸ hsignedId) h.claimsId
      exact absurd ⟨signed, hclaims, hsame⟩ (hone.others r hother)

include hnext

theorem Started.readsWritten : Reads p ⟨some (Bytes.ofString d.text), some next⟩
    (Bytes.ofString d.text) next (d.saved candidate now) (min d.claims.iat now) := by
  obtain ⟨before, after, -, -, htext, hsize⟩ := h.after hid
  refine ⟨rfl, ?_, rfl, hnext, h.recordCache, rfl⟩
  have hlength : (Bytes.ofString d.text).length = d.text.utf8ByteSize := rfl
  omega

/-- After both writes a recovery changes nothing. -/
theorem Started.settled : recover p policy ⟨some (Bytes.ofString d.text), some next⟩ later =
    ⟨⟨some (Bytes.ofString d.text), some next⟩, .ok none⟩ := by
  obtain ⟨before, after, hone, -⟩ := h.after hid
  apply (h.readsWritten hid hnext).recover
  · have hfresh : p.refreshClaims (Bytes.ofString (d.saved candidate now).request.payload) =
        some d.fresh := h.fresh
    have hown : (d.saved candidate now).token = (d.saved candidate now).request.token := rfl
    rw [hone.pendingRenewal hfresh hid h.claimsId h.recordCache hfresh rfl rfl rfl, if_pos hown]
  · exact h.written hid

/-- Between the two writes a recovery completes the renewal. -/
theorem Started.completed (htoken : candidate.token ≠ previous.expected.token)
    (hlater : now ≤ later) : recover p policy ⟨s.file, some next⟩ later =
      ⟨⟨some (Bytes.ofString d.text), some next⟩,
        .ok (some (d.saved candidate now).request)⟩ := by
  obtain ⟨before, after, hone, -⟩ := h.after hid
  have hreads : Reads p ⟨s.file, some next⟩ d.existing next d.prior previous.time :=
    ⟨h.reads.file, h.reads.fileSize, rfl, hnext, h.reads.parsed, h.reads.verifiedAt⟩
  have hexpected : d.prior.request.token = previous.expected.token := h.token
  have hsaved : (d.saved candidate now).request.token = candidate.token := h.saved_token
  have hold : p.refreshClaims (Bytes.ofString d.prior.request.payload) = some d.old := by
    rw [(fields_of_token hexpected).1]
    exact h.old
  have hdevice := h.device
  simp only [not_or, ne_eq, not_not] at hdevice
  have hpending : pendingRenewal p next d.prior.request =
      .ok (some ⟨(d.saved candidate now).request, min d.claims.iat now⟩) := by
    rw [hone.pendingRenewal hold (h.sameId ▸ hid) (h.sameId ▸ h.claimsId) h.recordCache h.fresh
      hdevice.2.1.symm hdevice.2.2.1.symm rfl, if_neg]
    · rfl
    · rw [h.saved_token, hexpected]
      exact htoken
  have hselect : selectPending p ⟨s.file, some next⟩ .working later = .ok
      (⟨d.prior.request, previous.time⟩,
        some ⟨(d.saved candidate now).request, min d.claims.iat now⟩) := by
    apply hreads.selectPending hpending
    intro found hfound
    rw [← Option.some.inj hfound]
    exact (Nat.min_le_right _ _).trans hlater
  obtain ⟨e, hreplaced⟩ := h.replaced hid htoken
  have hprepare : prepareRenewal p policy ⟨s.file, some next⟩ .working
      ⟨d.prior.request, previous.time⟩ (d.saved candidate now).request (min d.claims.iat now) =
      .ok ⟨none, Bytes.ofString d.text⟩ := by
    simp only [prepareRenewal, bind_ok, okOr_ok, refuseIf_ok]
    refine ⟨(), rfl, some d.existing, hreads.readCache, d.existing, rfl, some next, hreads.readAnchor,
      next, rfl, d.prior, h.reads.parsed, (), ?_, (), ?_, (), ?_, d.old, hold, d.fresh, h.fresh, (),
      h.device, (), ?_, d.proof, rfl, min d.claims.iat now, ?_, d.text, h.text, ?_⟩
    · have hprior : d.prior.token = d.prior.request.token := rfl
      simp [h.reads.verifiedAt, ← hprior]
    · rw [validateRequest_congr hexpected]
      exact h.valid
    · rw [validateDualRequest_congr hsaved]
      exact h.dual
    · rw [checkPreviousWithHistory_congr hsaved]
      exact h.notOlder
    · simp only [signedVerificationTime, bind_ok, okOr_ok, pure_ok]
      exact ⟨d.claims, h.claims, min_eq_right (Nat.min_le_left _ _)⟩
    · rw [hreplaced]
      simp only [bind_ok, pure_ok]
      exact ⟨(), h.written hid, trivial⟩
  exact recover_pending hselect hprepare

end Written

end Settling

section Atomicity

variable {p : Platform} {policy : Policy} {s : Store} {io : Io} {next file : List UInt8}

/-- What is there after a commit that was cut off anywhere. -/
theorem commit_cases (s : Store) (io : Io) (next file : List UInt8) :
    (∃ e, commit s io ⟨some next, file⟩ = (s, .error e)) ∨
      ¬ (next = [] ∨ cacheLimit < next.length) ∧
        ((∃ e, commit s io ⟨some next, file⟩ = (⟨s.file, some next⟩, .error e)) ∨
          ∃ answer, commit s io ⟨some next, file⟩ = (⟨some file, some next⟩, answer)) := by
  by_cases hnext : next = [] ∨ cacheLimit < next.length
  · left
    simp only [commit, if_pos hnext]
    exact ⟨_, rfl⟩
  · simp only [commit, if_neg hnext]
    cases hanchor : io.anchor with
    | refused => exact Or.inl ⟨_, rfl⟩
    | unflushed => exact Or.inr ⟨hnext, Or.inl ⟨_, rfl⟩⟩
    | done =>
      right
      refine ⟨hnext, ?_⟩
      simp only [writeFile]
      cases io.file with
      | refused => exact Or.inl ⟨_, rfl⟩
      | unflushed => exact Or.inr ⟨_, rfl⟩
      | done => exact Or.inr ⟨_, rfl⟩

/-- What a recovery leaves of a renewal that may have been cut off: nothing, or all of it. -/
structure AllOrNothing (p : Platform) (policy : Policy) (s : Store)
    (candidate : StoreLicenseCacheRequest) (next file : List UInt8) (later : ℕ)
    (cut recovered : Performed) : Prop where
  store : recovered.store = s ∨ recovered.store = ⟨some file, some next⟩
  /-- What was begun is completed. -/
  begun : cut.store ≠ s ∨ cut.answer = .ok (some candidate) → recovered.store = ⟨some file, some next⟩
  answer : ∃ answer, recovered.answer = .ok answer ∧ ∀ c ∈ answer, c.token = candidate.token
  /-- There is nothing left to recover. -/
  settled : recover p policy recovered.store later = ⟨recovered.store, .ok none⟩

end Atomicity

section Sample

/-- Two issues of one licence, at 1 and at 2. -/
def sampleIssued (bytes : List UInt8) : Option ℕ :=
  if bytes = Bytes.ofString "P" then some 1 else if bytes = Bytes.ofString "Q" then some 2 else none

def sampleEnvelope (payload : String) : Json.Value :=
  envelopeValue (Base64Url.encode (Bytes.ofString payload))
    [entryValue (Base64Url.encode [1]) (List.replicate 64 0), entryValue (Base64Url.encode [2]) []]

def sampleParse (bytes : List UInt8) : Option Json.Value :=
  if bytes = [1] then some (headerValue "Ed25519" "ed" .licence 1)
  else if bytes = [2] then some (headerValue "ML-DSA-65" "pq" .licence 1)
  else if bytes = Bytes.ofString "E" then some (sampleEnvelope "P")
  else if bytes = Bytes.ofString "F" then some (sampleEnvelope "Q")
  else none

def sampleOld : PersistedLicenseCache := ⟨"P", "s", "E", 1, none, none⟩

def sampleNew : PersistedLicenseCache := ⟨"Q", "s", "F", 2, none, none⟩

theorem sampleLedger_fresh :
    (Codec.ofOne (⟨1, ["p"]⟩ : Ledger) [1]).fromSlice [2] = none := Codec.fromSlice_ofOne_of_ne (by decide)

def sampleLedger : Codec Ledger :=
  (Codec.ofOne ⟨1, ["p"]⟩ [1]).extend ⟨1, ["q"]⟩ [2] sampleLedger_fresh

theorem sampleLedger_size {l : Ledger} {bytes : List UInt8} {r : String} (hr : r ∈ l.records)
    (h : sampleLedger.toVec l = some bytes) : r.utf8ByteSize ≤ bytes.length := by
  simp only [sampleLedger, Codec.extend, Codec.ofOne] at h
  split at h
  · next hl =>
    rw [hl, List.mem_singleton] at hr
    rw [hr, ← Option.some.inj h]
    decide
  · split at h
    · next hl =>
      rw [hl, List.mem_singleton] at hr
      rw [hr, ← Option.some.inj h]
      decide
    · cases h

theorem sampleCache_toVecPretty {c : PersistedLicenseCache} {text : String}
    (h : (if c = sampleOld then some "p" else if c = sampleNew then some "q" else none) = some text) :
    (if Bytes.ofString text = Bytes.ofString "p" then some sampleOld.existing
      else if Bytes.ofString text = Bytes.ofString "q" then some sampleNew.existing else none) =
      some c.existing := by
  split at h
  · next hc => rw [← Option.some.inj h, if_pos rfl, hc]
  · split at h
    · next hc => rw [← Option.some.inj h, if_neg (by decide), if_pos rfl, hc]
    · cases h

theorem sampleId_agrees {bytes : List UInt8} {s : SignedClaims} {r : RefreshClaims}
    (hs : (sampleIssued bytes).map (fun iat => SignedClaims.mk (some "L") "D" iat 9) = some s)
    (hr : (sampleIssued bytes).map (fun _ => RefreshClaims.mk "L" "D" "wincommander-license-worker"
      mainlineAppId false) = some r) : s.licenseId = some r.licenseId := by
  obtain ⟨iat, hiat, rfl⟩ := Option.map_eq_some_iff.mp hs
  rw [hiat] at hr
  rw [← Option.some.inj hr]

def samplePlatform : Platform where
  schemes := ⟨fun _ _ _ => true, fun _ _ _ => true⟩
  parse := sampleParse
  urlSafeNoPad text := some (List.replicate (if text = "k" then 32 else 64) 0)
  urlSafe _ := none
  standard _ := none
  validKey _ := true
  verifyStrict _ _ _ := true
  existingCache bytes := if bytes = Bytes.ofString "p" then some sampleOld.existing
    else if bytes = Bytes.ofString "q" then some sampleNew.existing else none
  legacyCache _ := none
  toVecPretty c := if c = sampleOld then some "p" else if c = sampleNew then some "q" else none
  existingCache_toVecPretty := sampleCache_toVecPretty
  ledger := sampleLedger
  ledger_size := sampleLedger_size
  signedClaims bytes := (sampleIssued bytes).map fun iat => ⟨some "L", "D", iat, 9⟩
  refreshClaims bytes := (sampleIssued bytes).map fun _ =>
    ⟨"L", "D", "wincommander-license-worker", mainlineAppId, false⟩
  licenseId_agrees := sampleId_agrees

def sampleTrust : Trust := ⟨.licence, 1, "ed", [1], "pq", [2]⟩

theorem sampleTrust_minimumEpoch : 1 ≤ sampleTrust.minimumEpoch := Nat.le_refl 1

def samplePolicy : Policy := ⟨"k", sampleTrust, none, sampleTrust_minimumEpoch⟩

def sampleStore : Store := ⟨some (Bytes.ofString "p"), some [1]⟩

def samplePrevious : Previous := ⟨⟨"P", "s", none, none, some "E"⟩, 1⟩

def sampleCandidate : StoreLicenseCacheRequest := ⟨"Q", "s", none, none, some "F"⟩

/-- The history is written and the cache file is not. -/
def sampleCut : Io := ⟨.ok (), true, true, .done, .refused⟩

end Sample

end LicenceCache
