import WinCommander.Library.Run
import WinCommander.Licence.Ledger

/-!
# Runs over the history of licences

A call writes the history first and the cache file after it, and may stop between the two.  Anyone may
change the cache file between two calls.  No licence that is taken is older than one that was taken
or kept before.
-/

namespace LicenceCache

open HybridJws Outcome

section Store

/-- The cache file and the registry value. -/
structure Store where
  file : Option (List UInt8)
  anchor : Option (List UInt8)
  deriving DecidableEq

/-- A write may be there although it is reported as failed.  A crash leaves what one of these leaves. -/
inductive Saved where
  | done
  | unflushed
  | refused
  deriving DecidableEq

/-- What the system makes of the reads and the writes of a call. -/
structure Io where
  lock : Except String Unit
  readsFile : Bool
  readsAnchor : Bool
  anchor : Saved
  file : Saved

variable (p : Platform) (policy : Policy)

def readCache (s : Store) (io : Io) : Except String (Option (List UInt8)) := do
  refuseIf (io.readsFile = false) "license cache is unavailable"
  refuseIf (∃ bytes ∈ s.file, cacheLimit < bytes.length) "license cache is invalid"
  pure s.file

def readAnchor (s : Store) (io : Io) : Except String (Option (List UInt8)) := do
  refuseIf (io.readsAnchor = false ∨ ∃ bytes ∈ s.anchor, bytes = [] ∨ cacheLimit < bytes.length)
    "license security record is unavailable"
  pure s.anchor

def writeFile (s : Store) (io : Io) (bytes : List UInt8) : Store × Except String Unit :=
  match io.file with
  | .done => ({ s with file := some bytes }, .ok ())
  | .unflushed => ({ s with file := some bytes }, .error "machine license cache is unavailable")
  | .refused => (s, .error "machine license cache is unavailable")

/-- What a call is to write: the history, unless it is as it should be, and the cache file. -/
structure Prepared where
  anchor : Option (List UInt8)
  file : List UInt8
  deriving DecidableEq

/-- The history is written first. -/
def commit (s : Store) (io : Io) (prepared : Prepared) : Store × Except String Unit :=
  match prepared.anchor with
  | none => writeFile s io prepared.file
  | some next =>
    if next = [] ∨ cacheLimit < next.length then
      (s, .error "license security record is unavailable")
    else
      match io.anchor with
      | .done => writeFile { s with anchor := some next } io prepared.file
      | .unflushed => ({ s with anchor := some next },
          .error "license security record is unavailable")
      | .refused => (s, .error "license security record is unavailable")

/-- Check and advance under the lock. -/
def prepareWrite (s : Store) (io : Io) (candidate : StoreLicenseCacheRequest)
    (bytes : List UInt8) : Except String Prepared := do
  io.lock
  let existing ← readCache s io
  match existing with
  | some previous => checkPreviousWithHistory p policy previous candidate
  | none => pure ()
  let retained ← readAnchor s io
  let next ← advance p policy retained existing candidate bytes
  pure ⟨some next, bytes⟩

def prepareStore (s : Store) (io : Io) (request : StoreLicenseCacheRequest) (now : ℕ) :
    Except String Prepared := do
  validateDualRequest p policy request
  let hybrid ← okOr request.hybrid "hybrid license is required"
  let time ← signedVerificationTime p request.payload now
  let text ← okOr (p.toVecPretty ⟨request.payload, request.signature, hybrid, time,
    request.seatsUsed, request.seatLimit⟩) "license cache could not be encoded"
  prepareWrite p policy s io request (Bytes.ofString text)

/-- The cache that a renewal starts from, and when it was taken. -/
structure Previous where
  expected : StoreLicenseCacheRequest
  time : ℕ

/-- A renewal is taken if the cache is still the one that it starts from.  If the history has moved
on, then only to this very renewal. -/
def prepareRenewal (s : Store) (io : Io) (previous : Previous)
    (candidate : StoreLicenseCacheRequest) (now : ℕ) : Except String Prepared := do
  io.lock
  let file ← readCache s io
  let existing ← okOr file "license cache is unavailable"
  let anchor ← readAnchor s io
  let retained ← okOr anchor "license security record is unavailable"
  let prior ← okOr (p.existingCache existing) "license cache is invalid"
  refuseIf (prior.token ≠ previous.expected.token ∨ prior.lastVerifiedAt ≠ some previous.time)
    "license cache changed during renewal"
  validateRequest p policy previous.expected
  let current := verifyCurrent p policy retained previous.expected previous.time existing
  validateDualRequest p policy candidate
  let old ← okOr (p.refreshClaims (Bytes.ofString previous.expected.payload))
    "license cache is invalid"
  let new ← okOr (p.refreshClaims (Bytes.ofString candidate.payload)) "license renewal is invalid"
  refuseIf (old.licenseId ≠ new.licenseId ∨ old.deviceHash ≠ new.deviceHash ∨
    old.isPortable ≠ new.isPortable ∨ new.iss ≠ "wincommander-license-worker" ∨
    new.sub ≠ mainlineAppId) "license renewal does not match device"
  checkPreviousWithHistory p policy existing candidate
  let hybrid ← okOr candidate.hybrid "hybrid license is required"
  let time ← signedVerificationTime p candidate.payload now
  let text ← okOr (p.toVecPretty ⟨candidate.payload, candidate.signature, hybrid, time,
    prior.seatsUsed, prior.seatLimit⟩) "license cache could not be encoded"
  let bytes := Bytes.ofString text
  match current with
  | .ok _ => do
    let next ← advance p policy (some retained) (some existing) candidate bytes
    pure ⟨some next, bytes⟩
  | .error _ => do
    verifyCurrent p policy retained candidate time bytes
    pure ⟨none, bytes⟩

/-- A cache, as the request that would store it, and when it was taken. -/
def asPrevious (cache : ExistingCache) : Except String Previous := do
  let time ← okOr cache.lastVerifiedAt "license cache verification time is missing"
  pure ⟨⟨cache.token.payload, cache.token.signature, cache.seatsUsed, cache.seatLimit,
    cache.token.hybrid⟩, time⟩

/-- The renewal that an interrupted write has left in the history, by a first reading without the
lock. -/
def selectPending (seen : Store) (io : Io) (now : ℕ) :
    Except String (Previous × Option Pending) := do
  let file ← readCache seen io
  let bytes ← okOr file "license cache is unavailable"
  let existing ← okOr (p.existingCache bytes) "license cache is invalid"
  let previous ← asPrevious existing
  let anchor ← readAnchor seen io
  let retained ← okOr anchor "license security record is unavailable"
  let pending ← pendingRenewal p retained previous.expected
  refuseIf (∃ found ∈ pending, now < found.acceptedAt) "license security record is from the future"
  pure (previous, pending)

def verifyWithAnchor (s : Store) (io : Io) (previous : Previous) : Except String Unit := do
  io.lock
  let file ← readCache s io
  let bytes ← okOr file "license cache is unavailable"
  let anchor ← readAnchor s io
  let retained ← okOr anchor "license security record is unavailable"
  verifyCurrent p policy retained previous.expected previous.time bytes

end Store

section Runs

variable (p : Platform) (policy : Policy)

/-- The first reading of a recovery is of some state, which may have changed. -/
inductive Action where
  | store (request : StoreLicenseCacheRequest) (now : ℕ) (io : Io)
  | renew (previous : Previous) (candidate : StoreLicenseCacheRequest) (now : ℕ) (io : Io)
  | recover (seen : Store) (reading : Io) (now : ℕ) (io : Io)
  | changeFile (file : Option (List UInt8))

/-- The outcome of a call, with the licence that was taken. -/
structure Performed where
  store : Store
  answer : Except String (Option StoreLicenseCacheRequest)

def conclude (s : Store) (io : Io) (candidate : StoreLicenseCacheRequest) :
    Except String Prepared → Performed
  | .error e => ⟨s, .error e⟩
  | .ok prepared =>
    let written := commit s io prepared
    ⟨written.1, written.2.map fun _ => some candidate⟩

def perform (s : Store) : Action → Performed
  | .store request now io => conclude s io request (prepareStore p policy s io request now)
  | .renew previous candidate now io =>
    conclude s io candidate (prepareRenewal p policy s io previous candidate now)
  | .recover seen reading now io =>
    match selectPending p seen reading now with
    | .error e => ⟨s, .error e⟩
    | .ok (previous, some found) => conclude s io found.candidate
        (prepareRenewal p policy s io previous found.candidate found.acceptedAt)
    | .ok (previous, none) =>
      ⟨s, (verifyWithAnchor p policy s io previous).map fun _ => none⟩
  | .changeFile file => ⟨{ s with file }, .ok none⟩

def step (s : Store) (a : Action) : Store := (perform p policy s a).store

/-- The licences that are taken. -/
def taken (s : Store) (a : Action) : List StoreLicenseCacheRequest :=
  match (perform p policy s a).answer with
  | .ok (some candidate) => [candidate]
  | _ => []

end Runs

section Floors

variable {p : Platform} {policy : Policy} {records : List String}
  {candidate : StoreLicenseCacheRequest} {bytes out : List UInt8} {record : String}
  {new : SignedClaims} {before after : List String}

theorem recordClaims_of_recordFloor {r : String} {f : Floor}
    (h : recordFloor p policy r = some f) : recordClaims p r = some f.claims := by
  obtain ⟨cache, hcache, hfloor⟩ := Option.bind_eq_some_iff.mp h
  rw [recordClaims, hcache, Option.bind_some]
  exact (floorOf_eq_some.mp hfloor).1

theorem Checked.floors {r : String} (h : Checked p policy candidate r) :
    ∃ f g, recordFloor p policy r = some f ∧ floorOf p policy candidate.token = some g ∧
      NotOlder f g := by
  obtain ⟨cache, hcache, hhybrid⟩ := h.cache
  obtain ⟨f, g, hf, hg, hle⟩ := notOlder_of_checkPrevious hcache hhybrid h.notOlder
  exact ⟨f, g, by rw [recordFloor, hcache, Option.bind_some, hf], hg, hle⟩

theorem Advanced.candidateFloor (h : Advanced p policy records candidate bytes out
    record new before after) : ∃ g, floorOf p policy candidate.token = some g ∧ g.claims = new := by
  have hdual := h.dual
  simp only [validateDualRequest, bind_ok, okOr_ok, refuseIf_ok, ne_eq, not_not] at hdual
  obtain ⟨-, -, proof, hproof, verified, hverified, hpayload⟩ := hdual
  exact ⟨_, floorOf_candidate hproof hverified hpayload h.claims, rfl⟩

theorem Advanced.recordCache (h : Advanced p policy records candidate bytes out
    record new before after) :
    ∃ cache, LicenceCache.recordCache p record = some cache ∧ cache.token = candidate.token := by
  obtain ⟨cache, hcache, htoken⟩ := h.cache
  exact ⟨cache, (recordCache_of_toString h.text).trans hcache, htoken⟩

theorem Advanced.recordsOf (h : Advanced p policy records candidate bytes out
    record new before after) :
    LicenceCache.recordsOf p (some out) = before ++ record :: after := by
  rw [LicenceCache.recordsOf, p.ledger.fromSlice_toVec h.written]

theorem Advanced.recordFloor (h : Advanced p policy records candidate bytes out
    record new before after) :
    LicenceCache.recordFloor p policy record = floorOf p policy candidate.token := by
  obtain ⟨cache, hcache, htoken⟩ := h.recordCache
  rw [LicenceCache.recordFloor, hcache, Option.bind_some, htoken]

theorem Advanced.recordClaims (h : Advanced p policy records candidate bytes out
    record new before after) : LicenceCache.recordClaims p record = some new := by
  obtain ⟨cache, hcache, htoken⟩ := h.recordCache
  rw [LicenceCache.recordClaims, hcache, Option.bind_some, htoken]
  exact h.claims

theorem Advanced.allDistinct (h : Advanced p policy records candidate bytes out
    record new before after) (hdistinct : Distinct p records) :
    Distinct p (before ++ record :: after) := by
  obtain ⟨hbefore, hafter, hcross⟩ := List.pairwise_append.mp (h.distinct hdistinct)
  refine List.pairwise_append.mpr ⟨hbefore, List.pairwise_cons.mpr ⟨?_, hafter⟩, ?_⟩
  · rintro r hr claims hclaims ⟨claims', hclaims', hsame⟩
    rw [h.recordClaims] at hclaims'
    rw [← Option.some.inj hclaims'] at hsame
    exact (h.others r (List.mem_append_right _ hr)).2 ⟨claims, hclaims, sameLicence_symm hsame⟩
  · intro r hr r' hr' claims hclaims
    rcases List.mem_cons.mp hr' with heq | hmem
    · rw [heq, h.recordClaims] at hclaims
      rw [← Option.some.inj hclaims]
      exact (h.others r (List.mem_append_left _ hr)).2
    · exact hcross r hr r' hmem claims hclaims

end Floors

section Steps

variable (p : Platform) (policy : Policy)

/-- A floor stands, or one of its licence has taken its place. -/
def Reaches (f g : Floor) : Prop := f = g ∨ Supersedes f g

/-- What was a floor still holds candidates to itself. -/
def Covered (s : Store) (f : Floor) : Prop :=
  ∃ r ∈ recordsOf p s.anchor, ∃ g, recordFloor p policy r = some g ∧ Reaches f g

/-- Every record stays, or one of its licence that is not older has taken its place. -/
def Keeps (s s' : Store) : Prop :=
  ∀ r ∈ recordsOf p s.anchor, r ∈ recordsOf p s'.anchor ∨
    ∃ f, recordFloor p policy r = some f ∧ Covered p policy s' f

/-- What a call may write for a candidate: the history with the candidate in it, or nothing where it
is there already. -/
inductive Admits (s : Store) (candidate : StoreLicenseCacheRequest) : Prepared → Prop
  | advances {existing : Option (List UInt8)} {bytes next : List UInt8}
      (h : advance p policy s.anchor existing candidate bytes = .ok next) :
      Admits s candidate ⟨some next, bytes⟩
  | confirms {raw bytes : List UInt8} {time : ℕ} (hanchor : s.anchor = some raw)
      (h : verifyCurrent p policy raw candidate time bytes = .ok ()) :
      Admits s candidate ⟨none, bytes⟩

variable {p policy} {s s' : Store} {candidate : StoreLicenseCacheRequest} {io : Io}
  {prepared : Prepared}

theorem Reaches.trans {f g h : Floor} (hfg : Reaches f g) (hgh : Reaches g h) : Reaches f h := by
  cases hfg with
  | inl heq => exact heq ▸ hgh
  | inr hfg =>
    cases hgh with
    | inl heq => exact Or.inr (heq ▸ hfg)
    | inr hgh => exact Or.inr (hfg.trans hgh)

theorem Reaches.notOlder {f g h : Floor} (hfg : Reaches f g) (hgh : NotOlder g h) :
    NotOlder f h := by
  cases hfg with
  | inl heq => exact heq ▸ hgh
  | inr hfg => exact hfg.trans_notOlder hgh

theorem Keeps.refl (s : Store) : Keeps p policy s s := fun _ hr => Or.inl hr

theorem Covered.keeps {f : Floor} (h : Covered p policy s f) (hkeeps : Keeps p policy s s') :
    Covered p policy s' f := by
  obtain ⟨r, hr, g, hg, hreaches⟩ := h
  cases hkeeps r hr with
  | inl hmem => exact ⟨r, hmem, g, hg, hreaches⟩
  | inr hcovered =>
    obtain ⟨g', hg', r', hr', h', hh', hreaches'⟩ := hcovered
    rw [hg] at hg'
    rw [← Option.some.inj hg'] at hreaches'
    exact ⟨r', hr', h', hh', hreaches.trans hreaches'⟩

theorem Keeps.trans {t : Store} (h : Keeps p policy s s') (h' : Keeps p policy s' t) :
    Keeps p policy s t := by
  intro r hr
  cases h r hr with
  | inl hmem => exact h' r hmem
  | inr hcovered =>
    obtain ⟨f, hf, hcovered⟩ := hcovered
    exact Or.inr ⟨f, hf, hcovered.keeps h'⟩

theorem keeps_of_anchor (h : s'.anchor = s.anchor) : Keeps p policy s s' := by
  intro r hr
  rw [h]
  exact Or.inl hr

/-- The loop that looks for the token of a candidate. -/
theorem found_ok {records : List String} {found : Bool} {time : ℕ}
    (h : records.foldlM (fun found record => do
      if found then pure true
      else do
        let old ← okOr (p.existingCache (Bytes.ofString record)) "license security record is invalid"
        pure (decide (old.token = candidate.token ∧ old.lastVerifiedAt = some time))) found =
      (Except.ok true : Except String Bool)) :
    found = true ∨ ∃ r ∈ records, ∃ cache, recordCache p r = some cache ∧
      cache.token = candidate.token ∧ cache.lastVerifiedAt = some time := by
  induction records generalizing found with
  | nil =>
    rw [List.foldlM_nil, pure_ok] at h
    exact Or.inl h
  | cons r records ih =>
    rw [List.foldlM_cons, bind_ok] at h
    obtain ⟨next, hnext, hrest⟩ := h
    cases found with
    | true => exact Or.inl rfl
    | false =>
      right
      rw [if_neg (by decide)] at hnext
      simp only [bind_ok, okOr_ok, pure_ok] at hnext
      obtain ⟨cache, hcache, hdecide⟩ := hnext
      rcases ih hrest with hfound | ⟨r', hr', hrecord⟩
      · rw [hfound, decide_eq_true_iff] at hdecide
        exact ⟨r, List.mem_cons_self, cache, hcache, hdecide⟩
      · exact ⟨r', List.mem_cons_of_mem _ hr', hrecord⟩

theorem verifyCurrent_ok {raw bytes : List UInt8} {time : ℕ}
    (h : verifyCurrent p policy raw candidate time bytes = .ok ()) :
    (∃ out, advance p policy (some raw) none candidate bytes = .ok out) ∧
      ∃ r ∈ recordsOf p (some raw), ∃ cache, recordCache p r = some cache ∧
        cache.token = candidate.token ∧ cache.lastVerifiedAt = some time := by
  simp only [verifyCurrent, bind_ok, okOr_ok, refuseIf_ok, ne_eq, not_not] at h
  obtain ⟨out, hout, current, hcurrent, verifiedAt, hverified, -, htime, ledger, hledger, found,
    hfound, hfinal⟩ := h
  refine ⟨⟨out, hout⟩, ?_⟩
  rw [Bool.not_eq_false] at hfinal
  rw [hfinal, htime] at hfound
  rw [readLedger_ok hledger]
  exact (found_ok hfound).resolve_left (by decide)

theorem Admits.notOlder (h : Admits p policy s candidate prepared) :
    ∃ g, floorOf p policy candidate.token = some g ∧ ∀ r ∈ recordsOf p s.anchor,
      ∃ f, recordFloor p policy r = some f ∧ NotOlder f g := by
  have hadvanced : ∃ existing bytes out,
      advance p policy s.anchor existing candidate bytes = .ok out := by
    cases h with
    | advances h => exact ⟨_, _, _, h⟩
    | confirms hanchor h =>
      rw [hanchor]
      obtain ⟨out, hout⟩ := (verifyCurrent_ok h).1
      exact ⟨_, _, out, hout⟩
  obtain ⟨existing, bytes, out, hout⟩ := hadvanced
  obtain ⟨record, new, before, after, hadv⟩ := advance_ok hout
  obtain ⟨g, hg, -⟩ := hadv.candidateFloor
  refine ⟨g, hg, ?_⟩
  intro r hr
  obtain ⟨f, g', hf, hg', hle⟩ := (hadv.checked r hr).floors
  rw [hg] at hg'
  exact ⟨f, hf, (Option.some.inj hg') ▸ hle⟩

/-- The registry value after a commit: as before, or as prepared. -/
theorem commit_anchor (s : Store) (io : Io) (prepared : Prepared) :
    ((commit s io prepared).1.anchor = s.anchor ∧
        ((commit s io prepared).2 = .ok () → prepared.anchor = none)) ∨
      ∃ next, prepared.anchor = some next ∧ (commit s io prepared).1.anchor = some next := by
  have hfile (t : Store) : (writeFile t io prepared.file).1.anchor = t.anchor := by
    unfold writeFile
    cases io.file <;> rfl
  unfold commit
  cases hanchor : prepared.anchor with
  | none => exact Or.inl ⟨hfile s, fun _ => rfl⟩
  | some next =>
    dsimp only
    split
    · exact Or.inl ⟨rfl, fun h => by cases h⟩
    · cases io.anchor with
      | done => exact Or.inr ⟨next, rfl, hfile _⟩
      | unflushed => exact Or.inr ⟨next, rfl, rfl⟩
      | refused => exact Or.inl ⟨rfl, fun h => by cases h⟩

/-- A record of the history, or the place of the candidate. -/
theorem Advanced.keeps {before after : List String} {bytes out : List UInt8}
    {record : String} {new : SignedClaims} (h : Advanced p policy
      (LicenceCache.recordsOf p s.anchor) candidate bytes out record new before after)
    (hanchor : s'.anchor = some out) : Keeps p policy s s' := by
  intro r hr
  rw [hanchor, h.recordsOf]
  rcases h.kept r hr with hmem | ⟨claims, hclaims, hsame⟩
  · left
    rcases List.mem_append.mp hmem with hbefore | hafter
    · exact List.mem_append_left _ hbefore
    · exact List.mem_append_right _ (List.mem_cons_of_mem _ hafter)
  · right
    obtain ⟨f, g, hf, hg, hle⟩ := (h.checked r hr).floors
    obtain ⟨g', hg', hnew⟩ := h.candidateFloor
    rw [hg] at hg'
    rw [recordClaims_of_recordFloor hf] at hclaims
    have hsupersedes : Supersedes f g := by
      refine ⟨?_, hle⟩
      rw [Option.some.inj hclaims, Option.some.inj hg', hnew]
      exact hsame
    refine ⟨f, hf, record, ?_, g, by rw [h.recordFloor, hg], Or.inr hsupersedes⟩
    rw [hanchor, h.recordsOf]
    exact List.mem_append_right _ List.mem_cons_self

theorem Admits.keeps (h : Admits p policy s candidate prepared) (io : Io) :
    Keeps p policy s (commit s io prepared).1 := by
  rcases commit_anchor s io prepared with ⟨hanchor, -⟩ | ⟨next, hprepared, hanchor⟩
  · exact keeps_of_anchor hanchor
  · cases h with
    | advances h =>
      rw [← Option.some.inj hprepared] at hanchor
      obtain ⟨record, new, before, after, hadv⟩ := advance_ok h
      exact hadv.keeps hanchor
    | confirms _ _ => cases hprepared

/-- A candidate that is taken is in the history. -/
theorem Admits.covered (h : Admits p policy s candidate prepared) {g : Floor}
    (hg : floorOf p policy candidate.token = some g) (hok : (commit s io prepared).2 = .ok ()) :
    Covered p policy (commit s io prepared).1 g := by
  rcases commit_anchor s io prepared with ⟨hanchor, hnone⟩ | ⟨next, hprepared, hanchor⟩
  · cases h with
    | advances _ => exact absurd (hnone hok) (by simp)
    | confirms hraw h =>
      obtain ⟨r, hr, cache, hcache, htoken, -⟩ := (verifyCurrent_ok h).2
      refine ⟨r, ?_, g, ?_, Or.inl rfl⟩
      · rw [hanchor, hraw]
        exact hr
      · rw [recordFloor, hcache, Option.bind_some, htoken, hg]
  · cases h with
    | advances h =>
      rw [← Option.some.inj hprepared] at hanchor
      obtain ⟨record, new, before, after, hadv⟩ := advance_ok h
      refine ⟨record, ?_, g, by rw [hadv.recordFloor, hg], Or.inl rfl⟩
      rw [hanchor, hadv.recordsOf]
      exact List.mem_append_right _ List.mem_cons_self
    | confirms _ _ => cases hprepared

/-- The history is small and has one record for each licence. -/
structure Sound (p : Platform) (s : Store) : Prop where
  bounded : (recordsOf p s.anchor).length ≤ maxRecords
  distinct : Distinct p (recordsOf p s.anchor)

theorem Admits.sound (h : Admits p policy s candidate prepared) (io : Io) (hs : Sound p s) :
    Sound p (commit s io prepared).1 := by
  rcases commit_anchor s io prepared with ⟨hanchor, -⟩ | ⟨next, hprepared, hanchor⟩
  · constructor
    · rw [hanchor]
      exact hs.bounded
    · rw [hanchor]
      exact hs.distinct
  · cases h with
    | advances h =>
      rw [← Option.some.inj hprepared] at hanchor
      obtain ⟨record, new, before, after, hadv⟩ := advance_ok h
      constructor
      · rw [hanchor, hadv.recordsOf]
        exact hadv.room
      · rw [hanchor, hadv.recordsOf]
        exact hadv.allDistinct hs.distinct
    | confirms _ _ => cases hprepared

theorem readAnchor_ok {anchor : Option (List UInt8)} (h : readAnchor s io = .ok anchor) :
    anchor = s.anchor := by
  simp only [readAnchor, bind_ok, pure_ok] at h
  obtain ⟨-, -, heq⟩ := h
  exact heq.symm

theorem prepareWrite_ok {bytes : List UInt8}
    (h : prepareWrite p policy s io candidate bytes = .ok prepared) :
    Admits p policy s candidate prepared := by
  simp only [prepareWrite, bind_ok] at h
  obtain ⟨-, -, existing, -, h⟩ := h
  have hrest : ∃ retained, readAnchor s io = .ok retained ∧ ∃ next,
      advance p policy retained existing candidate bytes = .ok next ∧
        (pure ⟨some next, bytes⟩ : Except String Prepared) = .ok prepared := by
    cases existing with
    | none => simpa only [bind_ok] using h
    | some previous =>
      simp only [bind_ok] at h
      obtain ⟨u, -, hrest⟩ := h
      exact hrest
  obtain ⟨retained, hretained, next, hnext, hprepared⟩ := hrest
  rw [readAnchor_ok hretained] at hnext
  rw [← pure_ok.mp hprepared]
  exact .advances hnext

theorem prepareStore_ok {now : ℕ} (h : prepareStore p policy s io candidate now = .ok prepared) :
    Admits p policy s candidate prepared := by
  simp only [prepareStore, bind_ok] at h
  obtain ⟨u, -, hybrid, -, time, -, text, -, h⟩ := h
  exact prepareWrite_ok h

theorem prepareRenewal_ok {previous : Previous} {now : ℕ}
    (h : prepareRenewal p policy s io previous candidate now = .ok prepared) :
    Admits p policy s candidate prepared := by
  simp only [prepareRenewal, bind_ok, okOr_ok] at h
  obtain ⟨u, -, file, -, existing, -, anchor, hanchor, retained, hretained, prior, -, u₁, -, u₂, -,
    u₃, -, old, -, new, -, u₄, -, u₅, -, hybrid, -, time, -, text, -, h⟩ := h
  have hraw : s.anchor = some retained := by rw [← readAnchor_ok hanchor, hretained]
  cases hcurrent : verifyCurrent p policy retained previous.expected previous.time existing with
  | ok _ =>
    rw [hcurrent] at h
    simp only [bind_ok, pure_ok] at h
    obtain ⟨next, hnext, rfl⟩ := h
    rw [← hraw] at hnext
    exact .advances hnext
  | error e =>
    rw [hcurrent] at h
    simp only [bind_ok, pure_ok] at h
    obtain ⟨u₆, hverified, rfl⟩ := h
    exact .confirms hraw hverified

end Steps

section Safety

variable (p : Platform) (policy : Policy)

/-- One licence is taken before another one. -/
def TakenBefore (c c' : StoreLicenseCacheRequest) : Prop :=
  ∃ f g, floorOf p policy c.token = some f ∧ floorOf p policy c'.token = some g ∧ NotOlder f g

/-- What a run makes of the history. -/
structure NeverRollsBack (s : Store) (acts : List Action) : Prop where
  /-- No record is lost. -/
  kept : Keeps p policy s (Machine.run (step p policy) s acts)
  /-- No licence is older than one that was taken before it. -/
  ordered : (Machine.outputs (step p policy) (taken p policy) s acts).Pairwise
    (TakenBefore p policy)
  /-- None is older than what the history held at first. -/
  above : ∀ c ∈ Machine.outputs (step p policy) (taken p policy) s acts,
    ∃ g, floorOf p policy c.token = some g ∧
      ∀ r ∈ recordsOf p s.anchor, ∀ f, recordFloor p policy r = some f → NotOlder f g
  sound : Sound p s → Sound p (Machine.run (step p policy) s acts)

variable {p policy} {s : Store} {a : Action}

/-- A call does nothing to the history, or it may write what it writes for the licence it takes. -/
theorem perform_cases (s : Store) (a : Action) :
    ((perform p policy s a).store.anchor = s.anchor ∧ taken p policy s a = []) ∨
      ∃ io candidate prepared, Admits p policy s candidate prepared ∧
        perform p policy s a = conclude s io candidate (.ok prepared) := by
  have hrefused (candidate : StoreLicenseCacheRequest) (io : Io) (prepared : Except String Prepared)
      (hperform : perform p policy s a = conclude s io candidate prepared)
      (hadmits : ∀ ready, prepared = .ok ready → Admits p policy s candidate ready) :
      ((perform p policy s a).store.anchor = s.anchor ∧ taken p policy s a = []) ∨
        ∃ io candidate prepared, Admits p policy s candidate prepared ∧
          perform p policy s a = conclude s io candidate (.ok prepared) := by
    cases prepared with
    | error e =>
      left
      rw [taken, hperform]
      exact ⟨rfl, rfl⟩
    | ok ready => exact Or.inr ⟨io, candidate, ready, hadmits ready rfl, hperform⟩
  cases a with
  | store request now io =>
    exact hrefused request io (prepareStore p policy s io request now) rfl
      fun _ h => prepareStore_ok h
  | renew previous candidate now io =>
    exact hrefused candidate io (prepareRenewal p policy s io previous candidate now) rfl
      fun _ h => prepareRenewal_ok h
  | changeFile file => exact Or.inl ⟨rfl, rfl⟩
  | recover seen reading now io =>
    cases hselect : selectPending p seen reading now with
    | error e =>
      left
      simp only [taken, perform, hselect]
      exact ⟨trivial, trivial⟩
    | ok selected =>
      obtain ⟨previous, pending⟩ := selected
      cases pending with
      | none =>
        left
        simp only [taken, perform, hselect]
        cases verifyWithAnchor p policy s io previous with
        | error e => exact ⟨trivial, rfl⟩
        | ok u => exact ⟨trivial, rfl⟩
      | some found =>
        apply hrefused found.candidate io
          (prepareRenewal p policy s io previous found.candidate found.acceptedAt)
        · simp only [perform, hselect]
        · exact fun _ h => prepareRenewal_ok h

theorem step_keeps (s : Store) (a : Action) : Keeps p policy s (step p policy s a) := by
  rcases @perform_cases p policy s a with
    ⟨hanchor, -⟩ | ⟨io, candidate, prepared, hadmits, hperform⟩
  · exact keeps_of_anchor hanchor
  · rw [step, hperform]
    exact hadmits.keeps io

theorem step_sound (hs : Sound p s) : Sound p (step p policy s a) := by
  rcases @perform_cases p policy s a with
    ⟨hanchor, -⟩ | ⟨io, candidate, prepared, hadmits, hperform⟩
  · rw [step]
    constructor
    · rw [hanchor]
      exact hs.bounded
    · rw [hanchor]
      exact hs.distinct
  · rw [step, hperform]
    exact hadmits.sound io hs

/-- A licence that is taken is not older than any record, and it is in the history from then on. -/
theorem taken_ok {c : StoreLicenseCacheRequest} (h : c ∈ taken p policy s a) :
    ∃ g, floorOf p policy c.token = some g ∧ Covered p policy (step p policy s a) g ∧
      ∀ r ∈ recordsOf p s.anchor, ∃ f, recordFloor p policy r = some f ∧ NotOlder f g := by
  rcases @perform_cases p policy s a with
    ⟨-, hnone⟩ | ⟨io, candidate, prepared, hadmits, hperform⟩
  · rw [hnone] at h
    exact absurd h List.not_mem_nil
  · rw [taken, hperform] at h
    simp only [conclude] at h
    cases hanswer : (commit s io prepared).2 with
    | error e =>
      rw [hanswer] at h
      exact absurd h List.not_mem_nil
    | ok u =>
      rw [hanswer] at h
      rw [List.mem_singleton.mp h]
      obtain ⟨g, hg, hle⟩ := hadmits.notOlder
      refine ⟨g, hg, ?_, hle⟩
      rw [step, hperform]
      exact hadmits.covered hg hanswer

theorem taken_length_le (s : Store) (a : Action) : (taken p policy s a).length ≤ 1 := by
  unfold taken
  split <;> simp

theorem Covered.notOlder {f g : Floor} (h : Covered p policy s f)
    (hall : ∀ r ∈ recordsOf p s.anchor, ∃ f, recordFloor p policy r = some f ∧ NotOlder f g) :
    NotOlder f g := by
  obtain ⟨r, hr, f', hf', hreaches⟩ := h
  obtain ⟨f'', hf'', hle⟩ := hall r hr
  rw [hf'] at hf''
  exact hreaches.notOlder ((Option.some.inj hf'').symm ▸ hle)

theorem run_keeps (s : Store) (acts : List Action) :
    Keeps p policy s (Machine.run (step p policy) s acts) :=
  Machine.run_relates (I := fun _ => True) (P := fun _ _ => True) Keeps.refl Keeps.trans
    (fun _ _ _ _ => trivial) (fun s a _ _ => step_keeps s a) trivial
    (Machine.Throughout.of_forall (fun _ _ => trivial) s acts)

/-- What is kept of a licence that was taken relates it to every later one. -/
theorem taken_ordered (s : Store) (acts : List Action) :
    (Machine.outputs (step p policy) (taken p policy) s acts).Pairwise (TakenBefore p policy) := by
  apply Machine.outputs_pairwise (V := fun _ => True) (Q := fun _ _ => True)
    (K := fun _ c s => ∃ f, floorOf p policy c.token = some f ∧ Covered p policy s f)
  · intro s a _
    have hlength := @taken_length_le p policy s a
    cases htaken : taken p policy s a with
    | nil => exact List.Pairwise.nil
    | cons c rest =>
      rw [htaken, List.length_cons] at hlength
      rw [List.length_eq_zero_iff.mp (by omega : rest.length = 0)]
      exact List.pairwise_singleton _ _
  · intro s a c _ hc
    obtain ⟨g, hg, hcovered, -⟩ := taken_ok hc
    exact ⟨g, hg, hcovered⟩
  · rintro s a b c _ _ ⟨f, hf, hcovered⟩
    refine ⟨⟨f, hf, hcovered.keeps (step_keeps s b)⟩, ?_⟩
    intro c' hc'
    obtain ⟨g, hg, -, hall⟩ := taken_ok hc'
    exact ⟨f, g, hf, hg, hcovered.notOlder hall⟩
  · exact fun _ _ => trivial
  · exact List.pairwise_of_forall fun _ _ => trivial

theorem taken_above (s : Store) (acts : List Action) {c : StoreLicenseCacheRequest}
    (hc : c ∈ Machine.outputs (step p policy) (taken p policy) s acts) :
    ∃ g, floorOf p policy c.token = some g ∧
      ∀ r ∈ recordsOf p s.anchor, ∀ f, recordFloor p policy r = some f → NotOlder f g := by
  obtain ⟨xs, a, ys, -, hout⟩ := Machine.mem_outputs.mp hc
  obtain ⟨g, hg, -, hall⟩ := taken_ok hout
  refine ⟨g, hg, ?_⟩
  intro r hr f hf
  have hstart : Covered p policy s f := ⟨r, hr, f, hf, Or.inl rfl⟩
  exact (hstart.keeps (run_keeps s xs)).notOlder hall

/-- Over every run, with writes that fail or are cut off at any point and a cache file that anyone may
change, the history loses no record, and no licence is taken that is older than one before it. -/
theorem history_never_rolls_back (p : Platform) (policy : Policy) (s : Store)
    (acts : List Action) : NeverRollsBack p policy s acts where
  kept := run_keeps s acts
  ordered := taken_ordered s acts
  above _ hc := taken_above s acts hc
  sound hs := Machine.run_invariant (P := fun _ _ => True) (fun _ _ hs _ => step_sound hs) hs
    (Machine.Throughout.of_forall (fun _ _ => trivial) s acts)

end Safety

end LicenceCache
