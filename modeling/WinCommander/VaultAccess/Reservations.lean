import WinCommander.VaultAccess.RegistryMoves
import WinCommander.Library.Run

/-!
# Reservations over whole runs

A ledger of what the replies have issued, kept apart from the store, says which completions are
licensed.  It is compared with the store along every run of calls.
-/

namespace AccessStore

open Machine Outcome

section Ledger

/-- A reservation that was issued, when, and the file that the broker made for it. -/
structure Issue where
  reservation : PersonalCreationReservation
  reservedAt : ℤ
  identity : Option String

abbrev Ledger := String → Option Issue

def PersonalCreationLifecycle.identity : PersonalCreationLifecycle → Option String
  | .reserved => none
  | .brokerCreated identity => some identity

def PendingPersonalVault.issue (pending : PendingPersonalVault) : Issue :=
  ⟨pending.reservation, pending.reservedAt, pending.lifecycle.identity⟩

def Issue.liveAt (issue : Issue) (now : ℤ) : Prop :=
  issue.reservedAt ≤ now ∧ now < satAdd issue.reservedAt personalCreationTtlSecs

/-- A reservation takes the place of one under either spelling of its path; a completion and a
cancellation end it. -/
@[grind =] def Ledger.note (ledger : Ledger) : Reply → Ledger
  | .reserved now reservation =>
    let key := personalKey reservation.normalizedPath
    Function.update (Function.update ledger (personalKeyAlias key) none) key
      (some ⟨reservation, now, none⟩)
  | .recorded reservation identity =>
    let key := personalKey reservation.normalizedPath
    Function.update ledger key ((ledger key).map fun issue => { issue with identity := some identity })
  | .completed reservation _ => Function.update ledger (personalKey reservation.normalizedPath) none
  | .cancelled reservation => Function.update ledger (personalKey reservation.normalizedPath) none
  | _ => ledger

/-- The replies that a ledger licenses at a time. -/
def Licensed (ledger : Ledger) (now : Option ℤ) : Reply → Prop
  | .reserved t reservation =>
    now = some t ∧ ∀ key issue, heldUnder (personalKey reservation.normalizedPath) key →
      ledger key = some issue → ¬ issue.liveAt t
  | .recorded reservation _ =>
    ∃ issue t, ledger (personalKey reservation.normalizedPath) = some issue ∧
      issue.reservation = reservation ∧ issue.identity = none ∧ now = some t ∧ issue.liveAt t
  | .completed reservation record =>
    ∃ issue t, ledger (personalKey reservation.normalizedPath) = some issue ∧
      issue.reservation = reservation ∧ issue.identity = some record.containerIdentity ∧
      now = some t ∧ issue.liveAt t ∧ record.containerPath = reservation.normalizedPath ∧
      record.ownerSid = reservation.ownerSid ∧ record.createdBySession = reservation.createdBySession
  | _ => True

end Ledger

section Runs

/-- The store, the time of the latest call, and the ledger of its replies. -/
structure Service where
  store : Store
  clock : ℤ
  ledger : Ledger

def Service.start (s : Store) (clock : ℤ) : Service :=
  ⟨s, clock, fun key => (s.pending.lookup key).map PendingPersonalVault.issue⟩

variable (platform : Platform) (fold : Char → Char)

def step (v : Service) (a : Action) : Service where
  store := (perform platform v.store a).2
  clock := a.now.getD v.clock
  ledger := v.ledger.note (perform platform v.store a).1

def foldText (s : String) : String := String.ofList (s.toList.map fold)

/-- Two paths that are one up to case, separators and verbatim spelling, where the file system folds
the case of letters. -/
def SamePath (path path' : String) : Prop :=
  SameKey (foldText fold (personalKey path)) (foldText fold (personalKey path'))

/-- The file is absent and nothing is held, or it was written from a store with the same maps. -/
def Mirrors (s : Store) : Prop :=
  (s.file = .absent ∧ (Store.empty .absent s.healthy).Same s) ∨
    ∃ (saved : Store) (bytes : List UInt8), s.file = .present bytes ∧
      platform.registry.toVec saved.contents = some bytes ∧ saved.Same s

/-- At most one reservation that has not expired is held for a path. -/
def Apart (s : Store) (clock : ℤ) : Prop :=
  ∀ k k' pending pending', s.pending.lookup k = some pending → s.pending.lookup k' = some pending' →
    liveAt clock pending = true → liveAt clock pending' = true →
      SamePath fold pending.containerPath pending'.containerPath → k = k'

/-- A store whose file says what it holds. -/
structure Settled (s : Store) (clock : ℤ) : Prop where
  keyed : ∀ k pending, s.pending.lookup k = some pending → k = personalKey pending.containerPath
  regular : ∀ k pending, s.pending.lookup k = some pending → Regular k
  spans : ∀ k pending, s.pending.lookup k = some pending →
    pending.expiresAt = satAdd pending.reservedAt personalCreationTtlSecs
  vacant : s.Vacant
  apart : Apart fold s clock
  mirrors : Mirrors platform s

/-- What holds of every call: reservations stay apart, only licensed replies are given, a record
comes from a completion, and the file says what the store holds. -/
structure Orderly (v : Service) (a : Action) : Prop where
  apart : Apart fold (step platform v a).store (step platform v a).clock
  licensed : Licensed v.ledger a.now (perform platform v.store a).1
  created : ∀ k record, (step platform v a).store.personal.lookup k = some record →
    (∃ old, v.store.personal.lookup k = some old ∧
      record = { old with syncthingOptIn := record.syncthingOptIn }) ∨
    ∃ reservation, (perform platform v.store a).1 = .completed reservation record ∧
      k = personalKey reservation.normalizedPath
  mirrors : Mirrors platform (step platform v a).store

/-- Time does not go back.  A reservation is not for a path that the file system takes for a reserved
one although its key differs, as letters outside ASCII allow.  A reservation that cannot be saved
does not replace an expired one. -/
structure Careful (v : Service) (a : Action) : Prop where
  timely : ∀ now, a.now = some now → v.clock ≤ now
  distinct : ∀ world active path caller operationId now nonce normalized k pending,
    a = .begin world active path caller operationId now nonce →
    world.normalizePersonalCreationPath path = .ok normalized →
    v.store.pending.lookup k = some pending → liveAt now pending = true →
    SamePath fold normalized pending.containerPath →
      SameKey (personalKey normalized) (personalKey pending.containerPath)
  saved : ∀ world active path caller operationId now nonce normalized k pending,
    a = .begin world active path caller operationId now (some nonce) →
    world.normalizePersonalCreationPath path = .ok normalized →
    (world.writes = false ∨ platform.registry.toVec (v.store.withReservation
      (newPending caller operationId now normalized nonce)).contents = none) →
    heldUnder (personalKey normalized) k → v.store.pending.lookup k = some pending →
      liveAt now pending = true

end Runs

section Steps

variable {platform : Platform} {fold : Char → Char}

theorem SamePath.symm {path path' : String} (h : SamePath fold path path') :
    SamePath fold path' path := SameKey.symm h

theorem Mirrors.same {s s' : Store} (h : Mirrors platform s) (hsame : s.Same s') :
    Mirrors platform s' := by
  rcases h with ⟨hfile, hempty⟩ | ⟨saved, bytes, hfile, hbytes, hsaved⟩
  · left
    rw [hsame.healthy]
    exact ⟨hsame.file.trans hfile, hempty.trans hsame⟩
  · exact Or.inr ⟨saved, bytes, hsame.file.trans hfile, hbytes, hsaved.trans hsame⟩

theorem Mirrors.written {s : Store} {bytes : List UInt8}
    (h : platform.registry.toVec s.contents = some bytes) :
    Mirrors platform { s with file := .present bytes } :=
  Or.inr ⟨{ s with file := .present bytes }, bytes, rfl, h, Store.Same.refl _⟩

/-- The invariants speak of the maps only. -/
theorem Settled.same {s s' : Store} {clock : ℤ} (h : Settled platform fold s clock)
    (hsame : s.Same s') : Settled platform fold s' clock where
  keyed k pending hk := h.keyed k pending (by rw [← hsame.pending, hk])
  regular k pending hk := h.regular k pending (by rw [← hsame.pending, hk])
  spans k pending hk := h.spans k pending (by rw [← hsame.pending, hk])
  vacant k pending hk := by
    rw [hsame.personal]
    exact h.vacant k pending (by rw [← hsame.pending, hk])
  apart k k' pending pending' hk hk' :=
    h.apart k k' pending pending' (by rw [← hsame.pending, hk]) (by rw [← hsame.pending, hk'])
  mirrors := h.mirrors.same hsame

/-- With time reservations only expire. -/
theorem Settled.later {s : Store} {clock now : ℤ} (h : Settled platform fold s clock)
    (hle : clock ≤ now) : Settled platform fold s now where
  keyed := h.keyed
  regular := h.regular
  spans := h.spans
  vacant := h.vacant
  apart k k' pending pending' hk hk' hlive hlive' := by
    apply h.apart k k' pending pending' hk hk'
    · simp only [liveAt, decide_eq_true_eq] at hlive ⊢
      omega
    · simp only [liveAt, decide_eq_true_eq] at hlive' ⊢
      omega
  mirrors := h.mirrors

section Sound

/-- A ledger agrees with the reservations that are held. -/
def Ledger.Of (ledger : Ledger) (s : Store) : Prop :=
  ∀ k, ledger k = (s.pending.lookup k).map PendingPersonalVault.issue

/-- What a move at a time owes: the invariants after it, and the promises of its reply. -/
structure Kept (platform : Platform) (fold : Char → Char) (s : Store) (ledger : Ledger)
    (now : Option ℤ) (clock : ℤ) (reply : Reply) (s' : Store) : Prop where
  settled : Settled platform fold s' clock
  agrees : (ledger.note reply).Of s'
  licensed : Licensed ledger now reply
  created : ∀ k record, s'.personal.lookup k = some record →
    (∃ old, s.personal.lookup k = some old ∧
      record = { old with syncthingOptIn := record.syncthingOptIn }) ∨
    ∃ reservation, reply = .completed reservation record ∧
      k = personalKey reservation.normalizedPath

variable {s s' : Store} {ledger : Ledger} {clock now : ℤ}

theorem kept_quiet {reply : Reply} {t : Option ℤ} (hs : Settled platform fold s clock)
    (hledger : ledger.Of s) (hquiet : reply.quiet = true) (hsame : s.Same s') :
    Kept platform fold s ledger t clock reply s' := by
  have hreply : ledger.note reply = ledger ∧ Licensed ledger t reply := by
    cases reply with
    | state _ => exact ⟨rfl, trivial⟩
    | optIn _ => exact ⟨rfl, trivial⟩
    | kept => exact ⟨rfl, trivial⟩
    | refused _ => exact ⟨rfl, trivial⟩
    | _ => simp [Reply.quiet] at hquiet
  refine ⟨hs.same hsame, ?_, hreply.2, ?_⟩
  · intro k
    rw [hreply.1, hledger k, hsame.pending]
  · intro k record hk
    rw [hsame.personal] at hk
    exact Or.inl ⟨record, hk, rfl⟩

/-- A match is licensed by the ledger. -/
theorem live_issue {pending : PendingPersonalVault} {reservation : PersonalCreationReservation}
    {k : String} (hs : Settled platform fold s clock) (hk : s.pending.lookup k = some pending)
    (hmatch : reservationMatches pending reservation now = true) :
    pending.reservation = reservation ∧ pending.issue.liveAt now := by
  obtain ⟨hfrom, huntil, heq⟩ := reservationMatches_iff.mp hmatch
  have hspan := hs.spans k pending hk
  rw [hspan] at huntil
  refine ⟨heq, ?_⟩
  unfold Issue.liveAt PendingPersonalVault.issue
  exact ⟨hfrom, huntil⟩

/-- A new reservation is apart from every other one that has not expired. -/
theorem apart_reservation (hs : Settled platform fold s now) (pending : PendingPersonalVault)
    (hdistinct : ∀ k held, s.pending.lookup k = some held → liveAt now held = true →
      SamePath fold pending.containerPath held.containerPath →
        SameKey (personalKey pending.containerPath) (personalKey held.containerPath)) :
    Apart fold (s.withReservation pending) now := by
  have hother : ∀ k held, k ≠ personalKey pending.containerPath →
      k ≠ personalKeyAlias (personalKey pending.containerPath) → s.pending.lookup k = some held →
        liveAt now held = true → ¬ SamePath fold pending.containerPath held.containerPath := by
    intro k held hkey halias hheld hlive hsame
    have hk := hs.keyed k held hheld
    have hunder : heldUnder (personalKey pending.containerPath) k := by
      rcases hdistinct k held hheld hlive hsame with h | h | h
      · exact Or.inl (hk.trans h.symm)
      · exact Or.inr (hk.trans h.symm)
      · right
        have hheldRegular := hs.regular k held hheld
        rw [← hk] at h
        rw [← h]
        exact hheldRegular.symm
    rcases hunder with h | h
    · exact hkey h
    · exact halias h
  intro k k' p p' hk hk' hlive hlive' hsame
  rw [withReservation_pending] at hk hk'
  by_cases h : k = personalKey pending.containerPath
  · by_cases h' : k' = personalKey pending.containerPath
    · exact h.trans h'.symm
    · rw [if_pos h, Option.some.injEq] at hk
      rw [if_neg h'] at hk'
      by_cases halias : k' = personalKeyAlias (personalKey pending.containerPath)
      · simp [halias] at hk'
      · rw [if_neg halias] at hk'
        rw [← hk] at hsame
        exact absurd hsame (hother k' p' h' halias hk' hlive')
  · rw [if_neg h] at hk
    by_cases halias : k = personalKeyAlias (personalKey pending.containerPath)
    · simp [halias] at hk
    · rw [if_neg halias] at hk
      by_cases h' : k' = personalKey pending.containerPath
      · rw [if_pos h', Option.some.injEq] at hk'
        rw [← hk'] at hsame
        exact absurd hsame.symm (hother k p h halias hk hlive)
      · rw [if_neg h'] at hk'
        by_cases halias' : k' = personalKeyAlias (personalKey pending.containerPath)
        · simp [halias'] at hk'
        · rw [if_neg halias'] at hk'
          exact hs.apart k k' p p' hk hk' hlive hlive' hsame

theorem kept_reserved {world : World} {active : Option PersistedPolicy} {path normalized : String}
    {caller : PersonalCreationCaller} {operationId : ℕ} {nonce bytes : List UInt8}
    (hs : Settled platform fold s now) (hledger : ledger.Of s)
    (hnormalized : world.normalizePersonalCreationPath path = .ok normalized)
    (hdistinct : ∀ k held, s.pending.lookup k = some held → liveAt now held = true →
      SamePath fold normalized held.containerPath →
        SameKey (personalKey normalized) (personalKey held.containerPath))
    (hfree : refuseReservation s active (newPending caller operationId now normalized nonce) caller
      now = .ok ())
    (hbytes : platform.registry.toVec
      (s.withReservation (newPending caller operationId now normalized nonce)).contents = some bytes) :
    Kept platform fold s ledger (some now) now
      (.reserved now (newPending caller operationId now normalized nonce).reservation)
      { s.withReservation (newPending caller operationId now normalized nonce) with
        file := .present bytes } := by
  have hregular := world.normalize_regular hnormalized
  have hpersonal := withReservation_personal s (newPending caller operationId now normalized nonce)
  have hlookup : ∀ k, (s.withReservation
      (newPending caller operationId now normalized nonce)).pending.lookup k =
        if k = personalKey normalized then some (newPending caller operationId now normalized nonce)
        else if k = personalKeyAlias (personalKey normalized) then none else s.pending.lookup k :=
    withReservation_pending s (newPending caller operationId now normalized nonce)
  refine ⟨?_, ?_, ⟨rfl, ?_⟩, ?_⟩
  · constructor
    · intro k held hk
      rw [hlookup] at hk
      by_cases hkey : k = personalKey normalized
      · rw [if_pos hkey, Option.some.injEq] at hk
        rw [← hk]
        exact hkey
      · rw [if_neg hkey] at hk
        by_cases halias : k = personalKeyAlias (personalKey normalized)
        · simp [halias] at hk
        · rw [if_neg halias] at hk
          exact hs.keyed k held hk
    · intro k held hk
      rw [hlookup] at hk
      by_cases hkey : k = personalKey normalized
      · rw [hkey]
        exact hregular
      · rw [if_neg hkey] at hk
        by_cases halias : k = personalKeyAlias (personalKey normalized)
        · simp [halias] at hk
        · rw [if_neg halias] at hk
          exact hs.regular k held hk
    · intro k held hk
      rw [hlookup] at hk
      by_cases hkey : k = personalKey normalized
      · rw [if_pos hkey, Option.some.injEq] at hk
        rw [← hk]
        rfl
      · rw [if_neg hkey] at hk
        by_cases halias : k = personalKeyAlias (personalKey normalized)
        · simp [halias] at hk
        · rw [if_neg halias] at hk
          exact hs.spans k held hk
    · intro k held hk
      rw [hlookup] at hk
      by_cases hkey : k = personalKey normalized
      · rw [hkey]
        exact hpersonal.1
      · rw [if_neg hkey] at hk
        by_cases halias : k = personalKeyAlias (personalKey normalized)
        · simp [halias] at hk
        · rw [if_neg halias] at hk
          have hnone := hs.vacant k held hk
          by_contra hsome
          obtain ⟨record, hrecord⟩ := Option.ne_none_iff_exists'.mp hsome
          rw [hpersonal.2 k record hrecord] at hnone
          exact absurd hnone (by simp)
    · exact apart_reservation hs (newPending caller operationId now normalized nonce) hdistinct
    · exact Mirrors.written hbytes
  · intro k
    rw [hlookup]
    simp only [Ledger.note]
    by_cases hkey : k = personalKey normalized
    · simp [newPending, PendingPersonalVault.reservation, PendingPersonalVault.issue,
        PersonalCreationLifecycle.identity, hkey]
    · by_cases halias : k = personalKeyAlias (personalKey normalized)
      · rw [if_neg hkey, if_pos halias]
        simp only [newPending, PendingPersonalVault.reservation]
        rw [Function.update_of_ne hkey, halias, Function.update_self]
        rfl
      · simp [newPending, PendingPersonalVault.reservation, hkey, halias, hledger k]
  · intro key issue hkey hissue hlive
    rw [hledger, Option.map_eq_some_iff] at hissue
    obtain ⟨held, hheld, rfl⟩ := hissue
    have hexpired := refuseReservation_free hfree hkey hheld
    have hspan := hs.spans key held hheld
    have huntil := hlive.2
    simp only [liveAt, hspan, decide_eq_false_iff_not] at hexpired
    exact hexpired huntil
  · intro k record hk
    exact Or.inl ⟨record, hpersonal.2 k record hk, rfl⟩

theorem kept_unreserved {world : World} {active : Option PersistedPolicy} {normalized : String}
    {caller : PersonalCreationCaller} {operationId : ℕ} {nonce : List UInt8} {t : Option ℤ}
    (hs : Settled platform fold s now) (hledger : ledger.Of s)
    (hfree : refuseReservation s active (newPending caller operationId now normalized nonce) caller
      now = .ok ())
    (hfailed : (persistPersonal platform world
      (s.withReservation (newPending caller operationId now normalized nonce))).1 = false)
    (hsaved : ∀ k held, (world.writes = false ∨ platform.registry.toVec (s.withReservation
      (newPending caller operationId now normalized nonce)).contents = none) →
        heldUnder (personalKey normalized) k → s.pending.lookup k = some held →
          liveAt now held = true) :
    Kept platform fold s ledger t now (.refused .persistence)
      (s.withoutReservation (s.withReservation (newPending caller operationId now normalized nonce))
        (personalKey normalized)) := by
  have hnone : ∀ k, heldUnder (personalKey normalized) k → s.pending.lookup k = none := by
    intro k hk
    by_contra hsome
    obtain ⟨held, hheld⟩ := Option.ne_none_iff_exists'.mp hsome
    have hlive := hsaved k held (persistPersonal_failed hfailed) hk hheld
    have hexpired := refuseReservation_free hfree hk hheld
    rw [hlive] at hexpired
    exact absurd hexpired (by simp)
  have hsame : s.Same (s.withoutReservation (s.withReservation
      (newPending caller operationId now normalized nonce)) (personalKey normalized)) :=
    Store.same_withoutReservation hnone
  exact kept_quiet hs hledger rfl hsame

theorem kept_recorded {reservation : PersonalCreationReservation} {pending : PendingPersonalVault}
    {identity : String} {bytes : List UInt8} (hs : Settled platform fold s now)
    (hledger : ledger.Of s)
    (hlookup : s.pending.lookup (personalKey reservation.normalizedPath) = some pending)
    (hmatch : reservationMatches pending reservation now = true)
    (hphase : pending.lifecycle = .reserved)
    (hbytes : platform.registry.toVec (s.setPending (personalKey reservation.normalizedPath)
      { pending with lifecycle := .brokerCreated identity }).contents = some bytes) :
    Kept platform fold s ledger (some now) now (.recorded reservation identity)
      { s.setPending (personalKey reservation.normalizedPath)
          { pending with lifecycle := .brokerCreated identity } with file := .present bytes } := by
  have hpending : ∀ k, (s.setPending (personalKey reservation.normalizedPath)
      { pending with lifecycle := .brokerCreated identity }).pending.lookup k =
        if k = personalKey reservation.normalizedPath then
          some { pending with lifecycle := .brokerCreated identity }
        else s.pending.lookup k := by
    intro k
    unfold Store.setPending
    exact lookup_insert_eq _ _ _ _
  have hheld : ∀ k held, (s.setPending (personalKey reservation.normalizedPath)
      { pending with lifecycle := .brokerCreated identity }).pending.lookup k = some held →
        ∃ old, s.pending.lookup k = some old ∧ held = { old with lifecycle := held.lifecycle } := by
    intro k held hk
    rw [hpending] at hk
    by_cases hkey : k = personalKey reservation.normalizedPath
    · rw [if_pos hkey, Option.some.injEq] at hk
      exact ⟨pending, hkey ▸ hlookup, by rw [← hk]⟩
    · rw [if_neg hkey] at hk
      exact ⟨held, hk, rfl⟩
  have hlive := live_issue hs hlookup hmatch
  refine ⟨?_, ?_, ?_, ?_⟩
  · constructor
    · intro k held hk
      obtain ⟨old, hold, heq⟩ := hheld k held hk
      rw [heq]
      exact hs.keyed k old hold
    · intro k held hk
      obtain ⟨old, hold, _⟩ := hheld k held hk
      exact hs.regular k old hold
    · intro k held hk
      obtain ⟨old, hold, heq⟩ := hheld k held hk
      rw [heq]
      exact hs.spans k old hold
    · intro k held hk
      obtain ⟨old, hold, _⟩ := hheld k held hk
      exact hs.vacant k old hold
    · intro k k' held held' hk hk' hl hl' hsame
      obtain ⟨old, hold, heq⟩ := hheld k held hk
      obtain ⟨old', hold', heq'⟩ := hheld k' held' hk'
      rw [heq] at hl hsame
      rw [heq'] at hl' hsame
      exact hs.apart k k' old old' hold hold' hl hl' hsame
    · exact Mirrors.written hbytes
  · intro k
    rw [hpending]
    simp only [Ledger.note]
    by_cases hkey : k = personalKey reservation.normalizedPath
    · rw [Function.update_apply, if_pos hkey, if_pos hkey, hledger, hlookup]
      rfl
    · simp [hkey, hledger k]
  · refine ⟨pending.issue, now, ?_, hlive.1, ?_, rfl, hlive.2⟩
    · rw [hledger, hlookup]
      rfl
    · simp [PendingPersonalVault.issue, hphase, PersonalCreationLifecycle.identity]
  · intro k record hk
    exact Or.inl ⟨record, hk, rfl⟩

/-- Without a reservation the others stay as they are. -/
theorem settled_withoutPending {s' : Store} {key : String} {bytes : List UInt8}
    (hs : Settled platform fold s now) (hpending : s'.pending = s.pending.erase key)
    (hpersonal : ∀ k, k ≠ key → s'.personal.lookup k = s.personal.lookup k)
    (hbytes : platform.registry.toVec s'.contents = some bytes) :
    Settled platform fold { s' with file := .present bytes } now := by
  have hheld : ∀ k held, s'.pending.lookup k = some held →
      k ≠ key ∧ s.pending.lookup k = some held := by
    intro k held hk
    rw [hpending, lookup_erase_eq] at hk
    by_cases hkey : k = key
    · simp [hkey] at hk
    · rw [if_neg hkey] at hk
      exact ⟨hkey, hk⟩
  constructor
  · exact fun k held hk => hs.keyed k held (hheld k held hk).2
  · exact fun k held hk => hs.regular k held (hheld k held hk).2
  · exact fun k held hk => hs.spans k held (hheld k held hk).2
  · intro k held hk
    obtain ⟨hkey, hold⟩ := hheld k held hk
    have hvacant := hs.vacant k held hold
    rw [← hpersonal k hkey] at hvacant
    exact hvacant
  · exact fun k k' held held' hk hk' =>
      hs.apart k k' held held' (hheld k held hk).2 (hheld k' held' hk').2
  · exact Mirrors.written hbytes

theorem kept_completed {reservation : PersonalCreationReservation} {pending : PendingPersonalVault}
    {identity : String} {bytes : List UInt8} (hs : Settled platform fold s now)
    (hledger : ledger.Of s)
    (hlookup : s.pending.lookup (personalKey reservation.normalizedPath) = some pending)
    (hmatch : reservationMatches pending reservation now = true)
    (hphase : pending.lifecycle = .brokerCreated identity)
    (hbytes : platform.registry.toVec (s.withRecord (personalKey reservation.normalizedPath)
      (newRecord pending identity)).contents = some bytes) :
    Kept platform fold s ledger (some now) now (.completed reservation (newRecord pending identity))
      { s.withRecord (personalKey reservation.normalizedPath) (newRecord pending identity) with
        file := .present bytes } := by
  have hlive := live_issue hs hlookup hmatch
  have hpersonal : ∀ k, (s.withRecord (personalKey reservation.normalizedPath)
      (newRecord pending identity)).personal.lookup k =
        if k = personalKey reservation.normalizedPath then some (newRecord pending identity)
        else s.personal.lookup k := by
    intro k
    unfold Store.withRecord
    exact lookup_insert_eq _ _ _ _
  refine ⟨?_, ?_, ?_, ?_⟩
  · refine settled_withoutPending hs rfl ?_ hbytes
    intro k hkey
    rw [hpersonal, if_neg hkey]
  · intro k
    have hpending : (s.withRecord (personalKey reservation.normalizedPath)
      (newRecord pending identity)).pending.lookup k =
        if k = personalKey reservation.normalizedPath then none else s.pending.lookup k :=
      lookup_erase_eq _ _ _
    rw [hpending]
    simp only [Ledger.note]
    by_cases hkey : k = personalKey reservation.normalizedPath
    · simp [hkey]
    · simp [hkey, hledger k]
  · rw [← hlive.1]
    refine ⟨pending.issue, now, ?_, rfl, ?_, rfl, hlive.2, rfl, rfl, rfl⟩
    · rw [hlive.1, hledger, hlookup]
      rfl
    · simp [PendingPersonalVault.issue, hphase, PersonalCreationLifecycle.identity, newRecord]
  · intro k record hk
    rw [hpersonal] at hk
    by_cases hkey : k = personalKey reservation.normalizedPath
    · rw [if_pos hkey, Option.some.injEq] at hk
      exact Or.inr ⟨reservation, by rw [hk], hkey⟩
    · rw [if_neg hkey] at hk
      exact Or.inl ⟨record, hk, rfl⟩

theorem kept_cancelled {reservation : PersonalCreationReservation} {bytes : List UInt8} {t : Option ℤ}
    (hs : Settled platform fold s now) (hledger : ledger.Of s)
    (hbytes : platform.registry.toVec
      (s.withoutPending (personalKey reservation.normalizedPath)).contents = some bytes) :
    Kept platform fold s ledger t now (.cancelled reservation)
      { s.withoutPending (personalKey reservation.normalizedPath) with file := .present bytes } := by
  refine ⟨settled_withoutPending hs rfl (fun _ _ => rfl) hbytes, ?_, trivial, ?_⟩
  · intro k
    have hpending : (s.withoutPending (personalKey reservation.normalizedPath)).pending.lookup k =
        if k = personalKey reservation.normalizedPath then none else s.pending.lookup k :=
      lookup_erase_eq _ _ _
    rw [hpending]
    simp only [Ledger.note]
    by_cases hkey : k = personalKey reservation.normalizedPath
    · simp [hkey]
    · simp [hkey, hledger k]
  · exact fun k record hk => Or.inl ⟨record, hk, rfl⟩

theorem kept_consented {key : String} {record : PersonalVaultRecord} {optIn : Option Bool}
    {bytes : List UInt8} {t : Option ℤ} (hs : Settled platform fold s now) (hledger : ledger.Of s)
    (hlookup : s.personal.lookup key = some record)
    (hbytes : platform.registry.toVec { s with
      personal := s.personal.insert key { record with syncthingOptIn := optIn } }.contents =
        some bytes) :
    Kept platform fold s ledger t now .consented
      { s with
        file := .present bytes
        personal := s.personal.insert key { record with syncthingOptIn := optIn } } := by
  have hpersonal : ∀ k, (s.personal.insert key
      { record with syncthingOptIn := optIn }).lookup k =
        if k = key then some { record with syncthingOptIn := optIn } else s.personal.lookup k :=
    fun k => lookup_insert_eq _ _ _ _
  refine ⟨?_, hledger, trivial, ?_⟩
  · refine ⟨hs.keyed, hs.regular, hs.spans, ?_, hs.apart, Mirrors.written hbytes⟩
    intro k held hk
    have hnone := hs.vacant k held hk
    have hkey : k ≠ key := by
      intro h
      rw [h, hlookup] at hnone
      exact absurd hnone (by simp)
    exact (hpersonal k).trans (by rw [if_neg hkey, hnone])
  · intro k record' hk
    have hk' : (s.personal.insert key { record with syncthingOptIn := optIn }).lookup k =
        some record' := hk
    rw [hpersonal] at hk'
    by_cases hkey : k = key
    · rw [if_pos hkey, Option.some.injEq] at hk'
      refine Or.inl ⟨record, hkey ▸ hlookup, ?_⟩
      rw [← hk']
    · rw [if_neg hkey] at hk'
      exact Or.inl ⟨record', hk', rfl⟩

theorem move_kept {v : Service} {a : Action} {reply : Reply} {s' : Store}
    (hs : Settled platform fold v.store v.clock) (hledger : v.ledger.Of v.store)
    (hcareful : Careful platform fold v a) (hmove : Move platform v.store a reply s') :
    Kept platform fold v.store v.ledger a.now (a.now.getD v.clock) reply s' := by
  have hlater : Settled platform fold v.store (a.now.getD v.clock) := by
    cases hnow : a.now with
    | none => exact hs
    | some now => exact hs.later (hcareful.timely now hnow)
  cases hmove with
  | same hquiet hsame => exact kept_quiet hlater hledger hquiet hsame
  | @reserved world active path normalized caller operationId now nonce bytes hnormalized hfree hbytes =>
    have hdistinct := fun k held => hcareful.distinct world active path caller operationId now _
      normalized k held rfl hnormalized
    exact kept_reserved hlater hledger hnormalized hdistinct hfree hbytes
  | @unreserved world active path normalized caller operationId now nonce hnormalized hfree hfailed =>
    have hsaved := fun k held => hcareful.saved world active path caller operationId now nonce
      normalized k held rfl hnormalized
    exact kept_unreserved hlater hledger hfree hfailed hsaved
  | recorded hlookup hmatch hphase hbytes =>
    exact kept_recorded hlater hledger hlookup hmatch hphase hbytes
  | completed hlookup hmatch hphase hbytes =>
    exact kept_completed hlater hledger hlookup hmatch hphase hbytes
  | cancelled hlookup hmatch hbytes => exact kept_cancelled hlater hledger hbytes
  | consented hhealthy hlookup hbytes => exact kept_consented hlater hledger hlookup hbytes

/-- The service's store is settled and its ledger agrees with it. -/
structure Sound (platform : Platform) (fold : Char → Char) (v : Service) : Prop where
  settled : Settled platform fold v.store v.clock
  agrees : v.ledger.Of v.store

theorem step_sound {v : Service} {a : Action} (hv : Sound platform fold v)
    (hcareful : Careful platform fold v a) :
    Sound platform fold (step platform v a) ∧ Orderly platform fold v a := by
  have hkept := move_kept hv.settled hv.agrees hcareful
    (perform_move platform hv.settled.vacant a)
  exact ⟨⟨hkept.settled, hkept.agrees⟩, hkept.settled.apart, hkept.licensed, hkept.created,
    hkept.settled.mirrors⟩

theorem settled_empty (platform : Platform) (fold : Char → Char) (clock : ℤ) :
    Settled platform fold (Store.empty .absent true) clock where
  keyed k pending h := absurd h (by simp [Store.empty])
  regular k pending h := absurd h (by simp [Store.empty])
  spans k pending h := absurd h (by simp [Store.empty])
  vacant k pending h := absurd h (by simp [Store.empty])
  apart k k' pending pending' h := absurd h (by simp [Store.empty])
  mirrors := Or.inl ⟨rfl, Store.Same.refl _⟩

/-- In every run of careful calls from a settled store every call is orderly. -/
theorem reservations_orderly (platform : Platform) (fold : Char → Char) {s : Store} {clock : ℤ}
    (hs : Settled platform fold s clock) {acts : List Action}
    (hcareful : Throughout (step platform) (Careful platform fold) (Service.start s clock) acts) :
    Throughout (step platform) (Orderly platform fold) (Service.start s clock) acts := by
  have hstart : Sound platform fold (Service.start s clock) := ⟨hs, fun _ => rfl⟩
  exact Throughout.strengthen (fun _ _ hv hc => (step_sound hv hc).1)
    (fun _ _ hv hc => (step_sound hv hc).2) hstart hcareful

end Sound

end Steps

section Sample

def sampleReserved : Store :=
  { (Store.empty .absent true).withReservation samplePending with file := .present [0] }

def sampleRecorded : Store :=
  sampleReserved.setPending samplePath { samplePending with lifecycle := .brokerCreated "v:1:i:1" }

def sampleCompleted : Store := sampleRecorded.withRecord samplePath (newRecord samplePending "v:1:i:1")

def sampleRegistry : Codec PersonalVaultRegistry :=
  ((Codec.ofOne sampleCompleted.contents [2]).extend sampleRecorded.contents [1]
    (Codec.fromSlice_ofOne_of_ne (by decide))).extend sampleReserved.contents [0] (by
      simp [Codec.extend, Codec.ofOne])

def samplePlatform : Platform where
  std := ⟨fun _ => true, fun _ => true, fun _ => true, fun _ => false⟩
  registry := sampleRegistry
  legacyRecords _ := none

theorem reservations_orderly_sample :
    Throughout (step samplePlatform) (Orderly samplePlatform id)
      (Service.start (Store.empty .absent true) 0)
      [sampleBegin 1 true, .record (sampleWorld true) samplePending.reservation samplePath 2,
        .complete (sampleWorld true) samplePending.reservation 3] := by
  apply reservations_orderly samplePlatform id (settled_empty samplePlatform id 0)
  refine ⟨?_, ?_, ?_, trivial⟩
  · constructor
    · intro now h
      cases h
      decide
    · intro _ _ _ _ _ _ _ _ k pending _ _ hk
      exact absurd hk (by simp [Service.start, Store.empty])
    · intro _ _ _ _ _ _ _ _ k pending _ _ _ _ hk
      exact absurd hk (by simp [Service.start, Store.empty])
  · constructor
    · intro now h
      cases h
      decide
    · intro _ _ _ _ _ _ _ _ _ _ h
      cases h
    · intro _ _ _ _ _ _ _ _ _ _ h
      cases h
  · constructor
    · intro now h
      cases h
      decide
    · intro _ _ _ _ _ _ _ _ _ _ h
      cases h
    · intro _ _ _ _ _ _ _ _ _ _ h
      cases h

/-- A call for a free name comes to the write. -/
theorem perform_sampleBegin {s : Store} {now : ℤ} (writes : Bool) (hnow : 0 < now)
    (hfree : refuseReservation s none
      (newPending sampleCaller 1 now samplePath (List.replicate 32 1)) sampleCaller now = .ok ()) :
    (perform samplePlatform s (sampleBegin now writes)).2 =
      let saved := persistPersonal samplePlatform (sampleWorld writes)
        (s.withReservation (newPending sampleCaller 1 now samplePath (List.replicate 32 1)))
      if saved.1 then saved.2 else s.withoutReservation saved.2 samplePath := by
  have hcaller : ¬ (sampleCaller.ownerSid = "" ∨ sampleCaller.sessionId = 0 ∨
      sampleCaller.clientPid = 0 ∨ (1 : ℕ) = 0 ∨ now ≤ 0 ∨
        validCreationPath samplePlatform.std samplePath = false) := by
    simp [sampleCaller, validCreationPath, samplePlatform, hnow]
  have hvacant : (withCallerImpersonation (sampleWorld writes) do
      let normalized ← (sampleWorld writes).normalizePersonalCreationPath samplePath
      refuseIf (validCreationPath samplePlatform.std normalized = false) .validation
      let exists_ ← (sampleWorld writes).personalCreationTargetExists normalized
      refuseIf (exists_ = true) .validation
      pure normalized) = .ok samplePath := rfl
  simp only [perform, sampleBegin, beginPersonalRegistrationAsCaller, if_neg hcaller, hvacant,
    reservePersonalRegistration, hfree, personalKey_samplePath]
  split <;> rfl

theorem sampleRegistry_toVec :
    samplePlatform.registry.toVec sampleReserved.contents = some [0] := by
  simp [samplePlatform, sampleRegistry]

theorem sampleReserved_file :
    (perform samplePlatform (Store.empty .absent true) (sampleBegin 1 true)).2 = sampleReserved := by
  have hfree : refuseReservation (Store.empty .absent true) none
      (newPending sampleCaller 1 1 samplePath (List.replicate 32 1)) sampleCaller 1 = .ok () := by
    simp [refuseReservation, Store.empty, values, refuseIf, bind, Except.bind]
  rw [perform_sampleBegin true (by decide) hfree]
  have hbytes : samplePlatform.registry.toVec ((Store.empty .absent true).withReservation
      (newPending sampleCaller 1 1 samplePath (List.replicate 32 1))).contents = some [0] :=
    sampleRegistry_toVec
  simp only [persistPersonal, hbytes]
  rfl

/-- A reservation that cannot be saved takes an expired one from the memory, but not from the file. -/
theorem failed_reservation_forgets :
    ¬ Mirrors samplePlatform (run (step samplePlatform) (Service.start (Store.empty .absent true) 0)
      [sampleBegin 1 true, sampleBegin 700 false]).store := by
  have hlookup : ∀ k, sampleReserved.pending.lookup k =
      if k = samplePath then some samplePending
      else if k = personalKeyAlias samplePath then none else none := by
    intro k
    have h := withReservation_pending (Store.empty .absent true) samplePending k
    have hpath : samplePending.containerPath = samplePath := rfl
    rw [hpath, personalKey_samplePath] at h
    exact h
  have hvalues : ∀ held ∈ values sampleReserved.pending, held = samplePending := by
    intro held hheld
    obtain ⟨k, hk⟩ := mem_values.mp hheld
    rw [hlookup] at hk
    by_cases hkey : k = samplePath
    · rw [if_pos hkey, Option.some.injEq] at hk
      exact hk.symm
    · simp [hkey] at hk
  have hfree : refuseReservation sampleReserved none
      (newPending sampleCaller 1 700 samplePath (List.replicate 32 1)) sampleCaller 700 = .ok () := by
    have hexpired : liveAt 700 samplePending = false := by decide
    have hrecoveries : ∀ k, k ∉ sampleReserved.recoveries := fun k => AList.notMem_empty k
    have hpersonal : ∀ k, k ∉ sampleReserved.personal := by
      intro k hk
      obtain ⟨record, hrecord⟩ := mem_iff_lookup.mp hk
      have hnone := (withReservation_personal (Store.empty .absent true) samplePending).2 k record hrecord
      simp [Store.empty] at hnone
    have hpending : ∀ k, (sampleReserved.pending.lookup k).any (liveAt 700) = false := by
      intro k
      rw [hlookup]
      by_cases hkey : k = samplePath
      · simp [hkey, hexpired]
      · simp [hkey]
    have hcalls : ∀ held ∈ values sampleReserved.pending, liveAt 700 held = false := by
      intro held hheld
      rw [hvalues held hheld]
      exact hexpired
    simp only [refuseReservation, bind_ok, refuseIf_ok]
    refine ⟨(), by simp, (), by simp [hrecoveries], (), by simp [hpersonal], (), by simp [hpending],
      ?_⟩
    simp only [List.any_eq_true, not_exists, not_and]
    intro held hheld
    simp [hcalls held hheld]
  have hstate : (run (step samplePlatform) (Service.start (Store.empty .absent true) 0)
      [sampleBegin 1 true, sampleBegin 700 false]).store =
        (perform samplePlatform sampleReserved (sampleBegin 700 false)).2 := by
    rw [← sampleReserved_file]
    rfl
  rw [hstate, perform_sampleBegin false (by decide) hfree]
  have hfailed : persistPersonal samplePlatform (sampleWorld false) (sampleReserved.withReservation
      (newPending sampleCaller 1 700 samplePath (List.replicate 32 1))) =
        (false, sampleReserved.withReservation
          (newPending sampleCaller 1 700 samplePath (List.replicate 32 1))) := by
    unfold persistPersonal
    cases samplePlatform.registry.toVec _ <;> rfl
  simp only [hfailed, Bool.false_eq_true, if_false]
  have hgone : ∀ k, (sampleReserved.withoutReservation (sampleReserved.withReservation
      (newPending sampleCaller 1 700 samplePath (List.replicate 32 1))) samplePath).pending.lookup k =
        none := by
    intro k
    have herase : (sampleReserved.withoutReservation (sampleReserved.withReservation
        (newPending sampleCaller 1 700 samplePath (List.replicate 32 1))) samplePath).pending =
          (sampleReserved.withReservation (newPending sampleCaller 1 700 samplePath
            (List.replicate 32 1))).pending.erase samplePath := rfl
    have hpath : (newPending sampleCaller 1 700 samplePath (List.replicate 32 1)).containerPath =
        samplePath := rfl
    rw [herase, lookup_erase_eq, withReservation_pending, hpath, personalKey_samplePath, hlookup]
    by_cases hkey : k = samplePath
    · rw [if_pos hkey]
    · simp [hkey]
  rintro (⟨hfile, _⟩ | ⟨saved, bytes, hfile, hbytes, hsame⟩)
  · exact absurd hfile (by simp [Store.withoutReservation, Store.withReservation, sampleReserved])
  · have hzero : [0] = bytes := by
      simpa [Store.withoutReservation, Store.withReservation, sampleReserved] using hfile
    have hread := samplePlatform.registry.fromSlice_toVec hbytes
    have hreserved : samplePlatform.registry.fromSlice [0] = some sampleReserved.contents :=
      samplePlatform.registry.fromSlice_toVec sampleRegistry_toVec
    rw [← hzero, hreserved, Option.some.injEq] at hread
    have hheld : samplePending ∈ values saved.pending := by
      have hvaluesEq : values sampleReserved.pending = values saved.pending :=
        congrArg PersonalVaultRegistry.pending hread
      rw [← hvaluesEq]
      exact mem_values.mpr ⟨samplePath, by rw [hlookup, if_pos rfl]⟩
    obtain ⟨k, hk⟩ := mem_values.mp hheld
    have hnone := hgone k
    rw [hsame.pending, hk] at hnone
    exact absurd hnone (by simp)

end Sample

end AccessStore
