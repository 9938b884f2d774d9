import WinCommander.VaultAccess.Registry

/-!
# What a call does to the registry

Every call of the registry refuses, answers or undoes its change, which leaves the store as it was,
or writes the file.  The one exception is a reservation that could not be saved.
-/

namespace AccessStore

open Outcome

section Calls

inductive Action where
  | begin (world : World) (active : Option PersistedPolicy) (containerPath : String)
      (caller : PersonalCreationCaller) (operationId : ℕ) (now : ℤ) (nonce : Option (List UInt8))
  | record (world : World) (reservation : PersonalCreationReservation) (brokerPath : String) (now : ℤ)
  | complete (world : World) (reservation : PersonalCreationReservation) (now : ℤ)
  | cancel (world : World) (reservation : PersonalCreationReservation)
  | state (world : World) (containerPath callerSid : String)
  | optIn (containerPath containerIdentity ownerSid : String)
  | consent (world : World) (containerPath containerIdentity ownerSid : String) (optIn : Option Bool)

/-- The clock reading of a call. -/
def Action.now : Action → Option ℤ
  | .begin _ _ _ _ _ now _ => some now
  | .record _ _ _ now => some now
  | .complete _ _ now => some now
  | _ => none

inductive Reply where
  | reserved (now : ℤ) (reservation : PersonalCreationReservation)
  | recorded (reservation : PersonalCreationReservation) (identity : String)
  | completed (reservation : PersonalCreationReservation) (record : PersonalVaultRecord)
  | cancelled (reservation : PersonalCreationReservation)
  | consented
  | state (state : PersonalVaultRegistrationState)
  | optIn (optIn : Option Bool)
  | kept
  | refused (error : VaultError)

/-- The reply to a result. -/
def Reply.of {α : Type} (ok : α → Reply) : Except VaultError α → Reply
  | .ok a => ok a
  | .error e => .refused e

/-- Replies that promise nothing. -/
def Reply.quiet : Reply → Bool
  | .state _ | .optIn _ | .kept | .refused _ => true
  | _ => false

def perform (platform : Platform) (s : Store) : Action → Reply × Store
  | .begin world active path caller operationId now nonce =>
    let result := beginPersonalRegistrationAsCaller platform world s active path caller operationId now
      nonce
    (Reply.of (.reserved now) result.1, result.2)
  | .record world reservation brokerPath now =>
    let result := recordPersonalBrokerCompletionAsCaller platform world s reservation brokerPath now
    (Reply.of (.recorded reservation) result.1, result.2)
  | .complete world reservation now =>
    let result := completePersonalRegistrationAsCaller platform world s reservation now
    (Reply.of (.completed reservation) result.1, result.2)
  | .cancel world reservation =>
    let result := cancelPersonalRegistration platform world s reservation
    (if result.1 then .cancelled reservation else .kept, result.2)
  | .state world path callerSid => (Reply.of .state (personalRegistrationState world s path callerSid), s)
  | .optIn path identity ownerSid =>
    (Reply.of .optIn (personalSyncthingOptIn s path identity ownerSid), s)
  | .consent world path identity ownerSid optIn =>
    let result := setPersonalSyncthingOptIn platform world s path identity ownerSid optIn
    (Reply.of (fun _ => .consented) result.1, result.2)

end Calls

section Same

/-- Two stores with the same file and the same maps. -/
structure Store.Same (s s' : Store) : Prop where
  file : s'.file = s.file
  healthy : s'.healthy = s.healthy
  personal : ∀ k, s'.personal.lookup k = s.personal.lookup k
  pending : ∀ k, s'.pending.lookup k = s.pending.lookup k
  recoveries : ∀ k, s'.recoveries.lookup k = s.recoveries.lookup k

theorem Store.Same.refl (s : Store) : s.Same s := ⟨rfl, rfl, fun _ => rfl, fun _ => rfl, fun _ => rfl⟩

theorem Store.Same.trans {s t u : Store} (hst : s.Same t) (htu : t.Same u) : s.Same u where
  file := htu.file.trans hst.file
  healthy := htu.healthy.trans hst.healthy
  personal k := (htu.personal k).trans (hst.personal k)
  pending k := (htu.pending k).trans (hst.pending k)
  recoveries k := (htu.recoveries k).trans (hst.recoveries k)

variable {α : Type} {m : AList fun _ : String => α} {k : String} {a b : α}

/-- A lookup in a map with one more value. -/
theorem lookup_insert_eq (m : AList fun _ : String => α) (k l : String) (a : α) :
    (m.insert k a).lookup l = if l = k then some a else m.lookup l := by
  by_cases h : l = k
  · subst h
    simp
  · simp [h]

theorem lookup_erase_eq (m : AList fun _ : String => α) (k l : String) :
    (m.erase k).lookup l = if l = k then none else m.lookup l := by
  by_cases h : l = k
  · subst h
    simp
  · rw [if_neg h, AList.lookup_erase_ne h]

/-- A value that is put back. -/
theorem lookup_insert_of_lookup (h : m.lookup k = some a) (l : String) :
    (m.insert k a).lookup l = m.lookup l := by
  rw [lookup_insert_eq]
  by_cases hl : l = k
  · rw [if_pos hl, hl, h]
  · rw [if_neg hl]

theorem lookup_insert_insert (h : m.lookup k = some a) (b : α) (l : String) :
    ((m.insert k b).insert k a).lookup l = m.lookup l := by
  rw [lookup_insert_eq, lookup_insert_eq]
  by_cases hl : l = k
  · rw [if_pos hl, hl, h]
  · rw [if_neg hl, if_neg hl]

theorem lookup_erase_insert (h : m.lookup k = some a) (l : String) :
    ((m.erase k).insert k a).lookup l = m.lookup l := by
  rw [lookup_insert_eq, lookup_erase_eq]
  by_cases hl : l = k
  · rw [if_pos hl, hl, h]
  · rw [if_neg hl, if_neg hl]

theorem lookup_insert_erase (h : m.lookup k = none) (l : String) :
    ((m.insert k a).erase k).lookup l = m.lookup l := by
  rw [lookup_erase_eq, lookup_insert_eq]
  by_cases hl : l = k
  · rw [if_pos hl, hl, h]
  · rw [if_neg hl, if_neg hl]

theorem mem_iff_lookup : k ∈ m ↔ ∃ a, m.lookup k = some a := by
  rw [← AList.lookup_isSome, Option.isSome_iff_exists]

theorem mem_values : a ∈ values m ↔ ∃ k, m.lookup k = some a := by
  simp only [values, List.mem_map, Sigma.exists]
  constructor
  · rintro ⟨k, a', hmem, rfl⟩
    exact ⟨k, AList.mem_lookup_iff.mpr hmem⟩
  · rintro ⟨k, hk⟩
    exact ⟨k, a, AList.mem_lookup_iff.mp hk, rfl⟩

end Same

section Reserve

variable {s : Store} {pending : PendingPersonalVault}

theorem withReservation_pending (s : Store) (pending : PendingPersonalVault) (k : String) :
    (s.withReservation pending).pending.lookup k =
      if k = personalKey pending.containerPath then some pending
      else if k = personalKeyAlias (personalKey pending.containerPath) then none
      else s.pending.lookup k := by
  have h : (s.withReservation pending).pending = ((s.pending.erase
      (personalKey pending.containerPath)).erase
        (personalKeyAlias (personalKey pending.containerPath))).insert
          (personalKey pending.containerPath) pending := rfl
  rw [h, lookup_insert_eq, lookup_erase_eq, lookup_erase_eq]
  by_cases hk : k = personalKey pending.containerPath
  · rw [if_pos hk, if_pos hk]
  · rw [if_neg hk, if_neg hk, if_neg hk]

/-- A reservation takes at most one record away, and none stands under its key. -/
theorem withReservation_personal (s : Store) (pending : PendingPersonalVault) :
    (s.withReservation pending).personal.lookup (personalKey pending.containerPath) = none ∧
      ∀ k record, (s.withReservation pending).personal.lookup k = some record →
        s.personal.lookup k = some record := by
  cases hfound : [personalKey pending.containerPath, personalKeyAlias
      (personalKey pending.containerPath)].find? (fun candidate => candidate ∈ s.personal) with
  | none =>
    have hsame : (s.withReservation pending).personal = s.personal := by
      simp only [Store.withReservation, hfound]
    rw [hsame]
    refine ⟨?_, fun _ _ h => h⟩
    have hnone := List.find?_eq_none.mp hfound _ List.mem_cons_self
    simpa [AList.lookup_eq_none] using hnone
  | some candidate =>
    have herased : (s.withReservation pending).personal = s.personal.erase candidate := by
      simp only [Store.withReservation, hfound]
    rw [herased]
    constructor
    · rw [lookup_erase_eq]
      by_cases hkey : personalKey pending.containerPath = candidate
      · rw [if_pos hkey]
      · rw [if_neg hkey]
        by_contra hheld
        have hmem : personalKey pending.containerPath ∈ s.personal := by
          rwa [AList.lookup_eq_none, not_not] at hheld
        simp only [List.find?_cons, hmem, decide_true, Option.some.injEq] at hfound
        exact hkey hfound
    · intro k record hk
      rw [lookup_erase_eq] at hk
      by_cases hkc : k = candidate
      · simp [hkc] at hk
      · rwa [if_neg hkc] at hk

/-- The undone reservation leaves what was there, unless it replaced another one. -/
theorem Store.same_withoutReservation
    (hpending : ∀ k, heldUnder (personalKey pending.containerPath) k → s.pending.lookup k = none) :
    s.Same (s.withoutReservation (s.withReservation pending) (personalKey pending.containerPath)) := by
  refine ⟨rfl, rfl, ?_, ?_, fun _ => rfl⟩
  · intro k
    cases hfound : [personalKey pending.containerPath, personalKeyAlias
        (personalKey pending.containerPath)].find? (fun candidate => candidate ∈ s.personal) with
    | none => simp only [Store.withoutReservation, Store.withReservation, hfound]
    | some candidate =>
      have hmem : candidate ∈ s.personal := by
        simpa using List.find?_some hfound
      obtain ⟨record, hrecord⟩ := mem_iff_lookup.mp hmem
      simp only [Store.withoutReservation, Store.withReservation, hfound, hrecord]
      exact lookup_erase_insert hrecord k
  · intro k
    have h : (s.withoutReservation (s.withReservation pending)
        (personalKey pending.containerPath)).pending =
          (s.withReservation pending).pending.erase (personalKey pending.containerPath) := rfl
    rw [h, lookup_erase_eq, withReservation_pending]
    by_cases hkey : k = personalKey pending.containerPath
    · rw [if_pos hkey, hpending k (Or.inl hkey)]
    · rw [if_neg hkey, if_neg hkey]
      by_cases hother : k = personalKeyAlias (personalKey pending.containerPath)
      · rw [if_pos hother, hpending k (Or.inr hother)]
      · rw [if_neg hother]

/-- What stands under either spelling of a free path has expired. -/
theorem refuseReservation_free {s : Store} {active : Option PersistedPolicy}
    {pending held : PendingPersonalVault} {caller : PersonalCreationCaller} {now : ℤ} {key : String}
    (hfree : refuseReservation s active pending caller now = .ok ())
    (hkey : heldUnder (personalKey pending.containerPath) key)
    (hheld : s.pending.lookup key = some held) : liveAt now held = false := by
  simp only [refuseReservation, bind_ok, refuseIf_ok] at hfree
  obtain ⟨_, _, _, _, _, _, _, hclash, _⟩ := hfree
  by_contra hlive
  rw [Bool.not_eq_false] at hlive
  apply hclash
  rw [List.any_eq_true]
  refine ⟨key, ?_, by simp [hheld, hlive]⟩
  rcases hkey with h | h
  · simp [h]
  · simp [h]

end Reserve

section Moves

variable (platform : Platform)

/-- What a call may do. -/
inductive Move (s : Store) : Action → Reply → Store → Prop where
  | same {a : Action} {reply : Reply} {s' : Store} (hquiet : reply.quiet = true) (h : s.Same s') :
      Move s a reply s'
  | reserved {world : World} {active : Option PersistedPolicy} {path normalized : String}
      {caller : PersonalCreationCaller} {operationId : ℕ} {now : ℤ} {nonce bytes : List UInt8}
      (hnormalized : world.normalizePersonalCreationPath path = .ok normalized)
      (hfree : refuseReservation s active (newPending caller operationId now normalized nonce) caller
        now = .ok ())
      (hbytes : platform.registry.toVec
        (s.withReservation (newPending caller operationId now normalized nonce)).contents = some bytes) :
      Move s (.begin world active path caller operationId now (some nonce))
        (.reserved now (newPending caller operationId now normalized nonce).reservation)
        { s.withReservation (newPending caller operationId now normalized nonce) with
          file := .present bytes }
  | unreserved {world : World} {active : Option PersistedPolicy} {path normalized : String}
      {caller : PersonalCreationCaller} {operationId : ℕ} {now : ℤ} {nonce : List UInt8}
      (hnormalized : world.normalizePersonalCreationPath path = .ok normalized)
      (hfree : refuseReservation s active (newPending caller operationId now normalized nonce) caller
        now = .ok ())
      (hfailed : (persistPersonal platform world
        (s.withReservation (newPending caller operationId now normalized nonce))).1 = false) :
      Move s (.begin world active path caller operationId now (some nonce)) (.refused .persistence)
        (s.withoutReservation (s.withReservation (newPending caller operationId now normalized nonce))
          (personalKey normalized))
  | recorded {world : World} {reservation : PersonalCreationReservation} {brokerPath : String}
      {pending : PendingPersonalVault} {identity : String} {now : ℤ} {bytes : List UInt8}
      (hlookup : s.pending.lookup (personalKey reservation.normalizedPath) = some pending)
      (hmatch : reservationMatches pending reservation now = true)
      (hphase : pending.lifecycle = .reserved)
      (hbytes : platform.registry.toVec (s.setPending (personalKey reservation.normalizedPath)
        { pending with lifecycle := .brokerCreated identity }).contents = some bytes) :
      Move s (.record world reservation brokerPath now) (.recorded reservation identity)
        { s.setPending (personalKey reservation.normalizedPath)
            { pending with lifecycle := .brokerCreated identity } with file := .present bytes }
  | completed {world : World} {reservation : PersonalCreationReservation}
      {pending : PendingPersonalVault} {identity : String} {now : ℤ} {bytes : List UInt8}
      (hlookup : s.pending.lookup (personalKey reservation.normalizedPath) = some pending)
      (hmatch : reservationMatches pending reservation now = true)
      (hphase : pending.lifecycle = .brokerCreated identity)
      (hbytes : platform.registry.toVec (s.withRecord (personalKey reservation.normalizedPath)
        (newRecord pending identity)).contents = some bytes) :
      Move s (.complete world reservation now) (.completed reservation (newRecord pending identity))
        { s.withRecord (personalKey reservation.normalizedPath) (newRecord pending identity) with
          file := .present bytes }
  | cancelled {world : World} {reservation : PersonalCreationReservation}
      {pending : PendingPersonalVault} {bytes : List UInt8}
      (hlookup : s.pending.lookup (personalKey reservation.normalizedPath) = some pending)
      (hmatch : reservationMatchesWithoutTime pending reservation = true)
      (hbytes : platform.registry.toVec
        (s.withoutPending (personalKey reservation.normalizedPath)).contents = some bytes) :
      Move s (.cancel world reservation) (.cancelled reservation)
        { s.withoutPending (personalKey reservation.normalizedPath) with file := .present bytes }
  | consented {world : World} {path identity ownerSid key : String} {record : PersonalVaultRecord}
      {optIn : Option Bool} {bytes : List UInt8}
      (hhealthy : s.healthy = true) (hlookup : s.personal.lookup key = some record)
      (hbytes : platform.registry.toVec { s with
        personal := s.personal.insert key { record with syncthingOptIn := optIn } }.contents =
          some bytes) :
      Move s (.consent world path identity ownerSid optIn) .consented
        { s with
          file := .present bytes
          personal := s.personal.insert key { record with syncthingOptIn := optIn } }

variable {platform}

/-- The file holds the contents when they were written, and is kept otherwise. -/
theorem persistPersonal_cases (platform : Platform) (world : World) (s : Store) :
    persistPersonal platform world s = (false, s) ∨
      ∃ bytes, platform.registry.toVec s.contents = some bytes ∧
        persistPersonal platform world s = (true, { s with file := .present bytes }) := by
  unfold persistPersonal
  cases hbytes : platform.registry.toVec s.contents with
  | none => exact Or.inl rfl
  | some bytes =>
    by_cases hwrites : world.writes = true
    · exact Or.inr ⟨bytes, rfl, by simp [hwrites]⟩
    · exact Or.inl (by simp [hwrites])

theorem persistPersonal_failed {world : World} {s : Store}
    (h : (persistPersonal platform world s).1 = false) :
    world.writes = false ∨ platform.registry.toVec s.contents = none := by
  unfold persistPersonal at h
  cases hbytes : platform.registry.toVec s.contents with
  | none => exact Or.inr rfl
  | some bytes =>
    cases hwrites : world.writes with
    | false => exact Or.inl rfl
    | true => simp [hbytes, hwrites] at h

/-- No record stands where a reservation does. -/
def Store.Vacant (s : Store) : Prop :=
  ∀ k pending, s.pending.lookup k = some pending → s.personal.lookup k = none

theorem move_refused {a : Action} {s : Store} (e : VaultError) : Move platform s a (.refused e) s :=
  .same rfl (Store.Same.refl s)

theorem begin_move (world : World) (s : Store) (active : Option PersistedPolicy) (path : String)
    (caller : PersonalCreationCaller) (operationId : ℕ) (now : ℤ) (nonce : Option (List UInt8)) :
    Move platform s (.begin world active path caller operationId now nonce)
      (perform platform s (.begin world active path caller operationId now nonce)).1
      (perform platform s (.begin world active path caller operationId now nonce)).2 := by
  unfold perform beginPersonalRegistrationAsCaller
  dsimp only
  split
  · exact move_refused _
  · split
    · exact move_refused _
    · next normalized hvacant =>
      have hnormalized : world.normalizePersonalCreationPath path = .ok normalized := by
        unfold withCallerImpersonation at hvacant
        split at hvacant
        · simp only [bind_ok, refuseIf_ok, pure_ok] at hvacant
          obtain ⟨found, hnormalized, _, _, _, _, _, _, rfl⟩ := hvacant
          exact hnormalized
        · exact absurd hvacant (by simp)
      unfold reservePersonalRegistration
      cases nonce with
      | none => exact move_refused _
      | some nonce =>
        dsimp only
        cases hfree : refuseReservation s active (newPending caller operationId now normalized nonce)
            caller now with
        | error e => exact move_refused e
        | ok u =>
          dsimp only
          rcases persistPersonal_cases platform world
            (s.withReservation (newPending caller operationId now normalized nonce)) with
            hfailed | ⟨bytes, hbytes, hsaved⟩
          · have hflag := congrArg Prod.fst hfailed
            rw [hfailed]
            exact .unreserved hnormalized hfree hflag
          · rw [hsaved]
            exact .reserved hnormalized hfree hbytes

theorem record_move (world : World) (s : Store) (reservation : PersonalCreationReservation)
    (brokerPath : String) (now : ℤ) :
    Move platform s (.record world reservation brokerPath now) (perform platform s (.record world reservation brokerPath now)).1
      (perform platform s (.record world reservation brokerPath now)).2 := by
  unfold perform recordPersonalBrokerCompletionAsCaller
  dsimp only
  split
  · exact move_refused _
  · next identity _ =>
    unfold recordPersonalBrokerCompletionWithIdentity
    dsimp only
    cases hlookup : s.pending.lookup (personalKey reservation.normalizedPath) with
    | none => exact move_refused _
    | some pending =>
      dsimp only
      by_cases hbad : reservationMatches pending reservation now = false ∨ pending.lifecycle ≠ .reserved
      · rw [if_pos hbad]
        exact move_refused _
      · rw [if_neg hbad]
        rw [not_or, Bool.not_eq_false, not_not] at hbad
        rcases persistPersonal_cases platform world (s.setPending (personalKey reservation.normalizedPath)
          { pending with lifecycle := .brokerCreated identity }) with hfailed | ⟨bytes, hbytes, hsaved⟩
        · rw [hfailed]
          have hback : { pending with lifecycle := .reserved } = pending := by
            cases pending
            simpa using hbad.2.symm
          rw [hback]
          exact .same rfl ⟨rfl, rfl, fun _ => rfl, lookup_insert_insert hlookup _, fun _ => rfl⟩
        · rw [hsaved]
          exact .recorded hlookup hbad.1 hbad.2 hbytes

/-- A reservation that comes back in place of the record that was to replace it. -/
theorem Store.same_withoutRecord {s : Store} {key : String} {pending : PendingPersonalVault}
    (hpending : s.pending.lookup key = some pending) (hvacant : s.personal.lookup key = none)
    (record : PersonalVaultRecord) : s.Same ((s.withRecord key record).withoutRecord key pending) := by
  constructor
  · rfl
  · rfl
  · intro k
    have h : ((s.personal.insert key record).erase key).lookup k = s.personal.lookup k :=
      lookup_insert_erase hvacant k
    exact h
  · intro k
    have h : ((s.pending.erase key).insert key pending).lookup k = s.pending.lookup k :=
      lookup_erase_insert hpending k
    exact h
  · exact fun _ => rfl

theorem complete_move (world : World) {s : Store} (hvacant : s.Vacant)
    (reservation : PersonalCreationReservation) (now : ℤ) :
    Move platform s (.complete world reservation now) (perform platform s (.complete world reservation now)).1
      (perform platform s (.complete world reservation now)).2 := by
  have hrefused : ∀ e s', completePersonalRegistrationAsCaller platform world s reservation now =
      (.error e, s') → s.Same s' →
        Move platform s (.complete world reservation now) (perform platform s (.complete world reservation now)).1
          (perform platform s (.complete world reservation now)).2 := by
    intro e s' h hsame
    simp only [perform, h]
    exact .same rfl hsame
  cases hlookup : s.pending.lookup (personalKey reservation.normalizedPath) with
  | none =>
    have hresult : completePersonalRegistrationAsCaller platform world s reservation now =
        (.error .validation, s) := by
      simp only [completePersonalRegistrationAsCaller, hlookup]
    exact hrefused _ s hresult (Store.Same.refl s)
  | some pending =>
    cases hmatch : reservationMatches pending reservation now with
    | false =>
      have hresult : completePersonalRegistrationAsCaller platform world s reservation now =
          (.error .validation, s) := by
        simp only [completePersonalRegistrationAsCaller, hlookup, hmatch, if_true]
      exact hrefused _ s hresult (Store.Same.refl s)
    | true =>
      cases hphase : pending.lifecycle with
      | reserved =>
        have hresult : completePersonalRegistrationAsCaller platform world s reservation now =
            (.error .validation, s) := by
          simp only [completePersonalRegistrationAsCaller, hlookup, hmatch, hphase, Bool.true_eq_false,
            if_false]
        exact hrefused _ s hresult (Store.Same.refl s)
      | brokerCreated identity =>
        cases hprotect : protectContainer platform world pending.containerPath identity with
        | error e =>
          have hresult : completePersonalRegistrationAsCaller platform world s reservation now =
              (.error e, s) := by
            simp only [completePersonalRegistrationAsCaller, hlookup, hmatch, hphase, hprotect,
              Bool.true_eq_false, if_false]
          exact hrefused _ s hresult (Store.Same.refl s)
        | ok u =>
          rcases persistPersonal_cases platform world
            (s.withRecord (personalKey reservation.normalizedPath) (newRecord pending identity)) with
            hfailed | ⟨bytes, hbytes, hsaved⟩
          · have hresult : completePersonalRegistrationAsCaller platform world s reservation now =
                (.error .persistence,
                  (s.withRecord (personalKey reservation.normalizedPath)
                    (newRecord pending identity)).withoutRecord
                      (personalKey reservation.normalizedPath) pending) := by
              simp only [completePersonalRegistrationAsCaller, hlookup, hmatch, hphase, hprotect, hfailed,
                Bool.true_eq_false, Bool.false_eq_true, if_false]
            exact hrefused _ _ hresult (Store.same_withoutRecord hlookup (hvacant _ _ hlookup) _)
          · have hresult : perform platform s (.complete world reservation now) =
                (.completed reservation (newRecord pending identity),
                  { s.withRecord (personalKey reservation.normalizedPath)
                      (newRecord pending identity) with file := .present bytes }) := by
              simp only [perform, completePersonalRegistrationAsCaller, hlookup, hmatch, hphase, hprotect,
                hsaved, Bool.true_eq_false, if_true, if_false, Reply.of]
            rw [hresult]
            exact .completed hlookup hmatch hphase hbytes

theorem cancel_move (world : World) (s : Store) (reservation : PersonalCreationReservation) :
    Move platform s (.cancel world reservation) (perform platform s (.cancel world reservation)).1
      (perform platform s (.cancel world reservation)).2 := by
  have hkept : ∀ s', cancelPersonalRegistration platform world s reservation = (false, s') →
      s.Same s' → Move platform s (.cancel world reservation) (perform platform s (.cancel world reservation)).1
        (perform platform s (.cancel world reservation)).2 := by
    intro s' h hsame
    simp only [perform, h]
    exact .same rfl hsame
  cases hlookup : s.pending.lookup (personalKey reservation.normalizedPath) with
  | none =>
    have hresult : cancelPersonalRegistration platform world s reservation = (false, s) := by
      simp only [cancelPersonalRegistration, hlookup]
    exact hkept s hresult (Store.Same.refl s)
  | some pending =>
    cases hmatch : reservationMatchesWithoutTime pending reservation with
    | false =>
      have hresult : cancelPersonalRegistration platform world s reservation = (false, s) := by
        simp only [cancelPersonalRegistration, hlookup, hmatch, if_true]
      exact hkept s hresult (Store.Same.refl s)
    | true =>
      rcases persistPersonal_cases platform world
        (s.withoutPending (personalKey reservation.normalizedPath)) with
        hfailed | ⟨bytes, hbytes, hsaved⟩
      · have hresult : cancelPersonalRegistration platform world s reservation = (false,
            (s.withoutPending (personalKey reservation.normalizedPath)).setPending
              (personalKey reservation.normalizedPath) pending) := by
          simp only [cancelPersonalRegistration, hlookup, hmatch, hfailed, Bool.true_eq_false,
            Bool.false_eq_true, if_false]
        exact hkept _ hresult ⟨rfl, rfl, fun _ => rfl, lookup_erase_insert hlookup, fun _ => rfl⟩
      · have hresult : perform platform s (.cancel world reservation) = (.cancelled reservation,
            { s.withoutPending (personalKey reservation.normalizedPath) with
              file := .present bytes }) := by
          simp only [perform, cancelPersonalRegistration, hlookup, hmatch, hsaved, Bool.true_eq_false,
            if_true, if_false]
        rw [hresult]
        exact .cancelled hlookup hmatch hbytes

theorem consent_move (world : World) (s : Store) (path identity ownerSid : String)
    (optIn : Option Bool) :
    Move platform s (.consent world path identity ownerSid optIn) (perform platform s (.consent world path identity ownerSid optIn)).1
      (perform platform s (.consent world path identity ownerSid optIn)).2 := by
  unfold perform setPersonalSyncthingOptIn
  dsimp only
  by_cases hhealthy : s.healthy = false
  · rw [if_pos hhealthy]
    exact move_refused _
  · rw [if_neg hhealthy]
    rw [Bool.not_eq_false] at hhealthy
    cases hfound : s.personal.entries.find? (fun entry => entry.2.containerPath = path) with
    | none => exact move_refused _
    | some entry =>
      dsimp only
      by_cases hbad : entry.2.containerIdentity ≠ identity ∨ entry.2.ownerSid ≠ ownerSid
      · rw [if_pos hbad]
        exact move_refused _
      · rw [if_neg hbad]
        have hlookup : s.personal.lookup entry.1 = some entry.2 :=
          AList.mem_lookup_iff.mpr (List.mem_of_find?_eq_some hfound)
        rcases persistPersonal_cases platform world { s with
          personal := s.personal.insert entry.1 { entry.2 with syncthingOptIn := optIn } } with
          hfailed | ⟨bytes, hbytes, hsaved⟩
        · rw [hfailed]
          exact .same rfl ⟨rfl, rfl, lookup_insert_insert hlookup _, fun _ => rfl, fun _ => rfl⟩
        · rw [hsaved]
          exact .consented hhealthy hlookup hbytes

theorem of_move_same {α : Type} {a : Action} {s : Store} {ok : α → Reply}
    (hok : ∀ x, (ok x).quiet = true) (result : Except VaultError α) :
    Move platform s a (Reply.of ok result) s := by
  cases result with
  | ok x => exact .same (hok x) (Store.Same.refl s)
  | error e => exact move_refused e

/-- Every call is a move. -/
theorem perform_move (platform : Platform) {s : Store} (hvacant : s.Vacant) (a : Action) :
    Move platform s a (perform platform s a).1 (perform platform s a).2 := by
  cases a with
  | begin world active path caller operationId now nonce =>
    exact begin_move world s active path caller operationId now nonce
  | record world reservation brokerPath now => exact record_move world s reservation brokerPath now
  | complete world reservation now => exact complete_move world hvacant reservation now
  | cancel world reservation => exact cancel_move world s reservation
  | state world path callerSid => exact of_move_same (fun _ => rfl) _
  | optIn path identity ownerSid => exact of_move_same (fun _ => rfl) _
  | consent world path identity ownerSid optIn => exact consent_move world s path identity ownerSid optIn

end Moves

section Sample

/-- A drive path is regular. -/
theorem regular_of_ne {c : Char} {cs : List Char} (h : c ≠ '\\') (hunc : c ≠ 'u') :
    Regular (String.ofList (c :: cs)) := by
  have hc : ¬ '\\' = c := fun heq => h heq.symm
  have hu : ¬ 'u' = c := fun heq => hunc heq.symm
  simp [Regular, personalKeyAlias, hc, hu]

def samplePath : String := String.ofList ['v']

theorem personalKey_samplePath : personalKey samplePath = samplePath := by
  simp only [personalKey, samplePath, String.toList_ofList]
  rfl

def sampleCaller : PersonalCreationCaller := ⟨"S-1-5-21-1", 1, 4, (0, 1)⟩

def samplePending : PendingPersonalVault :=
  newPending sampleCaller 1 1 samplePath (List.replicate 32 1)

/-- A file system with one free name, which may refuse to write. -/
def sampleWorld (writes : Bool) : World where
  normalizePersonalCreationPath _ := .ok samplePath
  normalize_regular := by
    intro path normalized h
    rw [Except.ok.injEq] at h
    rw [← h, personalKey_samplePath]
    exact regular_of_ne (by decide) (by decide)
  personalCreationTargetExists _ := .ok false
  personalCreationTargetIdentity _ := .ok "v:1:i:1"
  stableFileIdentity _ := .ok "v:1:i:1"
  impersonates := true
  snapshot := .ok ()
  applyContainerAndVerify := .ok ()
  verifyOneAcl := true
  writes := writes

def sampleBegin (now : ℤ) (writes : Bool) : Action :=
  .begin (sampleWorld writes) none samplePath sampleCaller 1 now (some (List.replicate 32 1))

end Sample

end AccessStore
