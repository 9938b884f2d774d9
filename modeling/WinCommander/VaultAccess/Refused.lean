import WinCommander.VaultAccess.RegistryMoves
import WinCommander.Library.Run

/-!
# A registry file that startup refuses

The service keeps such a file for diagnosis and holds nothing of it.  Reserving a name is the one
call that does not ask whether the file was refused.
-/

namespace AccessStore

open Machine Outcome

section Refused

variable (platform : Platform)

/-- The files that startup refuses: unreadable, malformed, or with a recovery that is invalid or
occurs twice. -/
def Refused : RegistryFile → Prop
  | .absent => False
  | .unreadable => True
  | .present bytes => ∀ registry, parseRegistry platform bytes = some registry →
      validRecoveries platform registry.legacyRecoveries = false

/-- Replies that report a registration. -/
def Reply.registers : Reply → Bool
  | .reserved _ _ | .recorded _ _ | .completed _ _ | .consented => true
  | .state found => found ≠ .unregistered
  | _ => false

def storeStep (s : Store) (a : Action) : Store := (perform platform s a).2

/-- A call keeps the file and reports no registration. -/
structure Preserves (file : RegistryFile) (s : Store) (a : Action) : Prop where
  file : (storeStep platform s a).file = file
  reply : (perform platform s a).1.registers = false

/-- A call for a new container with nothing against it: valid arguments, a free name that no policy
claims, a nonce, and a file that can be written. -/
structure Admits (world : World) (active : Option PersistedPolicy) (path : String)
    (caller : PersonalCreationCaller) (operationId : ℕ) (now : ℤ) (nonce : List UInt8)
    (normalized : String) : Prop where
  identified : caller.ownerSid ≠ "" ∧ caller.sessionId ≠ 0 ∧ caller.clientPid ≠ 0
  operation : operationId ≠ 0 ∧ 0 < now
  wellFormed : validCreationPath platform.std path = true
  impersonates : world.impersonates = true
  resolved : world.normalizePersonalCreationPath path = .ok normalized
  valid : validCreationPath platform.std normalized = true
  free : world.personalCreationTargetExists normalized = .ok false
  unclaimed : (active.any fun active => activePolicyClaimsCreationPath active normalized) = false
  writes : world.writes = true ∧ (platform.registry.toVec
    ⟨[], [newPending caller operationId now normalized nonce], []⟩).isSome

def Admitted : Action → Prop
  | .begin world active path caller operationId now (some nonce) =>
    ∃ normalized, Admits platform world active path caller operationId now nonce normalized
  | _ => False

end Refused

section Closed

variable {platform : Platform} {file : RegistryFile}

theorem loadRegistry_refused (world : World) (now : ℤ) (recovered : String → Bool)
    (restores : LegacyRecoveryRecord → Bool) (h : Refused platform file) :
    loadRegistry platform world now recovered restores file = Store.empty file false := by
  cases file with
  | absent => exact absurd h id
  | unreadable => rfl
  | present bytes =>
    cases hparse : parseRegistry platform bytes with
    | none => simp only [loadRegistry, hparse]
    | some registry => simp only [loadRegistry, hparse, h registry hparse, if_true]

theorem eq_empty_of_lookup {α : Type} {m : AList fun _ : String => α}
    (h : ∀ k, m.lookup k = none) : m = ∅ := by
  apply AList.ext
  cases hentries : m.entries with
  | nil => rfl
  | cons entry rest =>
    have hmem : (⟨entry.1, entry.2⟩ : Sigma fun _ : String => α) ∈ m.entries := by
      rw [hentries]
      exact List.mem_cons_self
    have hsome := AList.mem_lookup_iff.mpr hmem
    rw [h] at hsome
    exact absurd hsome (by simp)

theorem eq_empty_of_same {s : Store} {healthy : Bool} (h : (Store.empty file healthy).Same s) :
    s = Store.empty file healthy := by
  obtain ⟨file', personal, pending, recoveries, healthy'⟩ := s
  obtain rfl : file' = file := h.file
  obtain rfl : healthy' = healthy := h.healthy
  obtain rfl : personal = ∅ := eq_empty_of_lookup fun k => h.personal k
  obtain rfl : pending = ∅ := eq_empty_of_lookup fun k => h.pending k
  obtain rfl : recoveries = ∅ := eq_empty_of_lookup fun k => h.recoveries k
  rfl

theorem contents_withReservation (pending : PendingPersonalVault) (healthy : Bool) :
    ((Store.empty file healthy).withReservation pending).contents = ⟨[], [pending], []⟩ := by
  have hcleared : ((∅ : Pendings).erase (personalKey pending.containerPath)).erase
      (personalKeyAlias (personalKey pending.containerPath)) = ∅ := by
    apply eq_empty_of_lookup
    intro k
    rw [lookup_erase_eq, lookup_erase_eq]
    simp
  simp [Store.contents, Store.withReservation, Store.empty, values, hcleared, AList.insert]

theorem refuseReservation_empty (active : Option PersistedPolicy) (pending : PendingPersonalVault)
    (caller : PersonalCreationCaller) (now : ℤ) (healthy : Bool) :
    refuseReservation (Store.empty file healthy) active pending caller now = .ok () ↔
      (active.any fun active => activePolicyClaimsCreationPath active pending.containerPath) =
        false := by
  simp [refuseReservation, Store.empty, values, bind_ok]

/-- A call for a new container that is let through is one with nothing against it. -/
theorem admits_of_begin {world : World} {active : Option PersistedPolicy} {path : String}
    {caller : PersonalCreationCaller} {operationId : ℕ} {now : ℤ} {nonce : Option (List UInt8)}
    {reservation : PersonalCreationReservation} {healthy : Bool}
    (h : (beginPersonalRegistrationAsCaller platform world (Store.empty file healthy) active path caller
      operationId now nonce).1 = .ok reservation) :
    ∃ nonce' normalized, nonce = some nonce' ∧
      Admits platform world active path caller operationId now nonce' normalized := by
  unfold beginPersonalRegistrationAsCaller at h
  by_cases hcaller : caller.ownerSid = "" ∨ caller.sessionId = 0 ∨ caller.clientPid = 0 ∨
      operationId = 0 ∨ now ≤ 0 ∨ validCreationPath platform.std path = false
  · simp [hcaller] at h
  · simp only [if_neg hcaller] at h
    simp only [not_or, Bool.not_eq_false, not_le] at hcaller
    obtain ⟨hsid, hsession, hpid, hoperation, hnow, hpath⟩ := hcaller
    split at h
    · exact absurd h (by simp)
    · next normalized hvacant =>
      unfold withCallerImpersonation at hvacant
      by_cases himpersonates : world.impersonates = true
      · simp only [himpersonates, if_true, bind_ok, refuseIf_ok, pure_ok, Bool.not_eq_false] at hvacant
        obtain ⟨found, hresolved, _, hvalid, exists_, hfree, _, hexists, rfl⟩ := hvacant
        have hexists_ : exists_ = false := by simpa using hexists
        subst hexists_
        unfold reservePersonalRegistration at h
        cases nonce with
        | none => exact absurd h (by simp)
        | some nonce =>
          dsimp only at h
          split at h
          · exact absurd h (by simp)
          · next hadmitted =>
            rcases persistPersonal_cases platform world ((Store.empty file healthy).withReservation
              (newPending caller operationId now found nonce)) with hfailed | ⟨bytes, hbytes, hsaved⟩
            · simp [hfailed] at h
            · have hwrites : world.writes = true := by
                by_contra hnot
                simp [persistPersonal, hbytes, hnot] at hsaved
              have hunclaimed := (refuseReservation_empty active
                (newPending caller operationId now found nonce) caller now healthy).mp hadmitted
              rw [contents_withReservation] at hbytes
              have hsome := Option.isSome_iff_exists.mpr ⟨bytes, hbytes⟩
              exact ⟨nonce, found, rfl, ⟨hsid, hsession, hpid⟩, ⟨hoperation, hnow⟩, hpath,
                himpersonates, hresolved, hvalid, hfree, hunclaimed, hwrites, hsome⟩
      · simp [himpersonates] at hvacant

/-- Such a call replaces the file. -/
theorem begin_admitted {world : World} {active : Option PersistedPolicy} {path normalized : String}
    {caller : PersonalCreationCaller} {operationId : ℕ} {now : ℤ} {nonce : List UInt8} {healthy : Bool}
    (h : Admits platform world active path caller operationId now nonce normalized) :
    ∃ bytes, platform.registry.toVec
        ⟨[], [newPending caller operationId now normalized nonce], []⟩ = some bytes ∧
      (storeStep platform (Store.empty file healthy)
        (.begin world active path caller operationId now (some nonce))).file = .present bytes := by
  obtain ⟨bytes, hbytes⟩ := Option.isSome_iff_exists.mp h.writes.2
  refine ⟨bytes, hbytes, ?_⟩
  have hcaller : ¬ (caller.ownerSid = "" ∨ caller.sessionId = 0 ∨ caller.clientPid = 0 ∨
      operationId = 0 ∨ now ≤ 0 ∨ validCreationPath platform.std path = false) := by
    simp only [not_or, not_le, Bool.not_eq_false]
    exact ⟨h.identified.1, h.identified.2.1, h.identified.2.2, h.operation.1, h.operation.2,
      h.wellFormed⟩
  have hvacant : (withCallerImpersonation world do
      let normalized ← world.normalizePersonalCreationPath path
      refuseIf (validCreationPath platform.std normalized = false) .validation
      let exists_ ← world.personalCreationTargetExists normalized
      refuseIf (exists_ = true) .validation
      pure normalized) = .ok normalized := by
    simp only [withCallerImpersonation, h.impersonates, if_true, bind_ok, refuseIf_ok, pure_ok]
    exact ⟨normalized, h.resolved, (), by simp [h.valid], false, h.free, (), by simp, rfl⟩
  have hfree : refuseReservation (Store.empty file healthy) active
      (newPending caller operationId now normalized nonce) caller now = .ok () :=
    (refuseReservation_empty active (newPending caller operationId now normalized nonce) caller now
      healthy).mpr h.unclaimed
  have hcontents : platform.registry.toVec ((Store.empty file healthy).withReservation
      (newPending caller operationId now normalized nonce)).contents = some bytes := by
    rw [contents_withReservation, hbytes]
  simp only [storeStep, perform, beginPersonalRegistrationAsCaller, if_neg hcaller, hvacant,
    reservePersonalRegistration, hfree, persistPersonal, hcontents, h.writes.1, if_true]

/-- A call on a store that holds nothing, unless it is for a new container. -/
theorem move_closed {a : Action} {reply : Reply} {s' : Store}
    (hmove : Move platform (Store.empty file false) a reply s')
    (ha : ∀ world active path caller operationId now nonce,
      a ≠ .begin world active path caller operationId now nonce) :
    reply.quiet = true ∧ s' = Store.empty file false := by
  cases hmove with
  | same hquiet hsame => exact ⟨hquiet, eq_empty_of_same hsame⟩
  | reserved => exact absurd rfl (ha _ _ _ _ _ _ _)
  | unreserved => exact absurd rfl (ha _ _ _ _ _ _ _)
  | recorded hlookup => exact absurd hlookup (by simp [Store.empty])
  | completed hlookup => exact absurd hlookup (by simp [Store.empty])
  | cancelled hlookup => exact absurd hlookup (by simp [Store.empty])
  | consented hhealthy => exact absurd hhealthy (by simp [Store.empty])

theorem registers_of_quiet {α : Type} {ok : α → Reply} {result : Except VaultError α}
    (hok : ∀ x, (ok x).quiet = false) (h : (Reply.of ok result).quiet = true) :
    (Reply.of ok result).registers = false := by
  cases result with
  | ok x =>
    have hx : (ok x).quiet = true := h
    rw [hok] at hx
    exact absurd hx (by simp)
  | error e => rfl

theorem personalRegistrationState_refused (world : World) (path callerSid : String) :
    ∃ e, personalRegistrationState world (Store.empty file false) path callerSid = .error e := by
  cases hnormalized : world.normalizePersonalCreationPath path with
  | error e =>
    exact ⟨e, by simp [personalRegistrationState, personalRecordForPath, hnormalized, bind, Except.bind]⟩
  | ok normalized =>
    exact ⟨.persistence, by simp [personalRegistrationState, personalRecordForPath, hnormalized, bind,
      Except.bind, refuseIf, Store.empty]⟩

/-- A call for a new container with something against it. -/
theorem begin_refused {world : World} {active : Option PersistedPolicy} {path : String}
    {caller : PersonalCreationCaller} {operationId : ℕ} {now : ℤ} {nonce : Option (List UInt8)}
    (h : ¬ Admitted platform (.begin world active path caller operationId now nonce)) :
    (perform platform (Store.empty file false)
        (.begin world active path caller operationId now nonce)).2 = Store.empty file false ∧
      (perform platform (Store.empty file false)
        (.begin world active path caller operationId now nonce)).1.registers = false := by
  have hreply : ∃ e, (perform platform (Store.empty file false)
      (.begin world active path caller operationId now nonce)).1 = .refused e := by
    simp only [perform]
    cases hresult : (beginPersonalRegistrationAsCaller platform world (Store.empty file false) active
        path caller operationId now nonce).1 with
    | ok reservation =>
      obtain ⟨nonce', normalized, rfl, hadmits⟩ := admits_of_begin hresult
      exact absurd ⟨normalized, hadmits⟩ h
    | error e => exact ⟨e, rfl⟩
  obtain ⟨e, he⟩ := hreply
  refine ⟨?_, by rw [he]; rfl⟩
  have hmove := @begin_move platform world (Store.empty file false) active path caller
    operationId now nonce
  generalize perform platform (Store.empty file false)
    (.begin world active path caller operationId now nonce) = result at hmove he
  obtain ⟨reply, s'⟩ := result
  dsimp only at hmove he ⊢
  cases hmove with
  | same hquiet hsame => exact eq_empty_of_same hsame
  | reserved => exact absurd he (by simp)
  | unreserved =>
    apply eq_empty_of_same
    apply Store.same_withoutReservation
    exact fun k _ => by simp [Store.empty]

/-- Every call but an admitted one leaves a store that holds nothing as it is. -/
theorem step_refused {a : Action} (h : ¬ Admitted platform a) :
    storeStep platform (Store.empty file false) a = Store.empty file false ∧
      (perform platform (Store.empty file false) a).1.registers = false := by
  have hvacant : (Store.empty file false).Vacant := fun k pending hk => absurd hk (by simp [Store.empty])
  have hclosed := fun ha => move_closed (perform_move platform hvacant a) ha
  cases a with
  | begin world active path caller operationId now nonce => exact begin_refused h
  | record world reservation brokerPath now =>
    have hmoved := hclosed (fun _ _ _ _ _ _ _ => by simp)
    exact ⟨hmoved.2, registers_of_quiet (fun _ => rfl) hmoved.1⟩
  | complete world reservation now =>
    have hmoved := hclosed (fun _ _ _ _ _ _ _ => by simp)
    have hquiet : (Reply.of (.completed reservation) (completePersonalRegistrationAsCaller platform world
      (Store.empty file false) reservation now).1).quiet = true := hmoved.1
    exact ⟨hmoved.2, registers_of_quiet (fun _ => rfl) hquiet⟩
  | cancel world reservation =>
    have hmoved := hclosed (fun _ _ _ _ _ _ _ => by simp)
    refine ⟨hmoved.2, ?_⟩
    simp only [perform]
    split <;> rfl
  | state world path callerSid =>
    obtain ⟨e, he⟩ := @personalRegistrationState_refused file world path callerSid
    refine ⟨rfl, ?_⟩
    simp only [perform, he]
    rfl
  | optIn path identity ownerSid =>
    refine ⟨rfl, ?_⟩
    simp only [perform]
    cases personalSyncthingOptIn (Store.empty file false) path identity ownerSid <;> rfl
  | consent world path identity ownerSid optIn =>
    have hmoved := hclosed (fun _ _ _ _ _ _ _ => by simp)
    have hquiet : (Reply.of (fun _ => .consented) (setPersonalSyncthingOptIn platform world
      (Store.empty file false) path identity ownerSid optIn).1).quiet = true := hmoved.1
    exact ⟨hmoved.2, registers_of_quiet (fun _ => rfl) hquiet⟩

/-- An admitted call replaces a refused file. -/
theorem admitted_replaces {a : Action} (hrefused : Refused platform file) (h : Admitted platform a) :
    (storeStep platform (Store.empty file false) a).file ≠ file := by
  cases a with
  | begin world active path caller operationId now nonce =>
    cases nonce with
    | none => exact absurd h id
    | some nonce =>
      obtain ⟨normalized, hadmits⟩ := h
      obtain ⟨bytes, hbytes, hfile⟩ := @begin_admitted platform file _ _ _ _ _ _ _ _ false hadmits
      rw [hfile]
      intro hsame
      rw [← hsame] at hrefused
      have hparse : parseRegistry platform bytes =
          some ⟨[], [newPending caller operationId now normalized nonce], []⟩ := by
        simp only [parseRegistry, platform.registry.fromSlice_toVec hbytes]
      have hinvalid := hrefused _ hparse
      exact absurd hinvalid (by simp [validRecoveries])
  | _ => exact absurd h id

/-- After startup has refused the registry file, a run of calls keeps it and reports no registration
exactly when none of the calls is admitted for a new container. -/
theorem refused_preserved_iff (platform : Platform) (world : World) (now : ℤ)
    (recovered : String → Bool) (restores : LegacyRecoveryRecord → Bool) {file : RegistryFile}
    (hrefused : Refused platform file) (acts : List Action) :
    Throughout (storeStep platform) (Preserves platform file)
        (loadRegistry platform world now recovered restores file) acts ↔
      ∀ a ∈ acts, ¬ Admitted platform a := by
  rw [loadRegistry_refused world now recovered restores hrefused]
  induction acts with
  | nil => simp [Throughout]
  | cons a acts ih =>
    rw [List.forall_mem_cons]
    by_cases h : Admitted platform a
    · have hreplaced := admitted_replaces hrefused h
      constructor
      · intro hall
        exact absurd hall.1.file hreplaced
      · intro hall
        exact absurd h hall.1
    · have hstep := @step_refused platform file a h
      constructor
      · intro hall
        refine ⟨h, ih.mp ?_⟩
        have htail := hall.2
        rwa [hstep.1] at htail
      · intro hall
        refine ⟨⟨by rw [hstep.1]; rfl, hstep.2⟩, ?_⟩
        rw [hstep.1]
        exact ih.mpr hall.2

end Closed

section Sample

def malformedPlatform : Platform where
  std := ⟨fun _ => true, fun _ => true, fun _ => true, fun _ => false⟩
  registry := Codec.ofOne ⟨[], [samplePending], []⟩ [0]
  legacyRecords _ := none

theorem refused_malformed : Refused malformedPlatform (.present [9]) := by
  intro registry h
  simp [parseRegistry, malformedPlatform, Codec.ofOne] at h

theorem refused_preserved_sample :
    Throughout (storeStep malformedPlatform) (Preserves malformedPlatform (.present [9]))
      (loadRegistry malformedPlatform (sampleWorld true) 1 (fun _ => true) (fun _ => true)
        (.present [9]))
      [.complete (sampleWorld true) samplePending.reservation 1,
        .consent (sampleWorld true) samplePath "v:1:i:1" "S-1-5-21-1" (some true)] := by
  apply (refused_preserved_iff malformedPlatform (sampleWorld true) 1 (fun _ => true) (fun _ => true)
    refused_malformed _).mpr
  simp [Admitted]

theorem admits_sample : Admitted malformedPlatform (sampleBegin 1 true) := by
  refine ⟨samplePath, ⟨by decide, by decide, by decide⟩, ⟨by decide, by decide⟩, rfl, rfl, rfl, rfl,
    rfl, rfl, rfl, ?_⟩
  simp [malformedPlatform, samplePending]

/-- A new container is reserved over a malformed registry file, which is replaced. -/
theorem reservation_replaces_malformed :
    ¬ Throughout (storeStep malformedPlatform) (Preserves malformedPlatform (.present [9]))
      (loadRegistry malformedPlatform (sampleWorld true) 1 (fun _ => true) (fun _ => true)
        (.present [9])) [sampleBegin 1 true] := by
  rw [loadRegistry_refused _ _ _ _ refused_malformed]
  intro h
  exact admitted_replaces refused_malformed admits_sample h.1.file

end Sample

end AccessStore
