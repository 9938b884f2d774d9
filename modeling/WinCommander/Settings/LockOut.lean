import WinCommander.Settings.Personal

/-!
# Saves under locked secrets

While Windows withholds the key of an account, its preferences can be saved and its secrets cannot
be read.  What is stored of them is what a load with the key would find.
-/

namespace PersonalSettings

open Json Settings Outcome

section Split

theorem splitPath_splits {parts : Value × Value} (path : List String)
    (hobject : ∃ ms, parts.1 = .object ms) (h : (splitEntries parts.1.members "").isOk = true) :
    (∃ ms, (splitPath parts path).1 = .object ms) ∧
      (splitEntries (splitPath parts path).1.members "").isOk = true := by
  obtain ⟨ms, hms⟩ := hobject
  have htake := @splitEntries_takePath ms path (by rw [hms] at h; exact h)
  have hrest : ∃ ns, ((Value.object ms).takePath path).2 = .object ns := by
    rcases path with - | ⟨key, - | ⟨key', path⟩⟩
    · exact ⟨ms, rfl⟩
    · exact ⟨erase key ms, rfl⟩
    · rw [Value.takePath]
      · cases ms.lookup key with
        | none => exact ⟨ms, rfl⟩
        | some w => exact ⟨_, rfl⟩
      · simp
  unfold splitPath
  rw [hms]
  cases hpart : (Value.object ms).takePath path with
  | mk secret rest =>
    rw [hpart] at htake hrest
    cases secret with
    | none => exact ⟨⟨ms, hms⟩, h⟩
    | some secret => exact ⟨hrest, htake⟩

/-- The preferences of an account can be split again once its secrets are taken out. -/
theorem splitSecrets_splits {ms : List (String × Value)}
    (h : (splitEntries ms "").isOk = true) :
    ∃ ns, (splitSecrets (.object ms)).1 = .object ns ∧ (splitEntries ns "").isOk = true := by
  have hfold : ∀ (paths : List (List String)) (parts : Value × Value),
      (∃ ns, parts.1 = .object ns) → (splitEntries parts.1.members "").isOk = true →
        (∃ ns, (paths.foldl splitPath parts).1 = .object ns) ∧
          (splitEntries (paths.foldl splitPath parts).1.members "").isOk = true := by
    intro paths
    induction paths with
    | nil => exact fun _ hobject h => ⟨hobject, h⟩
    | cons path paths ih =>
      intro parts hobject h
      have hstep := splitPath_splits path hobject h
      exact ih _ hstep.1 hstep.2
  obtain ⟨⟨ns, hns⟩, hsplit⟩ := hfold secretPaths (.object ms, .object []) ⟨ms, rfl⟩ h
  rw [← splitSecrets] at hns hsplit
  rw [hns] at hsplit
  exact ⟨ns, hns, hsplit⟩

theorem splitSettingsValue_of_isOk {ms : List (String × Value)}
    (h : (splitEntries ms "").isOk = true) :
    ∃ parts, splitSettingsValue (.object ms) = .ok parts := by
  cases hentries : splitEntries ms "" with
  | error e =>
    rw [hentries] at h
    simp [Except.isOk, Except.toBool] at h
  | ok parts =>
    exact ⟨(.object parts.1, .object parts.2), splitSettingsValue_ok.mpr
      ⟨parts.1, parts.2, hentries, rfl, rfl⟩⟩

/-- What a save writes of a user partition is a user partition under its envelope. -/
theorem saved_splits {settings machine user : Value}
    (h : splitSettingsValue settings = .ok (machine, user)) :
    ∃ parts, splitSettingsValue
      (.object (erase secretEnvelope (splitSecrets user).1.members)) = .ok parts := by
  obtain ⟨ms, us, hentries, _, rfl⟩ := splitSettingsValue_ok.mp h
  have hroot : scopeForPath "" = .ok none := rfl
  have hus : (splitEntries us "").isOk = true := by
    have hsplit : split (.object settings.members) "" =
        .ok (nonemptyObject ms, nonemptyObject us) :=
      split_ok.mpr (.inr (.inr ⟨hroot, settings.members, ms, us, rfl, hentries, rfl, rfl⟩))
    by_cases hempty : us = []
    · rw [hempty]
      rfl
    · rw [nonemptyObject, nonemptyObject, if_neg hempty] at hsplit
      rcases split_isOk.mp (congrArg Except.isOk (split_user hsplit)) with
        ⟨scope, hscope⟩ | ⟨_, _, hok⟩
      · rw [hroot] at hscope
        simp at hscope
      · exact hok
  obtain ⟨ns, hns, hsplit⟩ := splitSecrets_splits hus
  rw [hns]
  apply splitSettingsValue_of_isOk
  rw [splitEntries_isOk] at hsplit ⊢
  exact fun e he => hsplit e (List.mem_of_mem_filter he)

end Split

section Stored

variable (host : Host)

/-- The secrets that a load with the key finds. -/
def storedOf (record : PersonalSettingsRecord) (file : Option String) (migrated : Bool) :
    Except String Value :=
  (loadWithOpen (.ok record) migrated (loadLegacyUserSettingsOverlay host true file)
    (loadSecrets host true file) (openSecrets host true)).map (·.1.secrets)

def World.storedSecrets (w : World) : Except String Value :=
  storedOf host w.record w.file w.migrated

/-- The secrets that the envelope of a record stands for. -/
def Envelope.secrets (file : Option String) (envelope : Envelope) : Except String Value :=
  envelope.read (loadSecrets host true file) (openSecrets host true)

/-- The secrets of a record after its envelope was read: a record that refers to the old file takes
them from there, unless it seals its own. -/
def recoverSecrets (file : Option String) (legacy : Bool) (text : Option String)
    (secretResult : Except String Value) : Except String Value := do
  let secrets ← secretResult
  if legacy then
    match ← loadLegacyUserSettingsOverlay host true file with
    | some old =>
      if text = none then do
        let (_, user) ← splitSettingsValue old
        pure (splitSecrets user).2
      else pure secrets
    | none => pure secrets
  else pure secrets

variable {host}

/-- With the key at hand nothing fails for want of it. -/
private theorem not_keyUnavailable_append (text error : String)
    (h : "SETTINGS_KEY_UNAVAILABLE:".toList.isPrefixOf (text.toList ++ error.toList) = false)
    (h' : "Settings key is missing but encrypted data exists;".toList.isPrefixOf
      (text.toList ++ error.toList) = false) : keyUnavailable (text ++ error) = false := by
  unfold keyUnavailable startsWith
  rw [String.toList_append, h, h']
  rfl

theorem parseSecrets_error {bytes : List UInt8} {error : String}
    (h : parseSecrets host bytes = .error error) : keyUnavailable error = false := by
  unfold parseSecrets at h
  cases hvalue : host.fromSlice bytes with
  | error e =>
    simp only [hvalue, Except.mapError, bind, Except.bind, Except.error.injEq] at h
    rw [← h]
    rfl
  | ok value =>
    by_cases hobject : value.isObject = true
    · simp [hvalue, Except.mapError, bind, Except.bind, refuseIf, hobject, pure, Except.pure] at h
    · simp only [hvalue, Except.mapError, bind, Except.bind, refuseIf, hobject] at h
      have herror := Except.error.inj h
      rw [← herror]
      rfl

theorem loadSecrets_error {file : Option String} {error : String}
    (h : loadSecrets host true file = .error error) : keyUnavailable error = false := by
  cases file with
  | none => simp [loadSecrets] at h
  | some encoded =>
    cases hbytes : host.decodeUserBlob encoded with
    | none =>
      simp only [loadSecrets, withKey, hbytes, okOr_none, bind, Except.bind, if_true,
        Except.error.injEq] at h
      rw [← h]
      rfl
    | some bytes =>
      simp only [loadSecrets, withKey, hbytes, okOr_some, bind, Except.bind, if_true] at h
      exact parseSecrets_error h

theorem openSecrets_error {text error : String}
    (h : openSecrets host true text = .error error) : keyUnavailable error = false := by
  unfold openSecrets at h
  cases hvalid : validateUserSecretsEnvelope text with
  | error e =>
    rw [hvalid] at h
    have herror : e = error := Except.error.inj h
    rw [← herror]
    unfold validateUserSecretsEnvelope refuseIf at hvalid
    split at hvalid
    · have he := Except.error.inj hvalid
      rw [← he]
      rfl
    · split at hvalid
      · have he := Except.error.inj hvalid
        rw [← he]
        rfl
      · simp [bind, Except.bind] at hvalid
  | ok u =>
    rw [hvalid] at h
    cases hbytes : host.decodeUserSecrets text with
    | none =>
      simp only [withKey, hbytes, okOr_none, bind, Except.bind, if_true, Except.error.injEq] at h
      rw [← h]
      rfl
    | some bytes =>
      simp only [withKey, hbytes, okOr_some, bind, Except.bind, if_true] at h
      exact parseSecrets_error h

theorem legacy_error {file : Option String} {error : String}
    (h : loadLegacyUserSettingsOverlay host true file = .error error) :
    keyUnavailable error = false := by
  cases file with
  | none => simp [loadLegacyUserSettingsOverlay, withKey] at h
  | some encoded =>
    cases hbytes : host.decodeUserBlob encoded with
    | none =>
      simp only [loadLegacyUserSettingsOverlay, withKey, hbytes, okOr_none, bind, Except.bind,
        if_true, Except.error.injEq] at h
      rw [← h]
      rfl
    | some bytes =>
      cases hvalue : host.fromSlice bytes with
      | error e =>
        simp only [loadLegacyUserSettingsOverlay, withKey, hbytes, okOr_some, hvalue,
          Except.mapError, bind, Except.bind, if_true, Except.error.injEq] at h
        rw [← h]
        exact not_keyUnavailable_append _ _ rfl rfl
      | ok value =>
        simp [loadLegacyUserSettingsOverlay, withKey, hbytes, hvalue, Except.mapError, bind,
          Except.bind, pure, Except.pure] at h

/-- Only without a file is there nothing to recover. -/
theorem legacy_none {file : Option String}
    (h : loadLegacyUserSettingsOverlay host true file = .ok none) : file = none := by
  cases file with
  | none => rfl
  | some encoded =>
    simp only [loadLegacyUserSettingsOverlay, withKey, if_true, bind_ok, pure_ok] at h
    obtain ⟨_, _, _, _, h⟩ := h
    exact absurd h (by simp)

theorem Envelope.secrets_error {file : Option String} {envelope : Envelope} {error : String}
    (h : envelope.secrets host file = .error error) : keyUnavailable error = false := by
  cases envelope with
  | sealed text => exact openSecrets_error h
  | empty => simp [Envelope.secrets, Envelope.read] at h
  | absent => exact loadSecrets_error h

/-- What is stored of a record that has a value. -/
theorem storedOf_value {record : PersonalSettingsRecord} {file : Option String} {value : Value}
    (migrated : Bool) (h : record.value = some value) :
    storedOf host record file migrated = (do
      let (envelope, rest) ← takeEnvelope value
      let _ ← splitSettingsValue rest
      recoverSecrets host file record.legacyRecoveryRequired envelope.text
        (envelope.secrets host file)) := by
  have hload : storedOf host record file migrated =
      (loadRecord (Session.start (some record)) value
        (loadLegacyUserSettingsOverlay host true file) (loadSecrets host true file)
        (openSecrets host true)).map (·.1.secrets) := by
    simp [storedOf, loadWithOpen, reachedRecord, refuseIf, h, bind, Except.bind]
  rw [hload]
  unfold loadRecord recoverSecrets
  cases henvelope : takeEnvelope value with
  | error e => rfl
  | ok taken =>
    obtain ⟨envelope, rest⟩ := taken
    cases hrest : splitSettingsValue rest with
    | error e => simp [bind, Except.bind, Except.map, hrest]
    | ok parts =>
      have hread : envelope.read (loadSecrets host true file) (openSecrets host true) =
        envelope.secrets host file := rfl
      simp only [bind, Except.bind, hrest, hread]
      cases hsecret : envelope.secrets host file with
      | error e => simp [Session.unlock, Envelope.secrets_error hsecret, Except.map]
      | ok secrets =>
        cases hlegacy : record.legacyRecoveryRequired with
        | false =>
          simp [Session.unlock, Session.recoverLegacy, Session.start, hlegacy, pure, Except.pure,
            Except.map]
        | true =>
          cases hold : loadLegacyUserSettingsOverlay host true file with
          | error e =>
            simp [Session.unlock, Session.recoverLegacy, Session.start, hlegacy, Except.map,
              legacy_error hold]
          | ok old =>
            cases old with
            | none =>
              simp [Session.unlock, Session.recoverLegacy, Session.start, hlegacy, pure,
                Except.pure, Except.map]
            | some old =>
              by_cases htext : envelope.text = none
              · cases hparts : splitSettingsValue old <;>
                  simp [Session.unlock, Session.recoverLegacy, Session.start, hlegacy, htext,
                    hparts, bind, Except.bind, pure, Except.pure, Except.map]
              · simp [Session.unlock, Session.recoverLegacy, Session.start, hlegacy, htext, pure,
                  Except.pure, Except.map]

/-- What is stored of an account whose record has no value yet is what its file holds. -/
theorem storedOf_none {record : PersonalSettingsRecord} {file : Option String}
    (h : record.value = none) :
    storedOf host record file false = recoverSecrets host file true none (.ok (.object [])) := by
  have hload : storedOf host record file false =
      (loadLegacy (Session.start (some record))
        (loadLegacyUserSettingsOverlay host true file)).map (·.1.secrets) := by
    simp [storedOf, loadWithOpen, reachedRecord, refuseIf, h, bind, Except.bind]
  rw [hload]
  unfold loadLegacy recoverSecrets
  cases hold : loadLegacyUserSettingsOverlay host true file with
  | error e => simp [legacy_error hold, Except.map, bind, Except.bind]
  | ok old =>
    cases old with
    | none => simp [Session.start, Except.map, bind, Except.bind, pure, Except.pure]
    | some old =>
      cases hparts : splitSettingsValue old <;>
        simp [hparts, Except.map, bind, Except.bind, pure, Except.pure]

variable (host) in
/-- A migrated account has a record. -/
theorem storedOf_migrated {record : PersonalSettingsRecord} (file : Option String)
    (h : record.value = none) : ∃ error, storedOf host record file true = .error error := by
  exact ⟨"Personal settings service data is missing; original data preserved",
    by simp [storedOf, loadWithOpen, reachedRecord, refuseIf, h, bind, Except.bind, Except.map]⟩

end Stored

section Sessions

variable {host : Host}

/-- What a locked session knows of the record it was loaded from. -/
structure Session.Guards (state : Session) (record : PersonalSettingsRecord) : Prop where
  without : record.value = none →
    state.protectedSecrets = none ∧ state.legacyRecoveryRequired = true
  within : ∀ value, record.value = some value → ∃ envelope rest,
    takeEnvelope value = .ok (envelope, rest) ∧ state.protectedSecrets = envelope.text ∧
      state.legacyRecoveryRequired = record.legacyRecoveryRequired

theorem Session.unlock_ok {state state' : Session} {ordinary ordinary' : Value}
    {secretResult : Except String Value}
    (h : state.unlock ordinary secretResult = .ok (state', ordinary')) :
    state'.mode = state.mode ∧ state'.revision = state.revision ∧
      state'.protectedSecrets = state.protectedSecrets ∧
        state'.legacyRecoveryRequired = state.legacyRecoveryRequired := by
  unfold Session.unlock at h
  cases secretResult with
  | ok secret =>
    simp only [Except.ok.injEq, Prod.mk.injEq] at h
    rw [← h.1]
    exact ⟨rfl, rfl, rfl, rfl⟩
  | error error =>
    by_cases hkey : keyUnavailable error = true
    · simp only [hkey, if_true, Except.ok.injEq, Prod.mk.injEq] at h
      rw [← h.1]
      exact ⟨rfl, rfl, rfl, rfl⟩
    · simp [hkey] at h

theorem Session.recoverLegacy_ok {state state' : Session} {ordinary ordinary' : Value}
    {legacy : Except String (Option Value)}
    (h : state.recoverLegacy ordinary legacy = .ok (state', ordinary')) :
    state'.mode = state.mode ∧ state'.revision = state.revision ∧
      state'.protectedSecrets = state.protectedSecrets ∧ (state'.secretsLocked = true →
        state'.legacyRecoveryRequired = state.legacyRecoveryRequired) := by
  unfold Session.recoverLegacy at h
  by_cases hcond : (state.legacyRecoveryRequired && !state.secretsLocked) = true
  · rw [if_pos hcond] at h
    rw [Bool.and_eq_true, Bool.not_eq_true'] at hcond
    rcases legacy with error | old | old
    · by_cases hkey : keyUnavailable error = true
      · simp only [hkey, if_true, Except.ok.injEq, Prod.mk.injEq] at h
        rw [← h.1]
        exact ⟨rfl, rfl, rfl, fun _ => rfl⟩
      · simp [hkey] at h
    · simp only [Except.ok.injEq, Prod.mk.injEq] at h
      rw [← h.1]
      exact ⟨rfl, rfl, rfl, fun _ => rfl⟩
    · by_cases hprotected : state.protectedSecrets = none
      · simp only [hprotected, if_true, bind_ok, pure_ok, Prod.mk.injEq] at h
        obtain ⟨parts, _, hstate, _⟩ := h
        rw [← hstate]
        exact ⟨rfl, rfl, hprotected.symm ▸ rfl, fun hlocked => absurd (hcond.2.symm.trans hlocked) (by simp)⟩
      · simp only [hprotected, if_false, Except.ok.injEq, Prod.mk.injEq] at h
        rw [← h.1]
        exact ⟨rfl, rfl, rfl, fun hlocked => absurd (hcond.2.symm.trans hlocked) (by simp)⟩
  · rw [if_neg hcond] at h
    simp only [Except.ok.injEq, Prod.mk.injEq] at h
    rw [← h.1]
    exact ⟨rfl, rfl, rfl, fun _ => rfl⟩

theorem loadRecord_ok {record : PersonalSettingsRecord} {value : Value} {state : Session}
    {resolved : Option Value} {legacy : Except String (Option Value)}
    {reader : Except String Value} {openEnvelope : String → Except String Value}
    (hvalue : record.value = some value)
    (h : loadRecord (Session.start (some record)) value legacy reader openEnvelope =
      .ok (state, resolved)) :
    state.mode = .service ∧ state.revision = record.revision ∧
      (state.secretsLocked = true → state.Guards record) := by
  simp only [loadRecord, bind_ok, pure_ok, Prod.exists, Prod.mk.injEq] at h
  obtain ⟨envelope, rest, htake, machine, user, _, state₁, ordinary₁, hunlock, state₂, ordinary₂,
    hrecover, rfl, _⟩ := h
  obtain ⟨hmode₁, hrevision₁, hprotected₁, hlegacy₁⟩ := Session.unlock_ok hunlock
  obtain ⟨hmode₂, hrevision₂, hprotected₂, hlegacy₂⟩ := Session.recoverLegacy_ok hrecover
  refine ⟨hmode₂.trans hmode₁, hrevision₂.trans hrevision₁, fun hlocked => ⟨?_, ?_⟩⟩
  · intro hnone
    exact absurd (hvalue.symm.trans hnone) (by simp)
  · intro value' hvalue'
    have heq : value = value' := Option.some.inj (hvalue.symm.trans hvalue')
    exact ⟨envelope, rest, heq ▸ htake, hprotected₂.trans hprotected₁,
      (hlegacy₂ hlocked).trans hlegacy₁⟩

theorem loadLegacy_ok {state state' : Session} {resolved : Option Value}
    {legacy : Except String (Option Value)} (hunlocked : state.secretsLocked = false)
    (h : loadLegacy state legacy = .ok (state', resolved)) :
    (state'.mode = .service ↔ state.mode = .service) ∧ state'.revision = state.revision ∧
      state'.protectedSecrets = state.protectedSecrets ∧ (state'.secretsLocked = true →
        state'.legacyRecoveryRequired = true ∧ state'.mode ≠ .legacy) := by
  unfold loadLegacy at h
  rcases legacy with error | old | old
  · by_cases hkey : keyUnavailable error = true
    · simp only [hkey, if_true, Except.ok.injEq, Prod.mk.injEq] at h
      rw [← h.1]
      refine ⟨?_, rfl, rfl, fun _ => ⟨rfl, ?_⟩⟩
      · by_cases hmode : state.mode = .service <;> simp [hmode]
      · by_cases hmode : state.mode = .service <;> simp [hmode]
    · simp [hkey] at h
  · simp only [Except.ok.injEq, Prod.mk.injEq] at h
    rw [← h.1]
    exact ⟨Iff.rfl, rfl, rfl, fun hlocked => absurd (hunlocked.symm.trans hlocked) (by simp)⟩
  · simp only [bind_ok, pure_ok, Prod.mk.injEq] at h
    obtain ⟨parts, _, hstate, _⟩ := h
    rw [← hstate]
    exact ⟨Iff.rfl, rfl, rfl, fun hlocked => absurd (hunlocked.symm.trans hlocked) (by simp)⟩

theorem reachedRecord_some {service : Except String PersonalSettingsRecord}
    {record : PersonalSettingsRecord} (h : reachedRecord service = .ok (some record)) :
    service = .ok record := by
  unfold reachedRecord at h
  cases service with
  | ok record' => rw [Option.some.inj (Except.ok.inj h)]
  | error error =>
    by_cases hservice : serviceUnavailable error = true <;> simp [hservice] at h

/-- A session in service mode is the session of the record that the service gave. -/
theorem loadWithOpen_service {service : Except String PersonalSettingsRecord} {migrated : Bool}
    {legacy : Except String (Option Value)} {reader : Except String Value}
    {openEnvelope : String → Except String Value} {state : Session} {resolved : Option Value}
    (h : loadWithOpen service migrated legacy reader openEnvelope = .ok (state, resolved))
    (hmode : state.mode = .service) :
    ∃ record, service = .ok record ∧ state.revision = record.revision ∧
      (state.secretsLocked = true → state.Guards record) := by
  simp only [loadWithOpen, bind_ok, refuseIf_ok] at h
  obtain ⟨record, hreached, _, _, h⟩ := h
  cases record with
  | none =>
    simp only [Option.bind_none] at h
    by_cases hmigrated : migrated = true
    · simp only [hmigrated, if_true, pure_ok, Prod.mk.injEq] at h
      rw [← h.1] at hmode
      exact absurd hmode (by simp)
    · rw [if_neg hmigrated] at h
      exact absurd ((loadLegacy_ok rfl h).1.mp hmode) (by simp [Session.start])
  | some record =>
    refine ⟨record, reachedRecord_some hreached, ?_⟩
    cases hvalue : record.value with
    | some value =>
      simp only [Option.bind_some, hvalue] at h
      exact (loadRecord_ok hvalue h).2
    | none =>
      simp only [Option.bind_some, hvalue] at h
      by_cases hmigrated : migrated = true
      · simp only [hmigrated, if_true, pure_ok, Prod.mk.injEq] at h
        rw [← h.1] at hmode
        exact absurd hmode (by simp)
      · rw [if_neg hmigrated] at h
        obtain ⟨_, hrevision, hprotected, hlegacy⟩ := loadLegacy_ok rfl h
        refine ⟨hrevision, fun hlocked => ⟨fun _ => ⟨hprotected, (hlegacy hlocked).1⟩, ?_⟩⟩
        exact fun value hsome => absurd (hvalue.symm.trans hsome) (by simp)

/-- Without the service nothing is known to be locked that could be saved. -/
theorem loadWithOpen_locked {service : Except String PersonalSettingsRecord} {migrated : Bool}
    {legacy : Except String (Option Value)} {reader : Except String Value}
    {openEnvelope : String → Except String Value} {state : Session} {resolved : Option Value}
    (h : loadWithOpen service migrated legacy reader openEnvelope = .ok (state, resolved))
    (hlocked : state.secretsLocked = true) : state.mode ≠ .legacy := by
  simp only [loadWithOpen, bind_ok, refuseIf_ok] at h
  obtain ⟨record, _, _, _, h⟩ := h
  cases hvalue : record.bind (·.value) with
  | some value =>
    simp only [hvalue] at h
    obtain ⟨record', rfl, hvalue'⟩ := Option.bind_eq_some_iff.mp hvalue
    rw [(loadRecord_ok hvalue' h).1]
    simp
  | none =>
    simp only [hvalue] at h
    by_cases hmigrated : migrated = true
    · simp only [hmigrated, if_true, pure_ok, Prod.mk.injEq] at h
      rw [← h.1]
      simp
    · rw [if_neg hmigrated] at h
      exact ((loadLegacy_ok rfl h).2.2.2 hlocked).2

theorem execute_ok {current record : PersonalSettingsRecord}
    {request : WritePersonalSettingsRequest} (h : execute host current request = .ok record) :
    request.expectedRevision = current.revision ∧ record.revision = current.revision + 1 ∧
      record.revision ≠ current.revision ∧ record.value = some request.value ∧
        record.legacyRecoveryRequired =
          (current.legacyRecoveryRequired || request.legacyRecoveryRequired) := by
  unfold execute at h
  simp only [bind_ok, refuseIf_ok] at h
  obtain ⟨_, _, _, hrevision, h⟩ := h
  by_cases hbound : current.revision.toNat + 1 < 2 ^ 64
  · rw [dif_pos hbound, pure_ok] at h
    rw [← h]
    refine ⟨not_not.mp hrevision, rfl, ?_, rfl, rfl⟩
    intro heq
    have hnat := congrArg UInt64.toNat heq
    simp only [UInt64.toNat_add] at hnat
    simp at hnat
    omega
  · rw [dif_neg hbound] at h
    simp [throw, throwThe, MonadExceptOf.throw] at h

variable (host) in
theorem serviceWrite_record (current : PersonalSettingsRecord)
    (request : WritePersonalSettingsRequest) (reply : WriteReply) :
    ((serviceWrite host current request reply).1 = current ∧
      ∀ record, (serviceWrite host current request reply).2 ≠ .ok record) ∨
    ∃ record, execute host current request = .ok record ∧ reply.commits = true ∧
      (serviceWrite host current request reply).1 = record ∧
        ∀ answer, (serviceWrite host current request reply).2 = .ok answer → answer = record := by
  cases hexecute : execute host current request with
  | error error => cases reply <;> simp [serviceWrite, hexecute]
  | ok record =>
    cases reply with
    | answered => simp [serviceWrite, hexecute, WriteReply.commits, eq_comm]
    | lost committed error => cases committed <;> simp [serviceWrite, hexecute, WriteReply.commits]

theorem serviceWrite_of_commits {current record : PersonalSettingsRecord}
    {request : WritePersonalSettingsRequest} {reply : WriteReply}
    (h : execute host current request = .ok record) (hcommits : reply.commits = true) :
    (serviceWrite host current request reply).1 = record := by
  cases reply with
  | answered => simp [serviceWrite, h]
  | lost committed error =>
    have hcommitted : committed = true := hcommits
    simp [serviceWrite, h, hcommitted]

theorem loadCurrentSession_ok {w : World} {env : LoadEnv} {state : Session}
    {resolved : Option Value} {migrated : Bool}
    (h : loadCurrentSession host w env = .ok (state, resolved, migrated)) :
    (state.mode = .service → state.revision = w.record.revision ∧
      (state.secretsLocked = true → state.Guards w.record)) ∧
    (state.secretsLocked = true → state.mode ≠ .legacy) ∧
    (migrated = w.migrated ∨ w.record.value.isSome = true) := by
  simp only [loadCurrentSession, bind_ok, refuseIf_ok, Prod.exists] at h
  obtain ⟨_, _, state', resolved', hload, h⟩ := h
  have hservice : state'.mode = .service → state'.revision = w.record.revision ∧
      (state'.secretsLocked = true → state'.Guards w.record) := by
    intro hmode
    obtain ⟨record, hrecord, hstate⟩ := loadWithOpen_service hload hmode
    cases herror : env.serviceError with
    | some error => simp [herror] at hrecord
    | none =>
      simp only [herror, Except.ok.injEq] at hrecord
      rw [hrecord]
      exact hstate
  by_cases hmark : state'.mode = .service ∧ 0 < state'.revision ∧ env.decoy = false
  · simp only [hmark, and_self, if_true, bind_ok, pure_ok, Prod.mk.injEq] at h
    obtain ⟨_, _, rfl, _, _⟩ := h
    refine ⟨hservice, loadWithOpen_locked hload, .inr (w.record.revised.mp ?_)⟩
    rw [← (hservice hmark.1).1]
    exact (UInt64.ne_of_lt hmark.2.1).symm
  · rw [if_neg hmark] at h
    simp only [pure_ok, Prod.mk.injEq] at h
    obtain ⟨rfl, _, hmigrated⟩ := h
    exact ⟨hservice, loadWithOpen_locked hload, .inl hmigrated.symm⟩

variable (host) in
/-- A save in service mode changes nothing, or the service takes its request. -/
theorem saveServiceWith_cases (current : PersonalSettingsRecord) (state : Session) (value : Value)
    (key : Bool) (reply : WriteReply) :
    ((saveServiceWith host current state value key reply).1 = current ∧
      ∃ error, (saveServiceWith host current state value key reply).2 = .error error) ∨
    ∃ protectedSecrets record,
      envelopeToSave host state key (splitSecrets value).2 = .ok protectedSecrets ∧
        execute host current (state.request (splitSecrets value).1 protectedSecrets) =
          .ok record ∧ reply.commits = true ∧
          (saveServiceWith host current state value key reply).1 = record ∧
          ((∃ error, (saveServiceWith host current state value key reply).2 = .error error) ∨
            (saveServiceWith host current state value key reply).2 =
              .ok (state.saved (splitSecrets value).2 protectedSecrets record)) := by
  unfold saveServiceWith
  cases envelopeToSave host state key (splitSecrets value).2 with
  | error error => exact .inl ⟨rfl, error, rfl⟩
  | ok protectedSecrets =>
    have hwrite := serviceWrite_record host current
      (state.request (splitSecrets value).1 protectedSecrets) reply
    dsimp only
    generalize serviceWrite host current
      (state.request (splitSecrets value).1 protectedSecrets) reply = written at hwrite ⊢
    obtain ⟨record, answer⟩ := written
    rcases hwrite with ⟨hrecord, hnone⟩ | ⟨record', hexecute, hcommits, hrecord, hsame⟩
    · cases answer with
      | ok committed => exact absurd rfl (hnone committed)
      | error error => exact .inl ⟨hrecord, error, rfl⟩
    · refine .inr ⟨protectedSecrets, record', rfl, hexecute, hcommits, hrecord, ?_⟩
      cases answer with
      | error error => exact .inl ⟨error, rfl⟩
      | ok committed =>
        right
        rw [hsame committed rfl]
        rfl

/-- Everything a save of one user partition can do to the world. -/
inductive SaveMove (host : Host) (w : World) (user : Value) (env : SaveEnv) : World → Prop
  | idle : SaveMove host w user env w
  | reloaded (state : Session) (resolved : Option Value) (migrated : Bool) :
      loadCurrentSession host w env.reload = .ok (state, resolved, migrated) →
        SaveMove host w user env { w with session := some state, migrated := migrated }
  | legacy (state : Session) (encoded : String) : w.session = some state → state.mode = .legacy →
      SaveMove host w user env { w with file := some encoded }
  | committed (state : Session) (protectedSecrets : Option String)
      (record : PersonalSettingsRecord) (session : Option Session) (migrated : Bool) :
      w.session = some state → state.mode = .service → w.published ≠ .temporary →
        envelopeToSave host state env.reload.key (splitSecrets user).2 = .ok protectedSecrets →
          execute host w.record (state.request (splitSecrets user).1 protectedSecrets) =
            .ok record → env.reply.commits = true →
              (session = w.session ∨
                session = some (state.saved (splitSecrets user).2 protectedSecrets record)) →
                SaveMove host w user env
                  { w with record := record, session := session, migrated := migrated }

theorem World.saveInner_moves (w : World) (user : Value) (env : SaveEnv) :
    SaveMove host w user env (w.saveInner host user env).1 := by
  unfold World.saveInner
  split
  · exact .idle
  · next state hsession =>
    by_cases htemporary :
        state.mode = .temporary ∨ (state.mode = .service ∧ w.published = .temporary)
    · rw [if_pos htemporary]
      cases hload : loadCurrentSession host w env.reload with
      | error error => exact .idle
      | ok loaded =>
        obtain ⟨recovered, resolved, migrated⟩ := loaded
        by_cases hmode : recovered.mode = .service
        · simp only [hmode, if_true]
          exact .reloaded recovered resolved migrated hload
        · simp only [hmode, if_false]
          exact .idle
    · rw [if_neg htemporary]
      by_cases hlegacy : state.mode = .legacy
      · rw [if_pos hlegacy]
        cases withKey env.reload.key (host.encodeUserBlob (host.toVec user)) with
        | error error => exact .idle
        | ok encoded => exact .legacy state encoded hsession hlegacy
      · rw [if_neg hlegacy]
        have hmode : state.mode = .service := by
          cases hmode : state.mode with
          | service => rfl
          | legacy => exact absurd hmode hlegacy
          | temporary => exact absurd (.inl hmode) htemporary
        have hpublished : w.published ≠ .temporary := fun h => htemporary (.inr ⟨hmode, h⟩)
        have hsave := saveServiceWith_cases host w.record state user env.reload.key
          env.reply
        generalize saveServiceWith host w.record state user env.reload.key env.reply = saved
          at hsave ⊢
        obtain ⟨record, answer⟩ := saved
        rcases hsave with ⟨hrecord, error, hanswer⟩ |
          ⟨protectedSecrets, record', henvelope, hexecute, hcommits, hrecord, hanswer⟩
        · have heq : record = w.record := hrecord
          have herror : answer = .error error := hanswer
          rw [heq, herror]
          exact .idle
        · have heq : record = record' := hrecord
          rw [heq]
          rcases hanswer with ⟨error, hanswer⟩ | hanswer
          · have herror : answer = .error error := hanswer
            rw [herror]
            exact .committed state protectedSecrets record' w.session w.migrated hsession hmode
              hpublished henvelope hexecute hcommits (.inl rfl)
          · have hok : answer = .ok (state.saved (splitSecrets user).2 protectedSecrets record') :=
              hanswer
            rw [hok]
            cases markMigrated w.migrated env.reload.markerFails with
            | error error =>
              exact .committed state protectedSecrets record' _ w.migrated hsession hmode
                hpublished henvelope hexecute hcommits (.inr rfl)
            | ok migrated =>
              exact .committed state protectedSecrets record' _ migrated hsession hmode
                hpublished henvelope hexecute hcommits (.inr rfl)

theorem reportSave_eq (result : World × Except String Bool) :
    ∃ published, reportSave result = { result.1 with published := published } := by
  unfold reportSave
  cases result.2 with
  | ok backed => exact ⟨result.1.published, rfl⟩
  | error error =>
    by_cases hreload : error = recoveredSettingsReloadRequired
    · exact ⟨result.1.published, by simp [hreload]⟩
    · exact ⟨.temporary, by simp [hreload]⟩

variable (host) in
/-- A save leaves everything as it was, or it makes one of the moves. -/
theorem World.save_cases (w : World) (settings : Value) (env : SaveEnv) :
    w.save host settings env = w ∨ ∃ machine user w' published,
      splitSettingsValue settings = .ok (machine, user) ∧ SaveMove host w user env w' ∧
        w.save host settings env = { w' with published := published } := by
  unfold World.save
  cases hsplit : splitSettingsValue settings with
  | error error => exact .inl rfl
  | ok parts =>
    obtain ⟨published, hreport⟩ := reportSave_eq (w.saveInner host parts.2 env)
    exact .inr ⟨parts.1, parts.2, _, published, rfl, w.saveInner_moves parts.2 env, hreport⟩

end Sessions

section Committed

variable {host : Host} {current record : PersonalSettingsRecord} {state : Session}
  {file : Option String} {settings machine user : Value} {protectedSecrets : Option String}

/-- The envelope that a save writes. -/
def Envelope.ofText : Option String → Envelope
  | some text => .sealed text
  | none => .empty

theorem takeEnvelope_request (ms : List (String × Value)) :
    takeEnvelope (.object (insert secretEnvelope (envelopeValue protectedSecrets) ms)) =
      .ok (Envelope.ofText protectedSecrets, .object (erase secretEnvelope ms)) := by
  have hget : (Value.object (insert secretEnvelope (envelopeValue protectedSecrets) ms)).get
      secretEnvelope = some (envelopeValue protectedSecrets) := by
    rw [Value.get_eq_lookup, Value.members, lookup_insert_self]
  simp only [takeEnvelope, hget, erase_insert]
  cases protectedSecrets <;> rfl

theorem Envelope.text_ofText (text : Option String) : (Envelope.ofText text).text = text := by
  cases text <;> rfl

/-- What is stored of a record that a save wrote. -/
theorem storedOf_execute (migrated : Bool)
    (hsplit : splitSettingsValue settings = .ok (machine, user))
    (hexecute : execute host current (state.request (splitSecrets user).1 protectedSecrets) =
      .ok record) :
    storedOf host record file migrated =
      recoverSecrets host file (current.legacyRecoveryRequired || state.legacyRecoveryRequired)
        protectedSecrets ((Envelope.ofText protectedSecrets).secrets host file) := by
  obtain ⟨_, _, _, hvalue, hlegacy⟩ := execute_ok hexecute
  obtain ⟨parts, hparts⟩ := saved_splits hsplit
  rw [storedOf_value migrated hvalue, hlegacy]
  simp only [Session.request, takeEnvelope_request, bind, Except.bind, hparts, Envelope.text_ofText]

theorem envelopeToSave_locked {key : Bool} {secret : Value} (hlocked : state.secretsLocked = true)
    (h : envelopeToSave host state key secret = .ok protectedSecrets) :
    secret = state.secrets ∧ protectedSecrets = state.protectedSecrets := by
  simp only [envelopeToSave, bind_ok, refuseIf_ok, hlocked, and_true, if_true, pure_ok,
    decide_eq_true_eq, not_not] at h
  obtain ⟨_, hsecret, hprotected⟩ := h
  exact ⟨hsecret, hprotected.symm⟩

theorem envelopeToSave_of_locked {key : Bool} {secret : Value}
    (hlocked : state.secretsLocked = true) (hsecret : secret = state.secrets) :
    envelopeToSave host state key secret = .ok state.protectedSecrets := by
  simp [envelopeToSave, refuseIf, hlocked, hsecret, bind, Except.bind, pure, Except.pure]

/-- A record that seals no secrets and does not refer to the file. -/
def PersonalSettingsRecord.Unmarked (record : PersonalSettingsRecord) : Prop :=
  (∃ value, record.value = some value ∧ value.get secretEnvelope = none) ∧
    record.legacyRecoveryRequired = false

theorem takeEnvelope_absent {value rest : Value} :
    takeEnvelope value = .ok (.absent, rest) → value.get secretEnvelope = none := by
  intro h
  unfold takeEnvelope at h
  cases hget : value.get secretEnvelope with
  | none => rfl
  | some envelope => cases envelope <;> simp [hget] at h

/-- A save under locked secrets writes the envelope that it read.  It keeps what is stored, unless
nothing in the record said that the secrets are in the file. -/
theorem storedOf_lockedSave {secrets : Value} {migrated : Bool} (migrated' : Bool)
    (hguards : state.Guards current)
    (hsplit : splitSettingsValue settings = .ok (machine, user))
    (hexecute : execute host current
      (state.request (splitSecrets user).1 state.protectedSecrets) = .ok record)
    (hbefore : storedOf host current file migrated = .ok secrets)
    (hspared : current.Unmarked → secrets = .object []) :
    storedOf host record file migrated' = .ok secrets := by
  rw [storedOf_execute migrated' hsplit hexecute]
  cases hvalue : current.value with
  | none =>
    obtain ⟨hprotected, hlegacy⟩ := hguards.without hvalue
    rw [hprotected, hlegacy, Bool.or_true]
    cases migrated with
    | false => exact (storedOf_none hvalue).symm.trans hbefore
    | true =>
      obtain ⟨error, herror⟩ := storedOf_migrated host file hvalue
      exact absurd (herror.symm.trans hbefore) (by simp)
  | some value =>
    obtain ⟨envelope, rest, htake, hprotected, hlegacy⟩ := hguards.within value hvalue
    replace hbefore : recoverSecrets host file current.legacyRecoveryRequired envelope.text
        (envelope.secrets host file) = .ok secrets := by
      rw [storedOf_value migrated hvalue, htake] at hbefore
      cases hrest : splitSettingsValue rest with
      | error error => simp [hrest, bind, Except.bind] at hbefore
      | ok parts => simpa only [hrest, bind, Except.bind] using hbefore
    rw [hlegacy, Bool.or_self, hprotected]
    cases envelope with
    | sealed text => exact hbefore
    | empty => exact hbefore
    | absent =>
      cases hmark : current.legacyRecoveryRequired with
      | false =>
        have hempty := hspared ⟨⟨value, hvalue, takeEnvelope_absent htake⟩, hmark⟩
        rw [hempty]
        rfl
      | true =>
        rw [hmark] at hbefore
        simp only [recoverSecrets, bind_ok, if_true] at hbefore ⊢
        obtain ⟨found, hfound, old, hold, hbefore⟩ := hbefore
        refine ⟨.object [], rfl, old, hold, ?_⟩
        cases old with
        | some old => exact hbefore
        | none =>
          rw [legacy_none hold] at hfound
          have hnone : Value.object [] = found := Except.ok.inj hfound
          rw [hnone]
          exact hbefore

end Committed

section Runs

variable {host : Host}

/-- A locked session guards the record of the service, as long as that is the one it was loaded
from. -/
def World.Synced (w : World) : Prop :=
  ∀ state, w.session = some state → state.secretsLocked = true → state.mode ≠ .legacy ∧
    (state.mode = .service → state.revision = w.record.revision → state.Guards w.record)

def World.Locked (w : World) : Prop := ∃ state, w.session = some state ∧ state.secretsLocked = true

/-- A save that puts an empty envelope where the record held nothing, so that the secrets in the
file are not looked for any more. -/
def Discards (host : Host) (w : World) : Call → Prop
  | .load _ => False
  | .save settings env => ∃ state machine user record secrets,
      w.session = some state ∧ state.secretsLocked = true ∧ state.mode = .service ∧
        w.published ≠ .temporary ∧ splitSettingsValue settings = .ok (machine, user) ∧
          (splitSecrets user).2 = state.secrets ∧
            execute host w.record (state.request (splitSecrets user).1 state.protectedSecrets) =
              .ok record ∧ env.reply.commits = true ∧ w.record.Unmarked ∧
                w.storedSecrets host = .ok secrets ∧ secrets ≠ .object []

theorem storedOf_isSome {record : PersonalSettingsRecord} {file : Option String}
    (h : record.value.isSome = true) (migrated migrated' : Bool) :
    storedOf host record file migrated = storedOf host record file migrated' := by
  obtain ⟨value, hvalue⟩ := Option.isSome_iff_exists.mp h
  rw [storedOf_value migrated hvalue, storedOf_value migrated' hvalue]

theorem storedSecrets_of_load {w : World} {env : LoadEnv} {state : Session}
    {resolved : Option Value} {migrated : Bool}
    (h : loadCurrentSession host w env = .ok (state, resolved, migrated)) :
    storedOf host w.record w.file migrated = w.storedSecrets host := by
  rcases (loadCurrentSession_ok h).2.2 with heq | hvalue
  · rw [heq]
    rfl
  · exact storedOf_isSome hvalue migrated w.migrated

/-- A load stores nothing. -/
theorem World.load_stored (w : World) (env : LoadEnv) :
    (w.load host env).storedSecrets host = w.storedSecrets host := by
  unfold World.load
  cases hload : loadCurrentSession host w env with
  | error error => rfl
  | ok loaded =>
    obtain ⟨state, resolved, migrated⟩ := loaded
    exact storedSecrets_of_load hload

theorem World.load_synced {w : World} (h : w.Synced) (env : LoadEnv) :
    (w.load host env).Synced := by
  unfold World.load
  cases hload : loadCurrentSession host w env with
  | error error => exact h
  | ok loaded =>
    obtain ⟨state, resolved, migrated⟩ := loaded
    intro state' hstate hlocked
    cases hstate
    have hstate := loadCurrentSession_ok hload
    exact ⟨hstate.2.1 hlocked, fun hmode _ => (hstate.1 hmode).2 hlocked⟩

theorem Session.Guards.request {state : Session} {current record : PersonalSettingsRecord}
    {ordinary : Value} (hguards : state.Guards current)
    (hexecute : execute host current (state.request ordinary state.protectedSecrets) =
      .ok record) (secrets : Value) :
    (state.saved secrets state.protectedSecrets record).Guards record := by
  obtain ⟨_, _, _, hvalue, hlegacy⟩ := execute_ok hexecute
  refine ⟨fun hnone => absurd (hvalue.symm.trans hnone) (by simp), fun value hsome => ?_⟩
  have heq : _ = value := Option.some.inj (hvalue.symm.trans hsome)
  rw [← heq]
  refine ⟨_, _, takeEnvelope_request _, (Envelope.text_ofText _).symm, ?_⟩
  rw [hlegacy]
  show state.legacyRecoveryRequired =
    (current.legacyRecoveryRequired || state.legacyRecoveryRequired)
  cases hcurrent : current.value with
  | none => rw [(hguards.without hcurrent).2, Bool.or_true]
  | some value =>
    obtain ⟨_, _, _, _, heq⟩ := hguards.within value hcurrent
    rw [heq, Bool.or_self]

theorem SaveMove.synced {w w' : World} {user : Value} {env : SaveEnv} (h : w.Synced)
    (hmove : SaveMove host w user env w') : w'.Synced := by
  cases hmove with
  | idle => exact h
  | reloaded state resolved migrated hload =>
    intro state' hstate hlocked
    cases hstate
    have hstate := loadCurrentSession_ok hload
    exact ⟨hstate.2.1 hlocked, fun hmode _ => (hstate.1 hmode).2 hlocked⟩
  | legacy state encoded hsession hmode => exact h
  | committed state protectedSecrets record session migrated hsession hmode hpublished henvelope
      hexecute hcommits hanswer =>
    obtain ⟨hexpected, _, hne, _, _⟩ := execute_ok hexecute
    have hrevision : state.revision = w.record.revision := hexpected
    intro state' hstate hlocked
    rcases hanswer with rfl | rfl
    · have heq : state = state' := Option.some.inj (hsession.symm.trans hstate)
      subst heq
      refine ⟨(h state hsession hlocked).1, fun _ hrevision' => ?_⟩
      have hadvanced : state.revision = record.revision := hrevision'
      exact absurd (hadvanced.symm.trans hrevision) hne
    · cases hstate
      have hlocked' : state.secretsLocked = true := hlocked
      have hbefore := h state hsession hlocked'
      obtain ⟨_, rfl⟩ := envelopeToSave_locked hlocked' henvelope
      exact ⟨hbefore.1, fun _ _ => (hbefore.2 hmode hrevision).request hexecute _⟩

theorem World.step_synced {w : World} (h : w.Synced) (call : Call) :
    (w.step host call).Synced := by
  cases call with
  | load env => exact World.load_synced h env
  | save settings env =>
    rcases w.save_cases host settings env with heq | ⟨_, _, _, _, _, hmove, heq⟩
    · rw [World.step, heq]
      exact h
    · have hsynced := hmove.synced h
      rw [World.step, heq]
      exact hsynced

/-- A save under locked secrets that does not discard them keeps what is stored. -/
theorem World.save_stored {w : World} {settings secrets : Value} {env : SaveEnv} (h : w.Synced)
    (hlocked : w.Locked) (hstored : w.storedSecrets host = .ok secrets)
    (hspared : ¬ Discards host w (.save settings env)) :
    (w.save host settings env).storedSecrets host = .ok secrets := by
  obtain ⟨state, hsession, hlocked⟩ := hlocked
  rcases w.save_cases host settings env with
    heq | ⟨machine, user, w', published, hsplit, hmove, heq⟩
  · rw [heq]
    exact hstored
  · rw [heq]
    cases hmove with
    | idle => exact hstored
    | reloaded state' resolved migrated hload => exact (storedSecrets_of_load hload).trans hstored
    | legacy state' encoded hsession' hmode =>
      have hsame : state' = state := Option.some.inj (hsession'.symm.trans hsession)
      rw [hsame] at hmode
      exact absurd hmode (h state hsession hlocked).1
    | committed state' protectedSecrets record session migrated hsession' hmode hpublished
        henvelope hexecute hcommits hanswer =>
      have hsame : state' = state := Option.some.inj (hsession'.symm.trans hsession)
      subst hsame
      obtain ⟨hsecret, rfl⟩ := envelopeToSave_locked hlocked henvelope
      have hrevision : state'.revision = w.record.revision := (execute_ok hexecute).1
      have hguards := (h state' hsession hlocked).2 hmode hrevision
      apply storedOf_lockedSave migrated hguards hsplit hexecute hstored
      intro hunmarked
      by_contra hne
      refine hspared ⟨state', machine, user, record, secrets, hsession, hlocked, hmode,
        hpublished, hsplit, hsecret, hexecute, hcommits, hunmarked, hstored, hne⟩

theorem World.saveInner_record {w : World} {user : Value} (env : SaveEnv) {state : Session}
    {protectedSecrets : Option String} {record : PersonalSettingsRecord}
    (hsession : w.session = some state) (hmode : state.mode = .service)
    (hpublished : w.published ≠ .temporary)
    (henvelope : envelopeToSave host state env.reload.key (splitSecrets user).2 =
      .ok protectedSecrets)
    (hexecute : execute host w.record (state.request (splitSecrets user).1 protectedSecrets) =
      .ok record) (hcommits : env.reply.commits = true) :
    (w.saveInner host user env).1.record = record ∧ (w.saveInner host user env).1.file = w.file := by
  have hsaved : (saveServiceWith host w.record state user env.reload.key env.reply).1 = record := by
    unfold saveServiceWith
    rw [henvelope]
    exact serviceWrite_of_commits hexecute hcommits
  unfold World.saveInner
  rw [hsession]
  simp only [hmode, hpublished, and_false, or_false, if_false, reduceCtorEq]
  generalize saveServiceWith host w.record state user env.reload.key env.reply = saved at hsaved ⊢
  obtain ⟨record', answer⟩ := saved
  cases answer with
  | error error => exact ⟨hsaved, rfl⟩
  | ok state =>
    cases markMigrated w.migrated env.reload.markerFails with
    | error error => exact ⟨hsaved, rfl⟩
    | ok migrated => exact ⟨hsaved, rfl⟩

/-- Where a save discards the secrets, none are stored after it. -/
theorem World.save_discards {w : World} {settings : Value} {env : SaveEnv} (h : w.Synced)
    (hdiscards : Discards host w (.save settings env)) :
    (w.save host settings env).storedSecrets host = .ok (.object []) := by
  obtain ⟨state, machine, user, record, secrets, hsession, hlocked, hmode, hpublished, hsplit,
    hsecret, hexecute, hcommits, ⟨⟨value, hvalue, hget⟩, hmark⟩, _, _⟩ := hdiscards
  have hguards := (h state hsession hlocked).2 hmode (execute_ok hexecute).1
  obtain ⟨envelope, rest, htake, hprotected, hlegacy⟩ := hguards.within value hvalue
  have henvelope : envelope = .absent := by
    unfold takeEnvelope at htake
    rw [hget] at htake
    exact (Prod.mk.inj (Except.ok.inj htake)).1.symm
  obtain ⟨hrecord, hfile⟩ := World.saveInner_record env hsession hmode hpublished
    (envelopeToSave_of_locked hlocked hsecret) hexecute hcommits
  obtain ⟨published, hreport⟩ := reportSave_eq (w.saveInner host user env)
  have hsave : w.save host settings env =
      { (w.saveInner host user env).1 with published := published } := by
    rw [World.save, hsplit]
    exact hreport
  rw [hsave, World.storedSecrets]
  simp only [hrecord, hfile]
  rw [storedOf_execute _ hsplit hexecute, hlegacy, hmark, hprotected, henvelope]
  rfl

/-- What a load meets that can read everything. -/
structure LoadEnv.Available (env : LoadEnv) : Prop where
  key : env.key = true
  service : env.serviceError = none
  readable : env.markerUnreadable = false
  writable : env.markerFails = false

/-- A load with the key finds what is stored. -/
theorem World.load_opened {w : World} {env : LoadEnv} {secrets : Value} (henv : env.Available)
    (h : w.storedSecrets host = .ok secrets) :
    ∃ state, (w.load host env).session = some state ∧ state.secrets = secrets := by
  unfold World.storedSecrets storedOf at h
  cases hload : loadWithOpen (.ok w.record) w.migrated
      (loadLegacyUserSettingsOverlay host true w.file) (loadSecrets host true w.file)
      (openSecrets host true) with
  | error error =>
    rw [hload] at h
    exact absurd h (by simp [Except.map])
  | ok loaded =>
    obtain ⟨state, resolved⟩ := loaded
    rw [hload] at h
    have hsecrets : state.secrets = secrets := Except.ok.inj h
    have hmarked : markMigrated w.migrated env.markerFails = .ok true := by
      simp [markMigrated, henv.writable]
    have hcurrent : ∃ migrated,
        loadCurrentSession host w env = .ok (state, resolved, migrated) := by
      simp only [loadCurrentSession, henv.service, henv.readable, henv.key, hload, hmarked, refuseIf,
        bind, Except.bind, pure, Except.pure]
      by_cases hmark : state.mode = .service ∧ 0 < state.revision ∧ env.decoy = false
      · exact ⟨true, by simp [hmark]⟩
      · exact ⟨w.migrated, by simp [hmark]⟩
    obtain ⟨migrated, hcurrent⟩ := hcurrent
    exact ⟨state, by rw [World.load, hcurrent], hsecrets⟩

/-- A save that is made while the secrets are locked. -/
def LockedSave (w : World) : Call → Prop
  | .load _ => True
  | .save _ _ => w.Locked

variable (host)

/-- No save under locked secrets changes what is stored of them, and after a lock-out the first load
with the key finds what was stored before it. -/
structure LockedSecretsKept (w : World) (calls : List Call) : Prop where
  saved : ∀ xs settings env ys secrets, calls = xs ++ .save settings env :: ys →
    (Machine.run (World.step host) w xs).Locked →
      (Machine.run (World.step host) w xs).storedSecrets host = .ok secrets →
        (Machine.run (World.step host) w (xs ++ [.save settings env])).storedSecrets host =
          .ok secrets
  opened : ∀ xs ys env zs secrets, calls = xs ++ ys ++ .load env :: zs → env.Available →
    (Machine.run (World.step host) w xs).storedSecrets host = .ok secrets →
      Machine.Throughout (World.step host) LockedSave (Machine.run (World.step host) w xs) ys →
        ∃ state, (Machine.run (World.step host) w (xs ++ ys ++ [.load env])).session = some state ∧
          state.secrets = secrets

variable {host}

variable (host) in
theorem synced_run (record : PersonalSettingsRecord) (file : Option String) (migrated : Bool)
    (calls : List Call) :
    (Machine.run (World.step host) (World.off record file migrated) calls).Synced :=
  Machine.run_invariant (I := World.Synced) (P := fun _ _ => True)
    (fun _ call h _ => World.step_synced h call)
    (fun _ hsession => absurd hsession (by simp [World.off]))
    (Machine.Throughout.of_forall (fun _ _ => trivial) _ calls)

/-- A lock-out that discards nothing leaves what is stored as it was. -/
theorem stored_run {w : World} {secrets : Value} {ys : List Call} (hsynced : w.Synced)
    (hstored : w.storedSecrets host = .ok secrets)
    (hlocked : Machine.Throughout (World.step host) LockedSave w ys)
    (hspared : Machine.Throughout (World.step host) (fun w call => ¬ Discards host w call) w ys) :
    (Machine.run (World.step host) w ys).storedSecrets host = .ok secrets := by
  induction ys generalizing w with
  | nil => exact hstored
  | cons call ys ih =>
    refine ih (World.step_synced hsynced call) ?_ hlocked.2 hspared.2
    cases call with
    | load env => exact (World.load_stored w env).trans hstored
    | save settings env => exact World.save_stored hsynced hlocked.1 hstored hspared.1

/-- Locked secrets are kept in exactly those runs in which no save discards them. -/
theorem lockedSecretsKept_iff (record : PersonalSettingsRecord) (file : Option String)
    (migrated : Bool) (calls : List Call) :
    LockedSecretsKept host (World.off record file migrated) calls ↔
      Machine.Throughout (World.step host) (fun w call => ¬ Discards host w call)
        (World.off record file migrated) calls := by
  have hsynced := synced_run host record file migrated
  constructor
  · intro h
    rw [Machine.throughout_iff]
    rintro xs call ys hcalls hdiscards
    cases call with
    | load env => exact hdiscards
    | save settings env =>
      have hafter := World.save_discards (hsynced xs) hdiscards
      obtain ⟨state, _, _, _, secrets, hsession, hlocked, _, _, _, _, _, _, _, hstored, hne⟩ :=
        hdiscards
      have hkept := h.saved xs settings env ys secrets hcalls ⟨state, hsession, hlocked⟩ hstored
      rw [Machine.run_append] at hkept
      exact hne (Except.ok.inj (hkept.symm.trans hafter))
  · intro h
    constructor
    · intro xs settings env ys secrets hcalls hlocked hstored
      have hspared := (Machine.throughout_iff _ _).mp h xs (.save settings env) ys hcalls
      rw [Machine.run_append]
      exact World.save_stored (hsynced xs) hlocked hstored hspared
    · intro xs ys env zs secrets hcalls henv hstored hlocked
      rw [hcalls, List.append_assoc] at h
      have hrest := ((Machine.throughout_append _ _ _).mp h).2
      have hspared := ((Machine.throughout_append _ _ _).mp hrest).1
      have hafter := stored_run (hsynced xs) hstored hlocked hspared
      rw [Machine.run_append, Machine.run_append]
      exact World.load_opened henv hafter

end Runs

section LostSecrets

/-- A signing seed in the account's file. -/
def LostSecrets.seed : Value := .object [("app", .object [("flowSigningSeedB64", .string "seed")])]

/-- An account whose key opens its file. -/
def LostSecrets.host : Host where
  fromSlice _ := .ok seed
  toVec _ := []
  decodeUserBlob _ := some []
  encodeUserBlob _ := .error "could not persist per-user data"
  decodeUserSecrets _ := none
  encodeUserSecrets _ _ := .error "Could not preserve personal secrets key ownership"

/-- A record from before there were envelopes. -/
def LostSecrets.record : PersonalSettingsRecord where
  revision := 4
  value := some (.object [("app", .object [("theme", .string "light")])])
  legacyRecoveryRequired := false
  revised := by decide

/-- A load while Windows withholds the key. -/
def LostSecrets.lockOut : LoadEnv := ⟨false, none, false, false, false⟩

/-- A change of the theme. -/
def LostSecrets.save : Call :=
  .save (.object [("app", .object [("theme", .string "dark")])]) ⟨lockOut, .answered⟩

def LostSecrets.calls : List Call := [.load lockOut, save]

/-- Saving a theme during the lock-out makes the account lose its signing seed. -/
theorem theme_loses_seed :
    ¬ ∀ (host : Host) (record : PersonalSettingsRecord) (file : Option String) (migrated : Bool)
      (calls : List Call), LockedSecretsKept host (World.off record file migrated) calls := by
  intro h
  have hkept := (h LostSecrets.host LostSecrets.record (some "user-settings.dat") true
    LostSecrets.calls).saved [.load LostSecrets.lockOut] _ _ [] LostSecrets.seed rfl
      ⟨_, rfl, by decide⟩ rfl
  have hlost : (Machine.run (World.step LostSecrets.host)
      (World.off LostSecrets.record (some "user-settings.dat") true)
        LostSecrets.calls).storedSecrets LostSecrets.host = .ok (.object []) := by
    decide +kernel
  exact absurd (hlost.symm.trans hkept) (by simp [LostSecrets.seed])

end LostSecrets

end PersonalSettings
