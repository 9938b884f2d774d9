import WinCommander.Settings.Load
import WinCommander.Settings.Partition

/-!
# Overlays of accounts

Whatever a record, an envelope or a legacy file holds, what is laid over the machine's settings has
user leaves only, and the leaves of the machine come through the merge and the reader unchanged.
-/

namespace Settings

open Json Outcome Serde

section UserValues

/-- A value in which everything belongs to the user. -/
inductive UserValue : Value → String → Prop
  | owned {v : Value} {path : String} : scopeForPath path = .ok (some .user) → UserValue v path
  | members {ms : List (String × Value)} {path : String} : scopeForPath path = .ok none →
      (∀ m ∈ ms, UserValue m.2 (childPath path m.1)) → UserValue (.object ms) path

/-- The path that ends a list of keys. -/
def pathBelow (path : String) (keys : List String) : String := keys.foldl childPath path

/-- Every value above the end of the keys has members of several owners. -/
def Shared : String → List String → Prop
  | _, [] => True
  | path, key :: keys => scopeForPath path = .ok none ∧ Shared (childPath path key) keys

instance decidableShared : (path : String) → (keys : List String) → Decidable (Shared path keys)
  | _, [] => .isTrue trivial
  | path, key :: keys =>
    have := decidableShared (childPath path key) keys
    inferInstanceAs (Decidable (_ ∧ _))

private theorem splitEntries_of_userValues {entries us : List (String × Value)} {path : String}
    (ih : ∀ e ∈ entries, ∀ p u, split e.2 p = .ok (none, u) → UserValue e.2 p)
    (h : splitEntries entries path = .ok ([], us)) :
    ∀ e ∈ entries, UserValue e.2 (childPath path e.1) := by
  induction entries generalizing us with
  | nil => exact fun e he => absurd he List.not_mem_nil
  | cons e entries ihe =>
    obtain ⟨key, child⟩ := e
    rw [List.forall_mem_cons] at ih
    obtain ⟨m, u, ms, us', hchild, hrest, hm, _⟩ := splitEntries_cons_ok.mp h
    cases m with
    | some v => exact absurd hm (by simp [keep])
    | none =>
      have hms : ms = [] := hm.symm
      rw [hms] at hrest
      exact List.forall_mem_cons.mpr ⟨ih.1 _ u hchild, ihe ih.2 hrest⟩

theorem userValue_of_split {v : Value} {path : String} {u : Option Value}
    (h : split v path = .ok (none, u)) : UserValue v path := by
  induction v generalizing path u with
  | object entries ih =>
    rcases split_ok.mp h with ⟨_, hm, _⟩ | ⟨hscope, _, _⟩ | ⟨hscope, _, ms, us, heq, hsplit, hm, _⟩
    · exact absurd hm (by simp)
    · exact .owned hscope
    · cases heq
      have hms : ms = [] := by
        unfold nonemptyObject at hm
        by_contra hne
        rw [if_neg hne] at hm
        exact absurd hm (by simp)
      rw [hms] at hsplit
      exact .members hscope (splitEntries_of_userValues (fun e he p u => ih e he) hsplit)
  | _ =>
    rcases split_ok.mp h with ⟨_, hm, _⟩ | ⟨hscope, _, _⟩ | ⟨_, _, _, _, heq, _⟩
    · exact absurd hm (by simp)
    · exact .owned hscope
    · exact absurd heq (by simp)

private theorem userValues_of_splitEntries {entries ms us : List (String × Value)} {path : String}
    (h : splitEntries entries path = .ok (ms, us)) :
    ∀ e ∈ us, UserValue e.2 (childPath path e.1) := by
  induction entries generalizing ms us with
  | nil =>
    rw [splitEntries, pure_ok] at h
    cases h
    exact fun e he => absurd he List.not_mem_nil
  | cons e entries ih =>
    obtain ⟨key, child⟩ := e
    obtain ⟨m, u, ms', us', hchild, hrest, _, rfl⟩ := splitEntries_cons_ok.mp h
    have hus := ih hrest
    cases u with
    | none => exact hus
    | some u =>
      rw [keep_some]
      exact List.forall_mem_cons.mpr ⟨userValue_of_split (split_user hchild), hus⟩

/-- What the split gives the user belongs to the user. -/
theorem userValue_of_splitSettingsValue {v machine user : Value}
    (h : splitSettingsValue v = .ok (machine, user)) : UserValue user "" := by
  obtain ⟨ms, us, hsplit, _, rfl⟩ := splitSettingsValue_ok.mp h
  exact .members rfl (userValues_of_splitEntries hsplit)

theorem UserValue.erase {ms : List (String × Value)} {path : String} (key : String)
    (hscope : scopeForPath path = .ok none) (h : UserValue (.object ms) path) :
    UserValue (.object (erase key ms)) path := by
  cases h with
  | owned howned => exact .owned howned
  | members _ hms => exact .members hscope fun m hm => hms m (List.mem_of_mem_filter hm)

/-- Taking something out of a user value leaves a user value. -/
theorem UserValue.takePath {v : Value} {path : String} (h : UserValue v path)
    (keys : List String) : UserValue (v.takePath keys).2 path := by
  induction keys generalizing v path with
  | nil =>
    cases v <;> exact h
  | cons key keys ih =>
    cases h with
    | owned howned => exact .owned howned
    | members hscope hms =>
      cases keys with
      | nil => exact (UserValue.members hscope hms).erase key hscope
      | cons key' keys =>
        rw [Value.takePath]
        · cases hlookup : List.lookup key _ with
          | none => exact .members hscope hms
          | some w =>
            refine .members hscope fun m hm => ?_
            rcases mem_insert hm with rfl | hm
            · exact ih (hms (key, w) (mem_of_lookup hlookup))
            · exact hms m hm
        · simp

/-- A user value put into a user value, or into nothing, makes a user value. -/
theorem UserValue.setPath {v child : Value} {path : String} {keys : List String}
    (hshared : Shared path keys) (hchild : UserValue child (pathBelow path keys))
    (h : UserValue v path ∨ v = .null) : UserValue (Value.setPath keys child v) path := by
  induction keys generalizing v path with
  | nil => exact hchild
  | cons key keys ih =>
    obtain ⟨hscope, hshared⟩ := hshared
    have hmembers : ∀ m ∈ v.members, UserValue m.2 (childPath path m.1) := by
      rcases h with h | rfl
      · cases h with
        | owned howned =>
          rw [hscope] at howned
          exact absurd howned (by simp)
        | members _ hms => exact hms
      · exact fun m hm => absurd hm List.not_mem_nil
    refine .members hscope fun m hm => ?_
    rcases mem_insert hm with rfl | hm
    · apply ih hshared hchild
      rw [Value.get_eq_lookup]
      cases hlookup : v.members.lookup key with
      | none => exact .inr rfl
      | some w => exact .inl (hmembers (key, w) (mem_of_lookup hlookup))
    · exact hmembers m hm

end UserValues

section Overlays

open PersonalSettings

/-- Whom the members of the root and those of the preferences belong to. -/
theorem scopeForPath_members :
    (∀ key ∈ ["settingsVersion", "appVersion", "deviceId", "createdAt", "policy"],
      scopeForPath (childPath "" key) = .ok (some .machine)) ∧
    (∀ key ∈ ["app", "ideal", "current"], scopeForPath (childPath "" key) = .ok none) ∧
    scopeForPath (childPath "" "lastSeenAt") = .ok (some .user) ∧
    (∀ key ∈ ["updateChannel", "startSilentlyAtSignIn"],
      scopeForPath (childPath (childPath "" "app") key) = .ok (some .machine)) ∧
    ∀ key ∈ ["flowSigningSeedB64", "flows", "proFlows", "contingency", "fileSearch"],
      scopeForPath (childPath (childPath "" "app") key) = .ok (some .user) := by
  decide +kernel

theorem scopeForPath_app : scopeForPath (childPath "" "app") = .ok none :=
  scopeForPath_members.2.1 _ (List.mem_cons_self ..)

theorem shared_app (key : String) : Shared "" ["app", key] := ⟨rfl, scopeForPath_app, trivial⟩

/-- The two members of the root that are system states, and their privacy settings. -/
theorem shared_privacy (key : String) :
    Shared "" ["ideal", "privacy", key] ∧ Shared "" ["current", "privacy", key] := by
  obtain ⟨⟨hideal, hcurrent⟩, _⟩ := scopeForPath_privacy
  have hroot : ∀ state, childPath "" state = state := fun state => if_pos rfl
  have hstates := scopeForPath_members.2.1
  obtain ⟨hidealPath, hcurrentPath⟩ : childPath "ideal" "privacy" = "ideal.privacy" ∧
      childPath "current" "privacy" = "current.privacy" := by decide +kernel
  constructor
  · refine ⟨rfl, hstates _ (by simp), ?_, trivial⟩
    rw [hroot, hidealPath]
    exact hideal
  · refine ⟨rfl, hstates _ (by simp), ?_, trivial⟩
    rw [hroot, hcurrentPath]
    exact hcurrent

theorem shared_secretPaths : ∀ path ∈ secretPaths,
    Shared "" path ∧ scopeForPath (pathBelow "" path) = .ok (some .user) := by
  have happ : ∀ path ∈ [["app", "flowSigningSeedB64"], ["app", "flows"], ["app", "proFlows"],
      ["app", "contingency"]],
      Shared "" path ∧ scopeForPath (pathBelow "" path) = .ok (some .user) := by
    have huser := scopeForPath_members.2.2.2.2
    intro path hpath
    simp only [List.mem_cons, List.not_mem_nil, or_false] at hpath
    rcases hpath with rfl | rfl | rfl | rfl <;> exact ⟨shared_app _, huser _ (by simp)⟩
  obtain ⟨_, hideal, hcurrent⟩ := scopeForPath_privacy
  obtain ⟨hidealPath, hcurrentPath⟩ : pathBelow "" ["ideal", "privacy", "distressPhrases"] =
      "ideal.privacy.distressPhrases" ∧ pathBelow "" ["current", "privacy", "distressPhrases"] =
      "current.privacy.distressPhrases" := by decide +kernel
  intro path hpath
  rw [show secretPaths = [["app", "flowSigningSeedB64"], ["app", "flows"], ["app", "proFlows"],
    ["app", "contingency"]] ++ [["ideal", "privacy", "distressPhrases"],
      ["current", "privacy", "distressPhrases"]] from rfl, List.mem_append] at hpath
  rcases hpath with hpath | hpath
  · exact happ path hpath
  · rw [List.mem_cons, List.mem_singleton] at hpath
    rcases hpath with rfl | rfl
    · exact ⟨(shared_privacy _).1, hidealPath ▸ hideal⟩
    · exact ⟨(shared_privacy _).2, hcurrentPath ▸ hcurrent⟩

theorem UserValue.splitSecrets {v : Value} (h : UserValue v "") :
    UserValue (splitSecrets v).1 "" := by
  have hfold : ∀ (paths : List (List String)) (parts : Value × Value), UserValue parts.1 "" →
      UserValue (paths.foldl splitPath parts).1 "" := by
    intro paths
    induction paths with
    | nil => exact fun _ h => h
    | cons path paths ih =>
      intro parts hparts
      apply ih
      unfold splitPath
      have hrest := hparts.takePath path
      generalize parts.1.takePath path = taken at hrest
      obtain ⟨secret, rest⟩ := taken
      cases secret with
      | none => exact hparts
      | some secret => exact hrest
  exact hfold secretPaths (v, .object []) h

theorem UserValue.mergeSecrets {v : Value} (h : UserValue v "") (secrets : Value) :
    UserValue (mergeSecrets v secrets) "" := by
  apply List.foldlRecOn (motive := fun o => UserValue o "") secretPaths _ h
  intro o ho path hpath
  obtain ⟨hshared, hend⟩ := shared_secretPaths path hpath
  cases secrets.atPath path with
  | none => exact ho
  | some secret => exact .setPath hshared (.owned hend) (.inl ho)

private theorem userValue_of_unlock {state state' : Session} {ordinary ordinary' : Value}
    {result : Except String Value} (h : UserValue ordinary "")
    (hunlock : state.unlock ordinary result = .ok (state', ordinary')) :
    UserValue ordinary' "" := by
  unfold Session.unlock at hunlock
  cases result with
  | ok secret =>
    cases hunlock
    exact h.mergeSecrets secret
  | error error =>
    dsimp only at hunlock
    split at hunlock
    · cases hunlock
      exact h
    · exact absurd hunlock (by simp)

private theorem userValue_of_recoverLegacy {state state' : Session} {ordinary ordinary' : Value}
    {legacy : Except String (Option Value)} (h : UserValue ordinary "")
    (hrecover : state.recoverLegacy ordinary legacy = .ok (state', ordinary')) :
    UserValue ordinary' "" := by
  unfold Session.recoverLegacy at hrecover
  split at hrecover
  · split at hrecover
    · split at hrecover
      · obtain ⟨parts, _, hpure⟩ := bind_ok.mp hrecover
        cases pure_ok.mp hpure
        exact h.mergeSecrets _
      · cases hrecover
        exact h
    · cases hrecover
      exact h
    · split at hrecover
      · cases hrecover
        exact h
      · exact absurd hrecover (by simp)
  · cases hrecover
    exact h

/-- What a load lays over the machine's settings belongs to the user. -/
theorem userValue_of_loadWithOpen {service : Except String PersonalSettingsRecord}
    {migrated : Bool} {legacy : Except String (Option Value)} {secretReader : Except String Value}
    {openEnvelope : String → Except String Value} {session : Session} {overlay : Value}
    (h : loadWithOpen service migrated legacy secretReader openEnvelope =
      .ok (session, some overlay)) : UserValue overlay "" := by
  unfold loadWithOpen at h
  obtain ⟨record, _, h⟩ := bind_ok.mp h
  obtain ⟨_, _, h⟩ := bind_ok.mp h
  dsimp only at h
  split at h
  · next value =>
    unfold loadRecord at h
    obtain ⟨taken, _, h⟩ := bind_ok.mp h
    dsimp only at h
    obtain ⟨parts, hsplit, h⟩ := bind_ok.mp h
    obtain ⟨unlocked, hunlock, h⟩ := bind_ok.mp h
    obtain ⟨recovered, hrecover, h⟩ := bind_ok.mp h
    cases pure_ok.mp h
    have huser := (userValue_of_splitSettingsValue hsplit).splitSecrets
    exact userValue_of_recoverLegacy (userValue_of_unlock huser hunlock) hrecover
  · split at h
    · exact absurd (pure_ok.mp h) (by simp)
    · unfold loadLegacy at h
      split at h
      · exact absurd h (by simp)
      · obtain ⟨parts, hsplit, h⟩ := bind_ok.mp h
        cases pure_ok.mp h
        exact userValue_of_splitSettingsValue hsplit
      · split at h
        · exact absurd h (by simp)
        · exact absurd h (by simp)

theorem UserValue.removePersonalChoice {v : Value} (h : UserValue v "") (key : String) :
    UserValue (removePersonalChoice key v) "" := by
  unfold Settings.removePersonalChoice
  split
  · next app hget =>
    have happ := scopeForPath_app
    have hchild : UserValue (.object app) (childPath "" "app") := by
      rw [Value.get_eq_lookup] at hget
      cases h with
      | owned howned => cases howned.symm.trans (show scopeForPath "" = .ok none from rfl)
      | members _ hms => exact hms _ (mem_of_lookup hget)
    refine .setPath ⟨rfl, trivial⟩ ?_ (.inl h)
    exact hchild.erase key happ
  · exact h

theorem UserValue.normalizeFileSearchResultLimit {v : Value} (h : UserValue v "") :
    UserValue (normalizeFileSearchResultLimit v) "" := by
  have happ := scopeForPath_app
  have hsearch : scopeForPath (pathBelow "" ["app", "fileSearch"]) = .ok (some .user) :=
    scopeForPath_members.2.2.2.2 _ (by simp)
  unfold Settings.normalizeFileSearchResultLimit
  split
  · split
    · exact .setPath ⟨rfl, happ, trivial⟩ (.owned hsearch) (.inl h)
    · exact h
  · exact h

end Overlays

section Merges

variable {v o : Value} {path : String} {keys : List String}

/-- A user value is an object of user values where its path has several owners. -/
theorem UserValue.object_of_shared (h : UserValue o path) (hscope : scopeForPath path = .ok none) :
    ∃ os, o = .object os ∧ ∀ m ∈ os, UserValue m.2 (childPath path m.1) := by
  cases h with
  | owned howned =>
    rw [hscope] at howned
    exact absurd howned (by simp)
  | members _ hms => exact ⟨_, rfl, hms⟩

theorem ScopedAt.ne_nil {scope : SettingsScope} (h : ScopedAt scope path keys) : keys ≠ [] := by
  cases h <;> simp

theorem not_userValue_of_machine (hscope : scopeForPath path = .ok (some .machine)) :
    ¬ UserValue v path := by
  intro h
  cases h with
  | owned howned =>
    rw [hscope] at howned
    exact absurd howned (by simp)
  | members hnone _ =>
    rw [hscope] at hnone
    exact absurd hnone (by simp)

/-- A user value has nothing at a path of the machine. -/
theorem UserValue.atPath_eq_none (h : UserValue o path) (hscope : scopeForPath path = .ok none)
    (hkeys : ScopedAt .machine path keys) : o.atPath keys = none := by
  induction hkeys generalizing o with
  | @here path key howned =>
    obtain ⟨os, rfl, hos⟩ := h.object_of_shared hscope
    rw [Value.atPath_cons, Value.get]
    cases hlookup : os.lookup key with
    | none => rfl
    | some w =>
      have hw := hos (key, w) (mem_of_lookup hlookup)
      exact absurd hw (not_userValue_of_machine howned)
  | @inside path key keys hnone _ ih =>
    obtain ⟨os, rfl, hos⟩ := h.object_of_shared hscope
    rw [Value.atPath_cons, Value.get]
    cases hlookup : os.lookup key with
    | none => rfl
    | some w => exact ih (hos (key, w) (mem_of_lookup hlookup)) hnone

private theorem atPath_mergeMembers {key : String} (base : List (String × Value))
    {patch : List (String × Value)}
    (hpatch : ∀ w, (key, w) ∈ patch →
      keys ≠ [] ∧ ∀ old : Value, (old.merge w).atPath keys = old.atPath keys) :
    (Value.object (Value.mergeMembers base patch)).atPath (key :: keys) =
      (Value.object base).atPath (key :: keys) := by
  induction patch generalizing base with
  | nil => rw [Value.mergeMembers]
  | cons m patch ih =>
    obtain ⟨j, w⟩ := m
    rw [Value.mergeMembers, ih _ fun w hw => hpatch w (List.mem_cons_of_mem _ hw)]
    rw [Value.atPath_cons, Value.atPath_cons, Value.get, Value.get]
    by_cases hj : key = j
    · obtain ⟨hne, hmerge⟩ := hpatch w (hj ▸ List.mem_cons_self)
      rw [← hj, lookup_insert_self, Option.bind_some, hmerge]
      cases base.lookup key with
      | some old => rfl
      | none =>
        cases keys with
        | nil => exact absurd rfl hne
        | cons k keys => rfl
    · rw [lookup_insert_of_ne _ _ hj]

/-- A user value leaves what belongs to the machine as it is. -/
theorem UserValue.atPath_merge (h : UserValue o path) (hscope : scopeForPath path = .ok none)
    (hkeys : ScopedAt .machine path keys) : (v.merge o).atPath keys = v.atPath keys := by
  induction hkeys generalizing v o with
  | @here path key howned =>
    obtain ⟨os, rfl, hos⟩ := h.object_of_shared hscope
    have habsent : ∀ w, (key, w) ∉ os :=
      fun w hw => not_userValue_of_machine howned (hos (key, w) hw)
    cases v with
    | object vs =>
      rw [Value.merge_object]
      exact atPath_mergeMembers vs fun w hw => absurd hw (habsent w)
    | _ => exact h.atPath_eq_none hscope (.here howned)
  | @inside path key keys hnone hkeys ih =>
    obtain ⟨os, rfl, hos⟩ := h.object_of_shared hscope
    cases v with
    | object vs =>
      rw [Value.merge_object]
      apply atPath_mergeMembers vs
      intro w hw
      exact ⟨hkeys.ne_nil, fun old => ih (hos (key, w) hw) hnone⟩
    | _ => exact h.atPath_eq_none hscope (.inside hnone hkeys)

/-- A user value takes nothing away above its own paths. -/
theorem UserValue.isSome_atPath_merge (h : UserValue o path) (hshared : Shared path keys)
    (hsome : (v.atPath keys).isSome) : ((v.merge o).atPath keys).isSome := by
  induction keys generalizing v o path with
  | nil => rfl
  | cons key keys ih =>
    obtain ⟨hscope, hshared⟩ := hshared
    obtain ⟨os, rfl, hos⟩ := h.object_of_shared hscope
    cases v with
    | object vs =>
      rw [Value.merge_object]
      clear h
      induction os generalizing vs with
      | nil =>
        rw [Value.mergeMembers]
        exact hsome
      | cons m os ihos =>
        obtain ⟨j, w⟩ := m
        rw [List.forall_mem_cons] at hos
        rw [Value.mergeMembers]
        apply ihos hos.2
        rw [Value.atPath_cons, Value.get] at hsome ⊢
        by_cases hj : key = j
        · rw [← hj] at hos ⊢
          rw [lookup_insert_self, Option.bind_some]
          cases hlookup : vs.lookup key with
          | none =>
            rw [hlookup] at hsome
            exact absurd hsome (by simp)
          | some old =>
            rw [hlookup] at hsome
            exact ih hos.1 hshared hsome
        · rw [lookup_insert_of_ne _ _ hj]
          exact hsome
    | _ => exact absurd hsome (by simp [Value.get])

/-- A path of the machine neither leads to a path of the user nor goes on from one. -/
theorem ScopedAt.apart (h : ScopedAt .machine path keys) {user : List String} (hne : user ≠ [])
    (hshared : Shared path user) (howned : scopeForPath (pathBelow path user) = .ok (some .user)) :
    ¬ user <+: keys ∧ ¬ keys <+: user := by
  induction h generalizing user with
  | @here path key hkey =>
    cases user with
    | nil => exact absurd rfl hne
    | cons k user =>
      rw [List.cons_prefix_cons, List.cons_prefix_cons]
      have happart : k ≠ key := by
        rintro rfl
        cases user with
        | nil =>
          have howned : scopeForPath (childPath path k) = .ok (some .user) := howned
          rw [hkey] at howned
          exact absurd howned (by simp)
        | cons j user =>
          have hnone : scopeForPath (childPath path k) = .ok none := hshared.2.1
          rw [hkey] at hnone
          exact absurd hnone (by simp)
      exact ⟨fun h => happart h.1, fun h => happart h.1.symm⟩
  | @inside path key keys hnone _ ih =>
    cases user with
    | nil => exact absurd rfl hne
    | cons k user =>
      rw [List.cons_prefix_cons, List.cons_prefix_cons]
      by_cases hk : k = key
      · subst hk
        have huser : user ≠ [] := by
          rintro rfl
          have howned : scopeForPath (childPath path k) = .ok (some .user) := howned
          rw [hnone] at howned
          exact absurd howned (by simp)
        have hrest := ih huser hshared.2 howned
        exact ⟨fun h => hrest.1 h.2, fun h => hrest.2 h.2⟩
      · exact ⟨fun h => hk h.1, fun h => hk h.1.symm⟩

end Merges

section Loads

variable {P S : Type} {schema : Schema P S} {here : Surroundings}

theorem atPath_normalizeFileSearchResultLimit (v : Value) {keys : List String}
    (h : ScopedAt .machine "" keys) :
    (normalizeFileSearchResultLimit v).atPath keys = v.atPath keys := by
  have hsearch : scopeForPath (pathBelow "" ["app", "fileSearch"]) = .ok (some .user) :=
    scopeForPath_members.2.2.2.2 _ (by simp)
  obtain ⟨hbelow, habove⟩ := h.apart (by simp) (shared_app _) hsearch
  unfold normalizeFileSearchResultLimit
  split
  · split
    · exact Value.atPath_setPath_of_not_prefix _ v hbelow habove
    · rfl
  · rfl

theorem atPath_normalizeFileSearchResultLimit_of_state (v : Value) {state : String}
    (h : state = "ideal" ∨ state = "current") :
    (normalizeFileSearchResultLimit v).atPath [state] = v.atPath [state] := by
  have hne : "app" ≠ state := by rcases h with rfl | rfl <;> decide
  unfold normalizeFileSearchResultLimit
  split
  · split
    · apply Value.atPath_setPath_of_not_prefix
      · exact fun hstart => hne (List.cons_prefix_cons.mp hstart).1
      · exact fun hstart => hne (List.cons_prefix_cons.mp hstart).1.symm
    · rfl
  · rfl

theorem scopedAt_state {state : String} {keys : List String}
    (h : state = "ideal" ∨ state = "current") (hkeys : ScopedAt .machine state keys) :
    ScopedAt .machine "" (state :: keys) := by
  have hstate : childPath "" state = state := if_pos rfl
  apply ScopedAt.inside
  · rcases h with rfl | rfl <;> exact scopeForPath_members.2.1 _ (by simp)
  · rw [hstate]
    exact hkeys

theorem isObject_normalizeFileSearchResultLimit (ms : List (String × Value)) :
    ∃ js, normalizeFileSearchResultLimit (.object ms) = .object js := by
  unfold normalizeFileSearchResultLimit
  split
  · split
    · exact ⟨_, rfl⟩
    · exact ⟨_, rfl⟩
  · exact ⟨_, rfl⟩

theorem isObject_renameMonitor (ms : List (String × Value)) (state : String) :
    ∃ js, renameMonitor (.object ms) state = .object js := by
  unfold renameMonitor
  split
  · split
    · exact ⟨_, rfl⟩
    · exact ⟨_, rfl⟩
  · exact ⟨_, rfl⟩

/-- A monitor that has its present name is not renamed. -/
theorem renameMonitor_of_isSome {v : Value} {state : String}
    (h : (v.atPath [state, "privacy", "decoyMonitor"]).isSome) : renameMonitor v state = v := by
  have happend : v.atPath [state, "privacy", "decoyMonitor"] =
      (v.atPath [state, "privacy"]).bind (·.atPath ["decoyMonitor"]) :=
    Value.atPath_append v [state, "privacy"] ["decoyMonitor"]
  rw [happend] at h
  unfold renameMonitor
  cases hprivacy : v.atPath [state, "privacy"] with
  | none => rfl
  | some privacy =>
    rw [hprivacy, Option.bind_some] at h
    cases privacy with
    | object ms =>
      have hlookup : (ms.lookup "decoyMonitor").isSome := by
        rw [Value.atPath_cons, Value.get] at h
        cases hms : ms.lookup "decoyMonitor" with
        | none =>
          rw [hms] at h
          exact h
        | some w => rfl
      obtain ⟨w, hw⟩ := Option.isSome_iff_exists.mp hlookup
      dsimp only
      rw [hw]
    | _ => rfl

/-- What two settings have in common when the second is the first under some overlay. -/
structure SameMachine (schema : Schema P S) (m s : AppSettings P S) : Prop where
  settingsVersion : s.settingsVersion = m.settingsVersion
  appVersion : s.appVersion = m.appVersion
  deviceId : s.deviceId = m.deviceId
  createdAt : s.createdAt = m.createdAt
  policy : s.policy = m.policy
  updateChannel : s.app.updateChannel = m.app.updateChannel
  startSilentlyAtSignIn : s.app.startSilentlyAtSignIn = m.app.startSilentlyAtSignIn
  ideal : ∀ va vb, schema.systemState.toValue m.ideal = .ok va →
    schema.systemState.toValue s.ideal = .ok vb →
      ∀ keys, ScopedAt .machine "ideal" keys → vb.atPath keys = va.atPath keys
  current : ∀ va vb, schema.systemState.toValue m.current = .ok va →
    schema.systemState.toValue s.current = .ok vb →
      ∀ keys, ScopedAt .machine "current" keys → vb.atPath keys = va.atPath keys

/-- The settings agree on everything that belongs to the machine. -/
def SameMachineLeaves (schema : Schema P S) (m s : AppSettings P S) : Prop :=
  ∀ before after, m.toValue schema = .ok before → s.toValue schema = .ok after →
    ∀ keys, MachineLeaf keys → after.atPath keys = before.atPath keys

private theorem scopedAt_app {keys : List String} (h : ScopedAt .machine "app" keys) :
    keys = ["startSilentlyAtSignIn"] ∨ keys = ["updateChannel"] := by
  have hstart : ∀ key : String,
      "app.".toList.isPrefixOf (childPath "app" key).toList = true := by
    intro key
    rw [childPath, if_neg (by decide), String.toList_append, String.toList_append]
    exact List.isPrefixOf_iff_prefix.mpr ⟨key.toList, by simp⟩
  have hne : ∀ key : String, childPath "app" key ≠ "app" := by
    intro key heq
    have hlength := congrArg (fun s => s.toList.length) heq
    simp [childPath] at hlength
  have hscope : ∀ key : String, scopeForPath (childPath "app" key) =
      .ok (some (if childPath "app" key = startupScopePath ∨
        childPath "app" key = "app.updateChannel" then .machine else .user)) := by
    intro key
    rw [scopeForPath, if_neg (hne key), if_pos (hstart key)]
  have hkey : ∀ key name : String, childPath "app" key = "app." ++ name → key = name := by
    intro key name heq
    rw [childPath, if_neg (by decide)] at heq
    exact String.append_right_inj _ |>.mp heq
  cases h with
  | @here _ key hmachine =>
    rw [hscope] at hmachine
    by_cases heq : childPath "app" key = startupScopePath ∨
        childPath "app" key = "app.updateChannel"
    · rcases heq with heq | heq
      · exact .inl (by rw [hkey key "startSilentlyAtSignIn" heq])
      · exact .inr (by rw [hkey key "updateChannel" heq])
    · rw [if_neg heq] at hmachine
      exact absurd hmachine (by simp)
  | @inside _ key _ hnone _ =>
    rw [hscope] at hnone
    exact absurd hnone (by simp)

private theorem lookup_membersWith (s : AppSettings P S) (app ideal current : Value)
    (key : String) : (s.membersWith app ideal current).lookup key =
      if key = "app" then some app
      else if key = "appVersion" then some (.string s.appVersion)
      else if key = "createdAt" then some (.string s.createdAt)
      else if key = "current" then some current
      else if key = "deviceId" then some (.string s.deviceId)
      else if key = "ideal" then some ideal
      else if key = "lastSeenAt" then some (.string s.lastSeenAt)
      else if key = "policy" then some s.policy.toValue
      else if key = "settingsVersion" then some (ofNatural s.settingsVersion.toNat)
      else none := by
  rw [AppSettings.membersWith]
  simp only [Keyed.lookup_cons, List.lookup_nil]

private theorem scopeForPath_root {key : String} {scope : Option SettingsScope}
    (h : scopeForPath (childPath "" key) = .ok scope) : scopeForPath key = .ok scope := by
  rwa [childPath, if_pos rfl] at h

/-- Settings that have the machine's fields in common agree on its leaves. -/
theorem SameMachine.leaves {m s : AppSettings P S} (h : SameMachine schema m s) :
    SameMachineLeaves schema m s := by
  obtain ⟨_, hstates, hseen, _⟩ := scopeForPath_members
  intro before after hbefore hafter keys hkeys
  obtain ⟨app, ideal, current, happ, hideal, hcurrent, rfl⟩ := AppSettings.toValue_ok.mp hbefore
  obtain ⟨app', ideal', current', happ', hideal', hcurrent', rfl⟩ :=
    AppSettings.toValue_ok.mp hafter
  obtain ⟨owned, rest, rfl, howned⟩ := hkeys
  apply Value.atPath_append_congr
  cases howned with
  | @here _ key hmachine =>
    have hscope := scopeForPath_root hmachine
    rw [Value.atPath_cons, Value.atPath_cons, Value.get, Value.get, lookup_membersWith,
      lookup_membersWith, h.appVersion, h.createdAt, h.deviceId, h.policy, h.settingsVersion]
    by_cases hkapp : key = "app"
    · rw [hkapp] at hscope
      cases hscope.symm.trans (scopeForPath_root (hstates _ (by simp)))
    · by_cases hkcurrent : key = "current"
      · rw [hkcurrent] at hscope
        cases hscope.symm.trans (scopeForPath_root (hstates _ (by simp)))
      · by_cases hkideal : key = "ideal"
        · rw [hkideal] at hscope
          cases hscope.symm.trans (scopeForPath_root (hstates _ (by simp)))
        · by_cases hkseen : key = "lastSeenAt"
          · rw [hkseen] at hscope
            cases hscope.symm.trans (scopeForPath_root hseen)
          · simp only [if_neg hkapp, if_neg hkcurrent, if_neg hkideal, if_neg hkseen]
  | @inside _ key keys hnone hrest =>
    have hscope := scopeForPath_root hnone
    have hrest' : ScopedAt .machine key keys := by rwa [childPath, if_pos rfl] at hrest
    rw [Value.atPath_cons, Value.atPath_cons, Value.get, Value.get, lookup_membersWith,
      lookup_membersWith, h.appVersion, h.createdAt, h.deviceId, h.policy, h.settingsVersion]
    by_cases hkapp : key = "app"
    · rw [if_pos hkapp, if_pos hkapp, Option.bind_some, Option.bind_some]
      rw [hkapp] at hrest'
      rcases scopedAt_app hrest' with rfl | rfl
      · rw [Value.atPath_cons, Value.atPath_cons, schema.write_startSilentlyAtSignIn happ,
          schema.write_startSilentlyAtSignIn happ', h.startSilentlyAtSignIn]
      · rw [Value.atPath_cons, Value.atPath_cons, schema.write_updateChannel happ,
          schema.write_updateChannel happ', h.updateChannel]
    · by_cases hkcurrent : key = "current"
      · subst hkcurrent
        exact h.current current current' hcurrent hcurrent' keys hrest'
      · by_cases hkideal : key = "ideal"
        · subst hkideal
          exact h.ideal ideal ideal' hideal hideal' keys hrest'
        · by_cases hkseen : key = "lastSeenAt"
          · rw [hkseen] at hscope
            cases hscope.symm.trans (scopeForPath_root hseen)
          · simp only [if_neg hkapp, if_neg hkcurrent, if_neg hkideal, if_neg hkseen]

theorem sameMachine_applyRuntimeDefaults {m s : AppSettings P S} (h : SameMachine schema m s) :
    SameMachine schema m (applyRuntimeDefaults s) :=
  ⟨h.settingsVersion, h.appVersion, h.deviceId, h.createdAt, h.policy, h.updateChannel,
    h.startSilentlyAtSignIn, h.ideal, h.current⟩

theorem sameMachine_applyPersonalRecoveryDefaults {m s : AppSettings P S}
    (h : SameMachine schema m s) : SameMachine schema m (applyPersonalRecoveryDefaults s) :=
  ⟨h.settingsVersion, h.appVersion, h.deviceId, h.createdAt, h.policy, h.updateChannel,
    h.startSilentlyAtSignIn, h.ideal, h.current⟩

/-- Settings that were parsed have the present version at least and a valid identity. -/
structure Parsed (here : Surroundings) (s : AppSettings P S) : Prop where
  version : settingsVersion ≤ s.settingsVersion.toNat
  deviceId : here.isUuid s.deviceId = true

theorem claimedVersion_of_get {json : Value} {n : UInt32}
    (h : json.get "settingsVersion" = some (ofNatural n.toNat)) :
    claimedVersion json = n.toNat := by
  have hlt : n.toNat < 2 ^ 32 := n.toNat_lt
  have hu64 : asU64 (ofNatural n.toNat) = some n.toNat := by
    rw [asU64, natural_ofNatural]
    exact Option.filter_eq_some_iff.mpr ⟨rfl, decide_eq_true (by omega)⟩
  rw [claimedVersion, h, Option.bind_some, hu64]
  exact Nat.mod_eq_of_lt hlt

/-- Written settings have the monitor under its present name, whatever is laid over them. -/
private theorem migrateLegacyMonitorNames_merge (m : AppSettings P S) (app : Value)
    {ideal current o : Value} (hideal : (ideal.atPath ["privacy", "decoyMonitor"]).isSome)
    (hcurrent : (current.atPath ["privacy", "decoyMonitor"]).isSome) (ho : UserValue o "") :
    migrateLegacyMonitorNames ((Value.object (m.membersWith app ideal current)).merge o) =
      (Value.object (m.membersWith app ideal current)).merge o := by
  have hidealAt : ((Value.object (m.membersWith app ideal current)).atPath
      ["ideal", "privacy", "decoyMonitor"]).isSome := by
    rw [Value.atPath_cons, Value.get, lookup_membersWith]
    simpa using hideal
  have hcurrentAt : ((Value.object (m.membersWith app ideal current)).atPath
      ["current", "privacy", "decoyMonitor"]).isSome := by
    rw [Value.atPath_cons, Value.get, lookup_membersWith]
    simpa using hcurrent
  rw [migrateLegacyMonitorNames,
    renameMonitor_of_isSome (ho.isSome_atPath_merge (shared_privacy _).1 hidealAt),
    renameMonitor_of_isSome (ho.isSome_atPath_merge (shared_privacy _).2 hcurrentAt)]

section Read

variable {m r : AppSettings P S} {app ideal current : Value} {js : List (String × Value)}

private theorem lookup_of_atPath
    (hat : ∀ keys, ScopedAt .machine "" keys → (Value.object js).atPath keys =
      (Value.object (m.membersWith app ideal current)).atPath keys) (key : String)
    (hkey : scopeForPath (childPath "" key) = .ok (some .machine)) :
    js.lookup key = (m.membersWith app ideal current).lookup key := by
  have hlooked := hat [key] (.here hkey)
  rw [Value.atPath_cons, Value.atPath_cons, Value.get, Value.get] at hlooked
  simpa using hlooked

/-- A preference of the machine, as it is read. -/
private theorem get_app_of_atPath
    (hat : ∀ keys, ScopedAt .machine "" keys → (Value.object js).atPath keys =
      (Value.object (m.membersWith app ideal current)).atPath keys) {key : String} {w : Value}
    (hkey : ScopedAt .machine "" ["app", key]) (hwritten : app.get key = some w) :
    ∃ v, js.lookup "app" = some v ∧ v.get key = some w := by
  have hlooked := hat ["app", key] hkey
  rw [Value.atPath_cons, Value.atPath_cons, Value.get, Value.get, lookup_membersWith, if_pos rfl,
    Option.bind_some, Value.atPath_cons, hwritten] at hlooked
  obtain ⟨v, hv, hat⟩ := Option.bind_eq_some_iff.mp hlooked
  rw [Value.atPath_cons] at hat
  obtain ⟨x, hx, hxw⟩ := Option.bind_eq_some_iff.mp hat
  rw [Value.atPath_nil] at hxw
  exact ⟨v, hv, hx.trans hxw⟩

/-- A system state that is read agrees on the machine's leaves with the one that was written. -/
private theorem systemState_of_atPath
    (hat : ∀ keys, ScopedAt .machine "" keys → (Value.object js).atPath keys =
      (Value.object (m.membersWith app ideal current)).atPath keys)
    {path : String} {va vr v : Value} {a b : SystemState S} {keys : List String}
    (hpath : path = "ideal" ∨ path = "current")
    (hlooked : (m.membersWith app ideal current).lookup path = some va)
    (ha : schema.systemState.toValue a = .ok va) (hv : js.lookup path = some v)
    (hb : schema.systemState.fromValue v = .ok b) (hvr : schema.systemState.toValue b = .ok vr)
    (hkeys : ScopedAt .machine path keys) : vr.atPath keys = va.atPath keys := by
  have hbelow := hat (path :: keys) (scopedAt_state hpath hkeys)
  rw [Value.atPath_cons, Value.atPath_cons, Value.get, Value.get, hv, hlooked] at hbelow
  exact schema.keeps_systemState hpath hkeys ha hb hvr hbelow

private theorem scopedAt_preferences : ScopedAt .machine "" ["app", "updateChannel"] ∧
    ScopedAt .machine "" ["app", "startSilentlyAtSignIn"] := by
  have hmachine := scopeForPath_members.2.2.2.1
  exact ⟨.inside scopeForPath_app (.here (hmachine _ (by simp))),
    .inside scopeForPath_app (.here (hmachine _ (by simp)))⟩

/-- Settings read from members that agree with written ones wherever the machine owns them. -/
private theorem sameMachine_of_readFrom
    (happ : schema.preferences.toValue m.app = .ok app)
    (hideal : schema.systemState.toValue m.ideal = .ok ideal)
    (hcurrent : schema.systemState.toValue m.current = .ok current)
    (hat : ∀ keys, ScopedAt .machine "" keys → (Value.object js).atPath keys =
      (Value.object (m.membersWith app ideal current)).atPath keys)
    (hpresent : ∀ path, path = "ideal" ∨ path = "current" → ∃ v, js.lookup path = some v)
    (hread : AppSettings.ReadFrom schema js r) : SameMachine schema m r := by
  have hmachine := scopeForPath_members.1
  constructor
  case settingsVersion =>
    have hlooked := lookup_of_atPath hat "settingsVersion" (hmachine _ (by simp))
    rw [lookup_membersWith] at hlooked
    have hversion := hread.settingsVersion _ hlooked
    exact (Except.ok.inj ((u32_ofNatural _).symm.trans hversion)).symm
  case appVersion =>
    have hlooked := lookup_of_atPath hat "appVersion" (hmachine _ (by simp))
    rw [lookup_membersWith] at hlooked
    exact (Except.ok.inj (hread.appVersion _ hlooked)).symm
  case deviceId =>
    have hlooked := lookup_of_atPath hat "deviceId" (hmachine _ (by simp))
    rw [lookup_membersWith] at hlooked
    exact (Except.ok.inj (hread.deviceId _ hlooked)).symm
  case createdAt =>
    have hlooked := lookup_of_atPath hat "createdAt" (hmachine _ (by simp))
    rw [lookup_membersWith] at hlooked
    exact (Except.ok.inj (hread.createdAt _ hlooked)).symm
  case policy =>
    have hlooked := lookup_of_atPath hat "policy" (hmachine _ (by simp))
    rw [lookup_membersWith] at hlooked
    have hpolicy := hread.policy _ hlooked
    rw [PolicySettings.fromValue_toValue] at hpolicy
    exact (Except.ok.inj hpolicy).symm
  case updateChannel =>
    obtain ⟨v, hv, hget⟩ := get_app_of_atPath hat scopedAt_preferences.1
      (schema.write_updateChannel happ)
    exact schema.read_updateChannel (hread.app v hv) hget
  case startSilentlyAtSignIn =>
    obtain ⟨v, hv, hget⟩ := get_app_of_atPath hat scopedAt_preferences.2
      (schema.write_startSilentlyAtSignIn happ)
    exact schema.read_startSilentlyAtSignIn (hread.app v hv) hget
  case ideal =>
    intro va vb hva hvb keys hkeys
    obtain ⟨v, hv⟩ := hpresent "ideal" (.inl rfl)
    have heq : va = ideal := Except.ok.inj (hva.symm.trans hideal)
    have hlooked : (m.membersWith app ideal current).lookup "ideal" = some va := by
      rw [lookup_membersWith, heq]
      rfl
    exact systemState_of_atPath hat (.inl rfl) hlooked hva hv (hread.ideal v hv) hvb hkeys
  case current =>
    intro va vb hva hvb keys hkeys
    obtain ⟨v, hv⟩ := hpresent "current" (.inr rfl)
    have heq : va = current := Except.ok.inj (hva.symm.trans hcurrent)
    have hlooked : (m.membersWith app ideal current).lookup "current" = some va := by
      rw [lookup_membersWith, heq]
      rfl
    exact systemState_of_atPath hat (.inr rfl) hlooked hva hv (hread.current v hv) hvb hkeys

end Read

/-- The machine's settings under the overlay of an account keep what belongs to the machine. -/
theorem sameMachine_of_mergeUserOverlay {m s : AppSettings P S} {overlay : Value}
    (hparsed : Parsed here m) (hoverlay : UserValue overlay "")
    (h : mergeUserOverlay schema here m overlay = .ok s) : SameMachine schema m s := by
  unfold mergeUserOverlay at h
  obtain ⟨base, hbase, h⟩ := bind_ok.mp h
  have hbase := mapError_ok.mp hbase
  have hlaid := ((hoverlay.removePersonalChoice "startSilentlyAtSignIn").removePersonalChoice
    "updateChannel").normalizeFileSearchResultLimit
  generalize normalizeFileSearchResultLimit (removePersonalChoice "updateChannel"
    (removePersonalChoice "startSilentlyAtSignIn" overlay)) = laid at h hlaid
  obtain ⟨app, ideal, current, happ, hideal, hcurrent, rfl⟩ := AppSettings.toValue_ok.mp hbase
  have hroot : scopeForPath "" = .ok none := rfl
  have hmonitor := migrateLegacyMonitorNames_merge m app (schema.write_decoyMonitor hideal)
    (schema.write_decoyMonitor hcurrent) hlaid
  have hkeeps : ∀ keys, ScopedAt .machine "" keys →
      ((Value.object (m.membersWith app ideal current)).merge laid).atPath keys =
        (Value.object (m.membersWith app ideal current)).atPath keys :=
    fun keys hkeys => hlaid.atPath_merge hroot hkeys
  have hstates : ∀ path, path = "ideal" ∨ path = "current" →
      (((Value.object (m.membersWith app ideal current)).merge laid).atPath [path]).isSome := by
    intro path hpath
    apply hlaid.isSome_atPath_merge (show Shared "" [path] from ⟨hroot, trivial⟩)
    rw [Value.atPath_cons, Value.get, lookup_membersWith]
    rcases hpath with rfl | rfl <;> rfl
  obtain ⟨os, rfl, _⟩ := hlaid.object_of_shared hroot
  rw [Value.merge_object] at h hmonitor hkeeps hstates
  generalize Value.mergeMembers (m.membersWith app ideal current) os = ms
    at h hmonitor hkeeps hstates
  -- The version is the machine's, so nothing is migrated.
  have hversion : claimedVersion (.object ms) = m.settingsVersion.toNat := by
    apply claimedVersion_of_get
    have hlooked := lookup_of_atPath hkeeps "settingsVersion"
      (scopeForPath_members.1 _ (by simp))
    rw [lookup_membersWith] at hlooked
    exact hlooked
  unfold parseAndMigrate at h
  dsimp only at h
  rw [hversion, if_neg (Nat.not_lt.mpr hparsed.version), hmonitor] at h
  obtain ⟨r, hr, h⟩ := bind_ok.mp h
  have hr := mapError_ok.mp hr
  cases pure_ok.mp h
  obtain ⟨js, hjs⟩ := isObject_normalizeFileSearchResultLimit ms
  have hat : ∀ keys, ScopedAt .machine "" keys → (Value.object js).atPath keys =
      (Value.object (m.membersWith app ideal current)).atPath keys := by
    intro keys hkeys
    rw [← hjs, atPath_normalizeFileSearchResultLimit _ hkeys]
    exact hkeeps keys hkeys
  have hpresent : ∀ path, path = "ideal" ∨ path = "current" → ∃ v, js.lookup path = some v := by
    intro path hpath
    have hsome := hstates path hpath
    rw [← atPath_normalizeFileSearchResultLimit_of_state _ hpath, hjs, Value.atPath_cons,
      Value.get] at hsome
    cases hlooked : js.lookup path with
    | some v => exact ⟨v, rfl⟩
    | none =>
      rw [hlooked] at hsome
      exact absurd hsome (by simp)
  rw [hjs] at hr
  have hsame := sameMachine_of_readFrom happ hideal hcurrent hat hpresent
    (AppSettings.readFrom_of_fromValue hr)
  have hvalid : ensureValidDeviceId here r = r := if_pos (hsame.deviceId ▸ hparsed.deviceId)
  rw [hvalid]
  exact sameMachine_applyRuntimeDefaults hsame

theorem get_renameMonitor (v : Value) (state key : String) (hne : key ≠ state) :
    (renameMonitor v state).get key = v.get key := by
  have hat : ∀ child : Value, (Value.setPath [state, "privacy"] child v).atPath [key] =
      v.atPath [key] := by
    intro child
    apply Value.atPath_setPath_of_not_prefix
    · exact fun hstart => hne (List.cons_prefix_cons.mp hstart).1.symm
    · exact fun hstart => hne (List.cons_prefix_cons.mp hstart).1
  unfold renameMonitor
  split
  · split
    · simpa using hat _
    · rfl
  · rfl

theorem get_normalizeFileSearchResultLimit (v : Value) (key : String) (hne : key ≠ "app") :
    (normalizeFileSearchResultLimit v).get key = v.get key := by
  have hat : ∀ child : Value, (Value.setPath ["app", "fileSearch"] child v).atPath [key] =
      v.atPath [key] := by
    intro child
    apply Value.atPath_setPath_of_not_prefix
    · exact fun hstart => hne (List.cons_prefix_cons.mp hstart).1.symm
    · exact fun hstart => hne (List.cons_prefix_cons.mp hstart).1
  unfold normalizeFileSearchResultLimit
  split
  · split
    · simpa using hat _
    · rfl
  · rfl

/-- A version that is not migrated is read as it is claimed. -/
theorem settingsVersion_le_of_claimedVersion {mismatch : Value → String → String}
    {json v : Value} {n : UInt32}
    (hclaimed : ¬ claimedVersion json < settingsVersion)
    (hget : json.get "settingsVersion" = some v) (hread : u32 mismatch v = .ok n) :
    settingsVersion ≤ n.toNat := by
  rw [claimedVersion, hget, Option.bind_some, asU64] at hclaimed
  unfold u32 at hread
  cases hnatural : natural v with
  | none =>
    rw [hnatural] at hread
    exact absurd hread (by simp)
  | some i =>
    rw [hnatural] at hread hclaimed
    dsimp only at hread
    by_cases hlt : i < 2 ^ 32
    · have hu64 : (some i).filter (fun j => decide (j < 2 ^ 64)) = some i :=
        Option.filter_eq_some_iff.mpr ⟨rfl, decide_eq_true (by omega)⟩
      rw [if_pos hlt] at hread
      rw [hu64, Option.getD_some, Nat.mod_eq_of_lt hlt] at hclaimed
      rw [← Except.ok.inj hread, UInt32.toNat_ofNat_of_lt' hlt]
      exact Nat.le_of_not_lt hclaimed
    · rw [if_neg hlt] at hread
      exact absurd hread (by simp)

theorem parsed_of_parseAndMigrate {ms : List (String × Value)} {s : AppSettings P S}
    (h : parseAndMigrate schema here (.object ms) = .ok s) : Parsed here s := by
  unfold parseAndMigrate at h
  obtain ⟨r, hr, h⟩ := bind_ok.mp h
  have hr := mapError_ok.mp hr
  cases pure_ok.mp h
  have hmigrated : ∃ ns, (if claimedVersion (.object ms) < settingsVersion then
      migrateSettings (.object ms) else .object ms) = .object ns ∧
        (claimedVersion (.object ms) < settingsVersion →
          ns.lookup "settingsVersion" = some (ofNatural settingsVersion)) ∧
          (¬ claimedVersion (.object ms) < settingsVersion → ns = ms) := by
    by_cases hold : claimedVersion (.object ms) < settingsVersion
    · rw [if_pos hold]
      exact ⟨_, rfl, fun _ => lookup_insert_self _ _ _, fun hnew => absurd hold hnew⟩
    · rw [if_neg hold]
      exact ⟨ms, rfl, fun h => absurd h hold, fun _ => rfl⟩
  obtain ⟨ns, hns, hold, hnew⟩ := hmigrated
  rw [hns, migrateLegacyMonitorNames] at hr
  obtain ⟨is, his⟩ := isObject_renameMonitor ns "ideal"
  rw [his] at hr
  obtain ⟨cs, hcs⟩ := isObject_renameMonitor is "current"
  rw [hcs] at hr
  obtain ⟨js, hjs⟩ := isObject_normalizeFileSearchResultLimit cs
  rw [hjs] at hr
  have hread := AppSettings.readFrom_of_fromValue hr
  have hget : js.lookup "settingsVersion" = ns.lookup "settingsVersion" := by
    have hlimit := get_normalizeFileSearchResultLimit (.object cs) "settingsVersion" (by decide)
    have hcurrent := get_renameMonitor (.object is) "current" "settingsVersion" (by decide)
    have hideal := get_renameMonitor (.object ns) "ideal" "settingsVersion" (by decide)
    rw [hjs] at hlimit
    rw [hcs] at hcurrent
    rw [his] at hideal
    exact hlimit.trans (hcurrent.trans hideal)
  constructor
  case version =>
    have hkept : (applyRuntimeDefaults (ensureValidDeviceId here r)).settingsVersion =
        r.settingsVersion := by
      unfold ensureValidDeviceId
      split <;> rfl
    rw [hkept]
    by_cases hversion : claimedVersion (.object ms) < settingsVersion
    · have hlooked := hread.settingsVersion _ (hget.trans (hold hversion))
      have hu32 := @u32_ofNatural schema.mismatch (UInt32.ofNat settingsVersion)
      rw [← Except.ok.inj (hu32.symm.trans hlooked)]
      exact Nat.le_refl _
    · rw [hnew hversion] at hget
      cases hlooked : ms.lookup "settingsVersion" with
      | none =>
        have hnone : (Value.object ms).get "settingsVersion" = none := hlooked
        rw [claimedVersion, hnone] at hversion
        exact absurd (show 1 < settingsVersion by decide) hversion
      | some v =>
        exact settingsVersion_le_of_claimedVersion hversion hlooked
          (hread.settingsVersion v (hget.trans hlooked))
  case deviceId =>
    unfold ensureValidDeviceId
    split
    · next hvalid => exact hvalid
    · exact here.isUuid_newDeviceId

theorem parsed_of_loadMachine {stored : Value} {legacySettings overlay : Option Value}
    {machine : AppSettings P S}
    (h : loadMachine schema here stored legacySettings = .ok (machine, overlay)) :
    Parsed here machine ∧ ∀ o, overlay = some o → UserValue o "" := by
  unfold loadMachine at h
  obtain ⟨⟨value, own⟩, hvalue, h⟩ := bind_ok.mp h
  obtain ⟨s, hs, h⟩ := bind_ok.mp h
  cases pure_ok.mp h
  unfold loadMachineValue at hvalue
  split at hvalue
  · cases legacySettings with
    | some json =>
      obtain ⟨_, _, hvalue⟩ := bind_ok.mp hvalue
      obtain ⟨_, _, hvalue⟩ := bind_ok.mp hvalue
      obtain ⟨⟨part, user⟩, hsplit, hvalue⟩ := bind_ok.mp hvalue
      cases pure_ok.mp hvalue
      obtain ⟨ms, us, _, rfl, _⟩ := splitSettingsValue_ok.mp hsplit
      refine ⟨parsed_of_parseAndMigrate hs, fun o ho => ?_⟩
      rw [← Option.some.inj ho]
      exact userValue_of_splitSettingsValue hsplit
    | none =>
      obtain ⟨_, _, hvalue⟩ := bind_ok.mp hvalue
      obtain ⟨⟨part, user⟩, hsplit, hvalue⟩ := bind_ok.mp hvalue
      cases pure_ok.mp hvalue
      obtain ⟨ms, us, _, rfl, _⟩ := splitSettingsValue_ok.mp hsplit
      exact ⟨parsed_of_parseAndMigrate hs, fun o ho => absurd ho (by simp)⟩
  · obtain ⟨⟨part, user⟩, hsplit, hvalue⟩ := bind_ok.mp hvalue
    cases pure_ok.mp hvalue
    obtain ⟨ms, us, _, rfl, _⟩ := splitSettingsValue_ok.mp hsplit
    exact ⟨parsed_of_parseAndMigrate hs, fun o ho => absurd ho (by simp)⟩

/-- Whatever an account's personal settings hold, the machine's leaves are the machine's. -/
theorem sameMachineLeaves_of_resolveSettings {machine s : AppSettings P S}
    {legacyOverlay : Option Value} {loaded : PersonalSettings.Session × Option Value}
    (hparsed : Parsed here machine) (hlegacy : ∀ o, legacyOverlay = some o → UserValue o "")
    (hloaded : ∀ o, loaded.2 = some o → UserValue o "")
    (h : resolveSettings schema here machine legacyOverlay loaded = .ok s) :
    SameMachineLeaves schema machine s := by
  unfold resolveSettings at h
  obtain ⟨defaults, hdefaults, h⟩ := bind_ok.mp h
  obtain ⟨merged, hmerged, h⟩ := bind_ok.mp h
  have hoverlay : UserValue ((loaded.2.or legacyOverlay).getD defaults) "" := by
    cases hpersonal : loaded.2 with
    | some o => exact hloaded o hpersonal
    | none =>
      cases legacyOverlay with
      | some o => exact hlegacy o rfl
      | none =>
        unfold defaultUserOverlay at hdefaults
        obtain ⟨_, _, hdefaults⟩ := bind_ok.mp hdefaults
        obtain ⟨parts, hsplit, hdefaults⟩ := bind_ok.mp hdefaults
        cases pure_ok.mp hdefaults
        exact userValue_of_splitSettingsValue hsplit
  have hsame := sameMachine_of_mergeUserOverlay hparsed hoverlay hmerged
  rw [← pure_ok.mp h]
  split
  · exact (sameMachine_applyPersonalRecoveryDefaults hsame).leaves
  · exact hsame.leaves

end Loads

section Contract

variable {P S : Type} (schema : Schema P S) (here : Surroundings)

/-- Overlays of accounts stay off the machine's settings, and the split is a partition. -/
structure OverlaysConfined : Prop where
  confined : ∀ stored legacySettings machine legacyOverlay service migrated legacy secretReader
    openEnvelope loaded settings,
      loadMachine schema here stored legacySettings = .ok (machine, legacyOverlay) →
        PersonalSettings.loadWithOpen service migrated legacy secretReader openEnvelope =
          .ok loaded →
          resolveSettings schema here machine legacyOverlay loaded = .ok settings →
            SameMachineLeaves schema machine settings
  disjoint : ∀ (v : Document) machine user, splitSettingsValue v.value = .ok (machine, user) →
    ∀ keys x y, machine.atPath keys = some x → user.atPath keys = some y →
      x.isObject = true ∧ y.isObject = true
  rejoined : ∀ (v : Document) machine user, v.value.isObject = true →
    splitSettingsValue v.value = .ok (machine, user) → ∀ keys leaf,
      (LeafAt (machine.merge user) keys leaf ↔ LeafAt v.value keys leaf) ∧
        (LeafAt (user.merge machine) keys leaf ↔ LeafAt v.value keys leaf)

end Contract

end Settings
