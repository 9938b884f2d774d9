import WinCommander.Settings.Scope

/-!
# The partition of the settings

The split of a settings object is a partition: the two parts have no leaf in common, and merged in
either order they have the leaves of the object.
-/

namespace Settings

open Json Outcome

section Parts

/-- The two parts of a value put together again, if there are any. -/
def mergeParts : Option Value → Option Value → Option Value
  | some v, some w => some (v.merge w)
  | some v, none => some v
  | none, w => w

/-- The value of a leaf: anything but an object. -/
def LeafAt (v : Value) (path : List String) (leaf : Value) : Prop :=
  v.atPath path = some leaf ∧ leaf.isObject = false

theorem splitEntries_keys {entries ms us : List (String × Value)} {path : String}
    (h : splitEntries entries path = .ok (ms, us)) :
    (ms.map Prod.fst).Sublist (entries.map Prod.fst) ∧
      (us.map Prod.fst).Sublist (entries.map Prod.fst) := by
  induction entries generalizing ms us with
  | nil =>
    rw [splitEntries, pure_ok] at h
    cases h
    exact ⟨List.Sublist.refl _, List.Sublist.refl _⟩
  | cons e entries ih =>
    obtain ⟨key, child⟩ := e
    obtain ⟨m, u, ms', us', _, hrest, rfl, rfl⟩ := splitEntries_cons_ok.mp h
    have hsub := ih hrest
    have hkeep : ∀ (part : Option Value) (parts : List (String × Value)),
        (parts.map Prod.fst).Sublist (entries.map Prod.fst) →
          ((keep key part parts).map Prod.fst).Sublist (((key, child) :: entries).map Prod.fst) := by
      intro part parts hparts
      cases part with
      | none => exact hparts.cons key
      | some v => exact hparts.cons_cons key
    exact ⟨hkeep m ms' hsub.1, hkeep u us' hsub.2⟩

theorem lookup_keep {key k : String} {part : Option Value} {parts : List (String × Value)} :
    (keep key part parts).lookup k =
      if k = key then part.or (parts.lookup k) else parts.lookup k := by
  cases part with
  | none => simp [keep]
  | some v =>
    rw [keep, Keyed.lookup_cons]
    rfl

theorem lookup_eq_none_of_keys {ms : List (String × Value)} {k : String}
    (h : k ∉ ms.map Prod.fst) : ms.lookup k = none := by
  cases hlookup : ms.lookup k with
  | none => rfl
  | some v => exact absurd (List.mem_map.mpr ⟨(k, v), mem_of_lookup hlookup, rfl⟩) h

/-- The parts of a member are the members of the parts. -/
theorem lookup_splitEntries {entries ms us : List (String × Value)} {path : String}
    (hnd : (entries.map Prod.fst).Nodup) (h : splitEntries entries path = .ok (ms, us))
    (k : String) :
    match entries.lookup k with
    | none => ms.lookup k = none ∧ us.lookup k = none
    | some v => split v (childPath path k) = .ok (ms.lookup k, us.lookup k) := by
  induction entries generalizing ms us with
  | nil =>
    rw [splitEntries, pure_ok] at h
    cases h
    exact ⟨rfl, rfl⟩
  | cons e entries ih =>
    obtain ⟨key, child⟩ := e
    obtain ⟨m, u, ms', us', hchild, hrest, rfl, rfl⟩ := splitEntries_cons_ok.mp h
    rw [List.map_cons, List.nodup_cons] at hnd
    rw [Keyed.lookup_cons, lookup_keep, lookup_keep]
    by_cases hk : k = key
    · have hkeys := splitEntries_keys hrest
      have hms : ms'.lookup key = none :=
        lookup_eq_none_of_keys fun hmem => hnd.1 (hkeys.1.subset hmem)
      have hus : us'.lookup key = none :=
        lookup_eq_none_of_keys fun hmem => hnd.1 (hkeys.2.subset hmem)
      rw [if_pos hk, if_pos hk, if_pos hk, hk, hms, hus, Option.or_none, Option.or_none]
      exact hchild
    · rw [if_neg hk, if_neg hk, if_neg hk]
      exact ih hnd.2 hrest

/-- Objects of parts merge member by member. -/
theorem get_merge_object (as : List (String × Value)) {bs : List (String × Value)}
    (hnd : (bs.map Prod.fst).Nodup) (k : String) :
    ((Value.object as).merge (.object bs)).get k = mergeParts (as.lookup k) (bs.lookup k) := by
  rw [Value.merge_object, Value.get, Value.lookup_mergeMembers as hnd]
  cases bs.lookup k with
  | none => cases as.lookup k <;> rfl
  | some w =>
    cases as.lookup k with
    | none => exact congrArg some (Value.merge_null w)
    | some v => rfl

theorem get_mergeParts (as : List (String × Value)) {bs : List (String × Value)}
    (hnd : (bs.map Prod.fst).Nodup) (k : String) :
    (mergeParts (nonemptyObject as) (nonemptyObject bs)).bind (·.get k) =
      mergeParts (as.lookup k) (bs.lookup k) := by
  by_cases has : as = []
  · rw [has, nonemptyObject, if_pos rfl, mergeParts]
    by_cases hbs : bs = []
    · rw [hbs, nonemptyObject, if_pos rfl]
      rfl
    · rw [nonemptyObject, if_neg hbs]
      rfl
  · rw [nonemptyObject, if_neg has]
    by_cases hbs : bs = []
    · rw [hbs, nonemptyObject, if_pos rfl, mergeParts, List.lookup_nil]
      cases hlookup : as.lookup k with
      | none => exact hlookup
      | some v => exact hlookup
    · rw [nonemptyObject, if_neg hbs, mergeParts]
      exact get_merge_object as hnd k

theorem isObject_mergeParts {as bs : List (String × Value)} {w : Value}
    (h : mergeParts (nonemptyObject as) (nonemptyObject bs) = some w) : w.isObject = true := by
  unfold nonemptyObject at h
  by_cases has : as = []
  · rw [if_pos has, mergeParts] at h
    split at h
    · exact absurd h (by simp)
    · rw [← Option.some.inj h]
      rfl
  · rw [if_neg has] at h
    split at h
    · rw [← Option.some.inj h]
      rfl
    · rw [← Option.some.inj h, Value.merge_object]
      rfl

/-- The parts of a value, in either order. -/
def SplitInto (v : Value) (path : String) (a b : Option Value) : Prop :=
  split v path = .ok (a, b) ∨ split v path = .ok (b, a)

/-- A value is one of its own parts, or its parts are those of its members. -/
theorem splitInto_cases {v : Value} {path : String} {a b : Option Value}
    (h : SplitInto v path a b) (hunique : v.UniqueKeys) :
    (a = some v ∧ b = none) ∨ (a = none ∧ b = some v) ∨
      ∃ entries as bs, v = .object entries ∧ a = nonemptyObject as ∧ b = nonemptyObject bs ∧
        (as.map Prod.fst).Nodup ∧ (bs.map Prod.fst).Nodup ∧
          (∀ m ∈ entries, m.2.UniqueKeys) ∧
            ∀ k, match entries.lookup k with
              | none => as.lookup k = none ∧ bs.lookup k = none
              | some w => SplitInto w (childPath path k) (as.lookup k) (bs.lookup k) := by
  rcases h with h | h
  · rcases split_ok.mp h with ⟨_, ha, hb⟩ | ⟨_, ha, hb⟩ | ⟨_, entries, ms, us, rfl, hsplit, ha, hb⟩
    · exact .inl ⟨ha, hb⟩
    · exact .inr (.inl ⟨ha, hb⟩)
    · cases hunique with
      | object hnd hmembers =>
        have hkeys := splitEntries_keys hsplit
        refine .inr (.inr ⟨entries, ms, us, rfl, ha, hb, hnd.sublist hkeys.1,
          hnd.sublist hkeys.2, hmembers, fun k => ?_⟩)
        have hlookup := lookup_splitEntries hnd hsplit k
        cases hk : entries.lookup k with
        | none =>
          rw [hk] at hlookup
          exact hlookup
        | some w =>
          rw [hk] at hlookup
          exact .inl hlookup
  · rcases split_ok.mp h with ⟨_, hb, ha⟩ | ⟨_, hb, ha⟩ | ⟨_, entries, ms, us, rfl, hsplit, hb, ha⟩
    · exact .inr (.inl ⟨ha, hb⟩)
    · exact .inl ⟨ha, hb⟩
    · cases hunique with
      | object hnd hmembers =>
        have hkeys := splitEntries_keys hsplit
        refine .inr (.inr ⟨entries, us, ms, rfl, ha, hb, hnd.sublist hkeys.2,
          hnd.sublist hkeys.1, hmembers, fun k => ?_⟩)
        have hlookup := lookup_splitEntries hnd hsplit k
        cases hk : entries.lookup k with
        | none =>
          rw [hk] at hlookup
          exact hlookup.symm
        | some w =>
          rw [hk] at hlookup
          exact .inr hlookup

/-- Where both parts of a value have something, both have an object. -/
theorem isObject_of_both {v : Value} {path : String} {a b : Option Value} {keys : List String}
    {x y : Value} (h : SplitInto v path a b) (hunique : v.UniqueKeys)
    (hx : a.bind (·.atPath keys) = some x) (hy : b.bind (·.atPath keys) = some y) :
    x.isObject = true ∧ y.isObject = true := by
  induction keys generalizing v path a b with
  | nil =>
    rcases splitInto_cases h hunique with
      ⟨_, rfl⟩ | ⟨rfl, _⟩ | ⟨entries, as, bs, _, rfl, rfl, _⟩
    · exact absurd hy (by simp)
    · exact absurd hx (by simp)
    · have hobject : ∀ {ms : List (String × Value)} {z : Value},
          (nonemptyObject ms).bind (·.atPath []) = some z → z.isObject = true := by
        intro ms z hz
        obtain ⟨w, hw, hzw⟩ := Option.bind_eq_some_iff.mp hz
        have hz' : w = z := by simpa using hzw
        rw [← hz', (nonemptyObject_eq_some hw).1]
        rfl
      exact ⟨hobject hx, hobject hy⟩
  | cons k keys ih =>
    rcases splitInto_cases h hunique with
      ⟨_, rfl⟩ | ⟨rfl, _⟩ | ⟨entries, as, bs, _, rfl, rfl, _, _, hmembers, hlookup⟩
    · exact absurd hy (by simp)
    · exact absurd hx (by simp)
    · have hget : ∀ {ms : List (String × Value)} {z : Value},
          (nonemptyObject ms).bind (·.atPath (k :: keys)) = some z →
            (ms.lookup k).bind (·.atPath keys) = some z := by
        intro ms z hz
        obtain ⟨w, hw, hzw⟩ := Option.bind_eq_some_iff.mp hz
        rw [(nonemptyObject_eq_some hw).1, Value.atPath_cons, Value.get] at hzw
        exact hzw
      have hk := hlookup k
      cases hentry : entries.lookup k with
      | none =>
        rw [hentry] at hk
        have hx' := hget hx
        rw [hk.1] at hx'
        exact absurd hx' (by simp)
      | some w =>
        rw [hentry] at hk
        exact ih hk (hmembers _ (mem_of_lookup hentry)) (hget hx) (hget hy)

/-- The leaves of the parts put together are those of the value. -/
theorem leafAt_mergeParts {v : Value} {path : String} {a b : Option Value} {keys : List String}
    {leaf : Value} (h : SplitInto v path a b) (hunique : v.UniqueKeys)
    (hleaf : leaf.isObject = false) :
    (mergeParts a b).bind (·.atPath keys) = some leaf ↔ v.atPath keys = some leaf := by
  induction keys generalizing v path a b with
  | nil =>
    rcases splitInto_cases h hunique with
      ⟨rfl, rfl⟩ | ⟨rfl, rfl⟩ | ⟨entries, as, bs, rfl, rfl, rfl, _⟩
    · rfl
    · rfl
    · constructor
      · intro heq
        obtain ⟨w, hw, hwleaf⟩ := Option.bind_eq_some_iff.mp heq
        have hw' : w = leaf := by simpa using hwleaf
        rw [← hw', isObject_mergeParts hw] at hleaf
        exact absurd hleaf (by simp)
      · intro heq
        have hobject : Value.object entries = leaf := by simpa using heq
        rw [← hobject] at hleaf
        exact absurd hleaf (by simp [Value.isObject])
  | cons k keys ih =>
    rcases splitInto_cases h hunique with
      ⟨rfl, rfl⟩ | ⟨rfl, rfl⟩ | ⟨entries, as, bs, rfl, rfl, rfl, _, hbs, hmembers, hlookup⟩
    · rfl
    · rfl
    · have hmerged : (mergeParts (nonemptyObject as) (nonemptyObject bs)).bind
          (·.atPath (k :: keys)) = (mergeParts (as.lookup k) (bs.lookup k)).bind (·.atPath keys) := by
        rw [← get_mergeParts as hbs k]
        simp only [Value.atPath_cons, Option.bind_assoc]
      rw [hmerged, Value.atPath_cons, Value.get]
      have hk := hlookup k
      cases hentry : entries.lookup k with
      | none =>
        rw [hentry] at hk
        rw [hk.1, hk.2]
        rfl
      | some w =>
        rw [hentry] at hk
        exact ih hk (hmembers _ (mem_of_lookup hentry))

end Parts

section Roots

variable {v : Document} {machine user : Value}

private theorem nodup_members : (v.value.members.map Prod.fst).Nodup := by
  have hunique := v.uniqueKeys
  generalize v.value = value at hunique
  cases hunique with
  | object hnd _ => exact hnd
  | _ => exact List.nodup_nil

private theorem uniqueKeys_of_lookup {key : String} {w : Value}
    (h : v.value.members.lookup key = some w) : w.UniqueKeys := by
  have hunique := v.uniqueKeys
  cases hv : v.value with
  | object entries =>
    rw [hv] at hunique h
    cases hunique with
    | object _ hmembers => exact hmembers _ (mem_of_lookup h)
  | _ =>
    rw [hv] at h
    exact absurd h (by simp [Value.members])

/-- The parts of settings have no leaf in common. -/
theorem isObject_of_splitSettingsValue {x y : Value} {keys : List String}
    (h : splitSettingsValue v.value = .ok (machine, user)) (hx : machine.atPath keys = some x)
    (hy : user.atPath keys = some y) : x.isObject = true ∧ y.isObject = true := by
  obtain ⟨ms, us, hsplit, rfl, rfl⟩ := splitSettingsValue_ok.mp h
  cases keys with
  | nil =>
    rw [Value.atPath_nil] at hx hy
    rw [← Option.some.inj hx, ← Option.some.inj hy]
    exact ⟨rfl, rfl⟩
  | cons key keys =>
    rw [Value.atPath_cons, Value.get] at hx hy
    have hlookup := lookup_splitEntries nodup_members hsplit key
    cases hmember : v.value.members.lookup key with
    | none =>
      rw [hmember] at hlookup
      rw [hlookup.1] at hx
      exact absurd hx (by simp)
    | some w =>
      rw [hmember] at hlookup
      exact isObject_of_both (.inl hlookup) (uniqueKeys_of_lookup hmember) hx hy

private theorem leafAt_merge_object {as bs : List (String × Value)} (hobject : v.value.isObject = true)
    (hbs : (bs.map Prod.fst).Nodup)
    (hparts : ∀ k, match v.value.members.lookup k with
      | none => as.lookup k = none ∧ bs.lookup k = none
      | some w => SplitInto w (childPath "" k) (as.lookup k) (bs.lookup k))
    (keys : List String) (leaf : Value) :
    LeafAt ((Value.object as).merge (.object bs)) keys leaf ↔ LeafAt v.value keys leaf := by
  unfold LeafAt
  apply and_congr_left
  intro hleaf
  cases keys with
  | nil =>
    rw [Value.atPath_nil, Value.atPath_nil, Value.merge_object]
    constructor
    · intro heq
      rw [← Option.some.inj heq] at hleaf
      exact absurd hleaf (by simp [Value.isObject])
    · intro heq
      rw [← Option.some.inj heq, hobject] at hleaf
      exact absurd hleaf (by simp)
  | cons key keys =>
    rw [Value.atPath_cons, Value.atPath_cons, get_merge_object as hbs, Value.get_eq_lookup]
    have hkey := hparts key
    cases hmember : v.value.members.lookup key with
    | none =>
      rw [hmember] at hkey
      rw [hkey.1, hkey.2]
      rfl
    | some w =>
      rw [hmember] at hkey
      exact leafAt_mergeParts hkey (uniqueKeys_of_lookup hmember) hleaf

/-- The parts of a settings object have its leaves, whichever is merged into the other. -/
theorem leafAt_of_splitSettingsValue (hobject : v.value.isObject = true)
    (h : splitSettingsValue v.value = .ok (machine, user)) (keys : List String) (leaf : Value) :
    (LeafAt (machine.merge user) keys leaf ↔ LeafAt v.value keys leaf) ∧
      (LeafAt (user.merge machine) keys leaf ↔ LeafAt v.value keys leaf) := by
  obtain ⟨ms, us, hsplit, rfl, rfl⟩ := splitSettingsValue_ok.mp h
  have hkeys := splitEntries_keys hsplit
  have hlookup := lookup_splitEntries nodup_members hsplit
  constructor
  · apply leafAt_merge_object hobject (nodup_members.sublist hkeys.2)
    intro k
    have hk := hlookup k
    cases hmember : v.value.members.lookup k with
    | none =>
      rw [hmember] at hk
      exact hk
    | some w =>
      rw [hmember] at hk
      exact .inl hk
  · apply leafAt_merge_object hobject (nodup_members.sublist hkeys.1)
    intro k
    have hk := hlookup k
    cases hmember : v.value.members.lookup k with
    | none =>
      rw [hmember] at hk
      exact hk.symm
    | some w =>
      rw [hmember] at hk
      exact .inr hk

end Roots

end Settings
