import Mathlib
import WinCommander.Flows.Validation
import WinCommander.Library.JsonMask
import WinCommander.Library.Segments

/-!
# Changes of the settings

After a write of the settings the changed leaves go to the web view and to the flow engine, each with
its path and its values.  The values at a path with a secret segment are left out.
-/

namespace Flows

open Json Value Segments

structure SettingChange where
  path : String
  fromValue : Value
  toValue : Value
  deriving DecidableEq

section Secrets

def secretSegmentTokens : List String :=
  ["pin", "hash", "seed", "keyword", "phrase", "secret", "password", "material", "token"]

def endsWith (text pattern : String) : Bool := pattern.toList <:+ text.toList

def segmentIsSecret (seg : String) : Bool :=
  secretSegmentTokens.any (contains seg) || endsWith seg "priv" || contains seg "privkey" ||
    contains seg "privatekey"

def pathIsSecret (path : String) : Bool :=
  (splitOn '.' path.toList).any fun seg => segmentIsSecret (AsciiText.lower (String.ofList seg))

/-- A key of a settings tree that a secret is kept under. -/
def keyIsSecret (key : String) : Bool := segmentIsSecret (AsciiText.lower key)

end Secrets

section Diff

def childPrefix (place key : String) : String :=
  if place = "" then key else place ++ "." ++ key

/-- The maps of two values are compared without regard to the order of their keys. -/
def leafChange (place : String) (old new : Value) : List SettingChange :=
  if old.normalize ≠ new.normalize then
    let redacted := pathIsSecret place
    [⟨place, if redacted then .null else old, if redacted then .null else new⟩]
  else []

def diffInto (old new : Value) (place : String) : List SettingChange :=
  walk childPrefix leafChange old new place

def settingsLeafDiff (old new : Value) : List SettingChange := diffInto old new ""

end Diff

section Paths

def dotPath (keys : List String) : String := keys.foldl childPrefix ""

theorem toLower_eq_dot (c : Char) : c.toLower = '.' ↔ c = '.' := by
  by_cases hupper : c.val ≥ 'A'.val ∧ c.val ≤ 'Z'.val
  · have hc : c ≠ '.' := by
      intro h
      rw [h] at hupper
      revert hupper
      decide
    have hlow : c.toLower ≠ '.' := by
      intro h
      have hval := congrArg (fun d : Char => d.val.toNat) h
      simp only [Char.toLower, dif_pos hupper, UInt32.toNat_add] at hval
      obtain ⟨hlow, hhigh⟩ := hupper
      rw [ge_iff_le, UInt32.le_iff_toNat_le] at hlow
      rw [UInt32.le_iff_toNat_le] at hhigh
      have hA : 'A'.val.toNat = 65 := rfl
      have hZ : 'Z'.val.toNat = 90 := rfl
      have hshift : ('a'.val - 'A'.val).toNat = 32 := rfl
      have hdot : '.'.val.toNat = 46 := rfl
      omega
    exact iff_of_false hlow hc
  · have hsame : c.toLower = c := by simp only [Char.toLower, dif_neg hupper]
    rw [hsame]

theorem contains_iff {text pattern : String} :
    contains text pattern = true ↔ pattern.toList <:+: text.toList := by
  simp [contains]

theorem endsWith_iff {text pattern : String} :
    endsWith text pattern = true ↔ pattern.toList <:+ text.toList := by
  simp [endsWith]

/-- A secret key has a secret segment. -/
theorem exists_secret_segment {key : String} (h : keyIsSecret key = true) :
    ∃ seg ∈ splitOn '.' key.toList, segmentIsSecret (AsciiText.lower (String.ofList seg)) = true := by
  have hsegments : splitOn '.' (AsciiText.lower key).toList =
      (splitOn '.' key.toList).map (List.map Char.toLower) := by
    rw [AsciiText.lower, String.toList_ofList]
    exact splitOn_map toLower_eq_dot _
  have hback : ∀ {low : List Char}, low ∈ splitOn '.' (AsciiText.lower key).toList →
      segmentIsSecret (String.ofList low) = true →
      ∃ seg ∈ splitOn '.' key.toList,
        segmentIsSecret (AsciiText.lower (String.ofList seg)) = true := by
    intro low hlow hsecret
    rw [hsegments, List.mem_map] at hlow
    obtain ⟨seg, hseg, rfl⟩ := hlow
    exact ⟨seg, hseg, by rw [AsciiText.lower, String.toList_ofList]; exact hsecret⟩
  have htoken : ∀ {token : String}, '.' ∉ token.toList →
      contains (AsciiText.lower key) token = true → ∃ low ∈ splitOn '.' (AsciiText.lower key).toList,
        contains (String.ofList low) token = true := by
    intro token hdot hin
    obtain ⟨low, hlow, hinfix⟩ := infix_splitOn hdot (contains_iff.mp hin)
    exact ⟨low, hlow, contains_iff.mpr (by rw [String.toList_ofList]; exact hinfix)⟩
  have htokens : ∀ token ∈ secretSegmentTokens, '.' ∉ token.toList := by decide
  simp only [keyIsSecret, segmentIsSecret, Bool.or_eq_true, List.any_eq_true] at h
  rcases h with ((⟨token, htokenmem, hin⟩ | hends) | hin) | hin
  · obtain ⟨low, hlow, hin⟩ := htoken (htokens token htokenmem) hin
    apply hback hlow
    simp only [segmentIsSecret, Bool.or_eq_true, List.any_eq_true]
    exact Or.inl (Or.inl (Or.inl ⟨token, htokenmem, hin⟩))
  · have hdot : '.' ∉ "priv".toList := by decide
    obtain ⟨low, hlow, hsuffix⟩ := suffix_splitOn hdot (endsWith_iff.mp hends)
    have hends : endsWith (String.ofList low) "priv" = true := by
      simpa [endsWith_iff] using hsuffix
    apply hback hlow
    simp only [segmentIsSecret, Bool.or_eq_true]
    exact Or.inl (Or.inl (Or.inr hends))
  · obtain ⟨low, hlow, hin⟩ := htoken (by decide) hin
    apply hback hlow
    simp only [segmentIsSecret, Bool.or_eq_true]
    exact Or.inl (Or.inr hin)
  · obtain ⟨low, hlow, hin⟩ := htoken (by decide) hin
    apply hback hlow
    simp only [segmentIsSecret, Bool.or_eq_true]
    exact Or.inr hin

theorem splitOn_childPrefix {place key : String} (h : place ≠ "") :
    splitOn '.' (childPrefix place key).toList =
      splitOn '.' place.toList ++ splitOn '.' key.toList := by
  rw [childPrefix, if_neg h]
  have htext : (place ++ "." ++ key).toList = place.toList ++ '.' :: key.toList := by simp
  rw [htext, splitOn_append]

theorem childPrefix_ne_empty {place : String} (h : place ≠ "") (key : String) :
    childPrefix place key ≠ "" := by
  rw [childPrefix, if_neg h]
  intro hempty
  have := congrArg String.toList hempty
  simp at this

/-- The segments of a path stay when it goes on. -/
theorem mem_splitOn_foldl {place : String} (h : place ≠ "") {seg : List Char}
    (hseg : seg ∈ splitOn '.' place.toList) (keys : List String) :
    seg ∈ splitOn '.' (keys.foldl childPrefix place).toList := by
  induction keys generalizing place with
  | nil => exact hseg
  | cons key keys ih =>
    apply ih (childPrefix_ne_empty h key)
    rw [splitOn_childPrefix h]
    exact List.mem_append_left _ hseg

theorem mem_splitOn_key {keys : List String} {key : String} (hkey : key ∈ keys) (hne : key ≠ "")
    {seg : List Char} (hseg : seg ∈ splitOn '.' key.toList) (place : String) :
    seg ∈ splitOn '.' (keys.foldl childPrefix place).toList := by
  induction keys generalizing place with
  | nil => cases hkey
  | cons first keys ih =>
    rcases List.mem_cons.mp hkey with hfirst | hrest
    · rw [← hfirst, List.foldl_cons]
      by_cases hplace : place = ""
      · have hstart : childPrefix place key = key := by rw [childPrefix, if_pos hplace]
        rw [hstart]
        exact mem_splitOn_foldl hne hseg keys
      · apply mem_splitOn_foldl (childPrefix_ne_empty hplace key)
        rw [splitOn_childPrefix hplace]
        exact List.mem_append_right _ hseg
    · exact ih hrest _

/-- A path with a secret key is secret. -/
theorem pathIsSecret_of_mem {keys : List String} {key : String} (hkey : key ∈ keys)
    (h : keyIsSecret key = true) : pathIsSecret (dotPath keys) = true := by
  have hne : key ≠ "" := by
    intro hempty
    rw [hempty] at h
    revert h
    decide
  obtain ⟨seg, hseg, hsecret⟩ := exists_secret_segment h
  exact List.any_eq_true.mpr ⟨seg, mem_splitOn_key hkey hne hseg "", hsecret⟩

end Paths

section Reports

/-- The change that is reported at a place. -/
def changeAt (old new : Value) (keys : List String) : SettingChange :=
  let redacted := pathIsSecret (dotPath keys)
  ⟨dotPath keys, if redacted then .null else old.read keys,
    if redacted then .null else new.read keys⟩

theorem settingsLeafDiff_eq (old new : Value) :
    settingsLeafDiff old new = (partings old new).map (changeAt old new) := by
  rw [settingsLeafDiff, diffInto, walk_eq, partings]
  induction meets old new with
  | nil => rfl
  | cons keys rest ih =>
    rw [List.flatMap_cons, ih, List.filter_cons]
    by_cases h : (old.read keys).normalize ≠ (new.read keys).normalize
    · have hleaf : leafChange (keys.foldl childPrefix "") (old.read keys) (new.read keys) =
          [changeAt old new keys] := if_pos h
      rw [hleaf, if_pos (decide_eq_true h), List.map_cons, List.singleton_append]
    · have hleaf : leafChange (keys.foldl childPrefix "") (old.read keys) (new.read keys) = [] :=
        if_neg h
      rw [hleaf, if_neg (by simpa using h), List.nil_append]

/-- Exactly the places at which the trees part are reported, each once and in order. -/
structure Reports (old new : Value) : Prop where
  changes : settingsLeafDiff old new = (partings old new).map (changeAt old new)
  order : (partings old new).Pairwise (· < ·)
  places : ∀ keys, keys ∈ partings old new ↔ Parts old new keys
  quiet : old.UniqueKeys → KeyOrderEq old new → settingsLeafDiff old new = []

theorem reports (old new : Value) : Reports old new := by
  refine ⟨settingsLeafDiff_eq old new, partings_pairwise old new, fun _ => mem_partings, ?_⟩
  intro hunique heq
  obtain ⟨hunique', hnormal⟩ := heq.normalize_eq hunique
  have hnone : partings old new = [] := by
    apply List.eq_nil_iff_forall_not_mem.mpr
    intro keys hkeys
    exact not_parts_of_normalize_eq hunique hunique' hnormal keys (mem_partings.mp hkeys)
  rw [settingsLeafDiff_eq, hnone, List.map_nil]

/-- Two trees that differ only in what is under secret keys. -/
def SameButSecrets (v w : Value) : Prop := mask keyIsSecret .null v = mask keyIsSecret .null w

/-- Trees that differ only in secrets and change in the same places are reported alike. -/
def NonInterfering (old new : Value) : Prop :=
  ∀ old' new', SameButSecrets old' old → SameButSecrets new' new →
    (∀ keys, Parts old' new' keys ↔ Parts old new keys) →
    settingsLeafDiff old' new' = settingsLeafDiff old new

/-- No value that is reported has a secret key in it. -/
def ShowsNoSecret (old new : Value) : Prop :=
  ∀ keys, Parts old new keys → pathIsSecret (dotPath keys) = false →
    holds keyIsSecret (old.read keys) = false ∧ holds keyIsSecret (new.read keys) = false

/-- What has no secret key in it is what it is for every tree that differs only in secrets. -/
theorem read_eq_of_same {v w : Value} (hsame : SameButSecrets v w) {keys : List String}
    (hkeys : ∀ key ∈ keys, keyIsSecret key = false) (h : holds keyIsSecret (w.read keys) = false) :
    v.read keys = w.read keys := by
  have hmask : mask keyIsSecret .null (v.read keys) = mask keyIsSecret .null (w.read keys) := by
    rw [← read_mask hkeys, ← read_mask hkeys, hsame]
  have hholds : holds keyIsSecret (v.read keys) = false := by
    rw [← holds_mask (x := .null), hmask, holds_mask, h]
  rw [← mask_eq_self (x := .null) hholds, hmask, mask_eq_self h]

theorem nonInterfering_of_showsNoSecret {old new : Value} (h : ShowsNoSecret old new) :
    NonInterfering old new := by
  intro old' new' hold hnew hparts
  rw [settingsLeafDiff_eq, settingsLeafDiff_eq, partings_congr hparts]
  apply List.map_congr_left
  intro keys hkeys
  cases hsecret : pathIsSecret (dotPath keys) with
  | true => simp [changeAt, hsecret]
  | false =>
    have hplain : ∀ key ∈ keys, keyIsSecret key = false := by
      intro key hkey
      cases hkeysecret : keyIsSecret key with
      | false => rfl
      | true =>
        rw [pathIsSecret_of_mem hkey hkeysecret] at hsecret
        cases hsecret
    obtain ⟨hold', hnew'⟩ := h keys (mem_partings.mp hkeys) hsecret
    rw [changeAt, changeAt, read_eq_of_same hold hplain hold', read_eq_of_same hnew hplain hnew']

/-- A hidden value can be exchanged so that what holds it changes and stays apart from another. -/
theorem exists_mask {v : Value} (h : holds keyIsSecret v = true) (w : Value) :
    ∃ x, mask keyIsSecret x v ≠ v ∧ (mask keyIsSecret x v).normalize ≠ w.normalize := by
  have hapart : ∀ {x y : Value}, x.normalize ≠ y.normalize →
      (mask keyIsSecret x v).normalize ≠ (mask keyIsSecret y v).normalize :=
    fun hxy heq => hxy (mask_injective h heq)
  have hnt : Value.normalize .null ≠ Value.normalize (.bool true) := by decide
  have hnf : Value.normalize .null ≠ Value.normalize (.bool false) := by decide
  have htf : Value.normalize (.bool true) ≠ Value.normalize (.bool false) := by decide
  by_contra hnone
  have hsame : ∀ x, mask keyIsSecret x v ≠ v → (mask keyIsSecret x v).normalize = w.normalize := by
    intro x hx
    by_contra hw
    exact hnone ⟨x, hx, hw⟩
  -- Of three values, one at most puts back what was there, and one at most makes the other value.
  by_cases hnull : mask keyIsSecret .null v = v
  · have htrue := hsame (.bool true) fun heq => hapart hnt (by rw [hnull, heq])
    have hfalse := hsame (.bool false) fun heq => hapart hnf (by rw [hnull, heq])
    exact hapart htf (htrue.trans hfalse.symm)
  · by_cases htrue : mask keyIsSecret (.bool true) v = v
    · have hfalse := hsame (.bool false) fun heq => hapart htf (by rw [htrue, heq])
      exact hapart hnf ((hsame .null hnull).trans hfalse.symm)
    · exact hapart hnt ((hsame .null hnull).trans (hsame _ htrue).symm)

/-- A secret within what a place holds can be exchanged without moving a place. -/
theorem exists_exchange {v w : Value} {keys : List String} (hparts : Parts v w keys)
    (h : holds keyIsSecret (v.read keys) = true) :
    ∃ v', SameButSecrets v' v ∧ (∀ keys', Parts v' w keys' ↔ Parts v w keys') ∧
      v'.read keys ≠ v.read keys := by
  obtain ⟨x, hchanged, hapart⟩ := exists_mask h (w.read keys)
  have hnull : v.read keys ≠ .null := by
    intro hnull
    rw [hnull] at h
    cases h
  refine ⟨alter (mask keyIsSecret x) keys v, mask_alter (fun _ => mask_mask) keys v,
    parts_alter (fun _ => isObject_mask) hparts hapart, ?_⟩
  rw [read_alter hnull]
  exact hchanged

/-- Equal reports have equal values at a place that is not secret. -/
theorem read_eq_of_reports {old new old' new' : Value}
    (hsame : ∀ keys, Parts old' new' keys ↔ Parts old new keys)
    (h : settingsLeafDiff old' new' = settingsLeafDiff old new) {keys : List String}
    (hparts : Parts old new keys) (hplain : pathIsSecret (dotPath keys) = false) :
    old'.read keys = old.read keys ∧ new'.read keys = new.read keys := by
  rw [settingsLeafDiff_eq, settingsLeafDiff_eq, partings_congr hsame] at h
  have hchange := List.map_inj_left.mp h keys (mem_partings.mpr hparts)
  simpa [changeAt, hplain] using hchange

theorem showsNoSecret_of_nonInterfering {old new : Value} (h : NonInterfering old new) :
    ShowsNoSecret old new := by
  intro keys hparts hplain
  constructor
  · by_contra hholds
    obtain ⟨old', hold, hsame, hchanged⟩ :=
      exists_exchange hparts (Bool.eq_true_of_not_eq_false hholds)
    have hreports := h old' new hold rfl hsame
    exact hchanged (read_eq_of_reports hsame hreports hparts hplain).1
  · by_contra hholds
    obtain ⟨new', hnew, hsame, hchanged⟩ :=
      exists_exchange hparts.symm (Bool.eq_true_of_not_eq_false hholds)
    have hsame' : ∀ keys', Parts old new' keys' ↔ Parts old new keys' := fun keys' =>
      ⟨fun hp => ((hsame keys').mp hp.symm).symm, fun hp => ((hsame keys').mpr hp.symm).symm⟩
    have hreports := h old new' rfl hnew hsame'
    exact hchanged (read_eq_of_reports hsame' hreports hparts hplain).2

/-- The differences of two trees are reported exactly, and nothing of what is kept under secret keys
shows in the reports if and only if no value that is reported in the open has a secret key in it. -/
theorem settings_reports_hide_secrets_iff (old new : Value) :
    (Reports old new ∧ NonInterfering old new) ↔ ShowsNoSecret old new := by
  constructor
  · exact fun h => showsNoSecret_of_nonInterfering h.2
  · exact fun h => ⟨reports old new, nonInterfering_of_showsNoSecret h⟩

end Reports

section Samples

/-- The settings of an account whose only flow waits for a request with a secret. -/
def settingsWithFlow (secret : String) : Value :=
  .object [("app", .object [("flows", .array [.object [("id", .string "f1"),
    ("triggers", .array [.object [("path", .string "/lock"), ("secret", .string secret),
      ("type", .string "WebhookTrigger")]])]])])]

def settingsWithoutFlow : Value := .object [("app", .object [("flows", .array [])])]

/-- The secret of a flow is in the list of flows, which is one leaf under a plain path. -/
theorem webhook_secret_is_reported :
    ¬ ∀ old new : Value, Reports old new ∧ NonInterfering old new := by
  intro h
  have hhidden := (h settingsWithoutFlow (settingsWithFlow "0123456789abcdef")).2
  have hplaces : partings settingsWithoutFlow (settingsWithFlow "fedcba9876543210") =
      partings settingsWithoutFlow (settingsWithFlow "0123456789abcdef") := by decide +kernel
  have hsame := hhidden settingsWithoutFlow (settingsWithFlow "fedcba9876543210") rfl rfl (by
    intro keys
    rw [← mem_partings, ← mem_partings, hplaces])
  revert hsame
  decide +kernel

end Samples

end Flows
