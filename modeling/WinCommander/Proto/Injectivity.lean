import Mathlib
import WinCommander.Proto.Preimages

/-!
# What a signature binds

Each builder's bytes decide the equality of the fields it binds, JSON values up to key order.
The objects of two builders have different keys, and the prefixed and unprefixed ones differ in
their ninth byte, so a signature made over one kind of message never covers another.
-/

namespace FleetProto

open Json

section Fields

@[simp] private theorem normalize_intValue (i : ℤ) : (intValue i).normalize = intValue i := rfl

@[simp] private theorem intValue_inj {i j : ℤ} : intValue i = intValue j ↔ i = j :=
  ⟨fun h => Number.ofInt_injective (Value.number.inj h), fun h => by rw [h]⟩

@[simp] private theorem normalize_string (s : String) :
    (Value.string s).normalize = .string s := rfl

@[simp] private theorem normalize_bool (b : Bool) : (Value.bool b).normalize = .bool b := rfl

/-- An optional value that is never `null` by itself binds its presence and its content. -/
private theorem normalize_optionValue_iff {α : Type} {f : α → Value} {R : α → α → Prop}
    (hnull : ∀ x, Value.null ≠ (f x).normalize)
    (hf : ∀ x y, (f x).normalize = (f y).normalize ↔ R x y) (a b : Option α) :
    (optionValue f a).normalize = (optionValue f b).normalize ↔ Option.Rel R a b := by
  cases a with
  | none =>
    cases b with
    | none => simp [optionValue]
    | some y => simpa [optionValue, Value.normalize] using hnull y
  | some x =>
    cases b with
    | none => simpa [optionValue, Value.normalize] using (hnull x).symm
    | some y => simpa [optionValue] using hf x y

private theorem keys_optionalMember_sublist {α : Type} (key : String) (f : α → Value)
    (o : Option α) : ((optionalMember key f o).map Prod.fst).Sublist [key] := by
  cases o <;> simp [optionalMember]

private theorem lookup_optionalMember {α : Type} (k key : String) (f : α → Value) (o : Option α) :
    (optionalMember key f o).lookup k = if k = key then o.map f else none := by
  cases o with
  | none => simp [optionalMember]
  | some a =>
    rw [optionalMember, Keyed.lookup_cons]
    rfl

private theorem rel_eq_iff {α : Type} (a b : Option α) : Option.Rel Eq a b ↔ a = b := by
  cases a <;> cases b <;> simp

private theorem normalize_optionString_iff (a b : Option String) :
    (optionValue .string a).normalize = (optionValue .string b).normalize ↔ a = b := by
  rw [normalize_optionValue_iff (R := Eq) (by simp) (by simp), rel_eq_iff]

private theorem normalize_strings_iff {as bs : List String} :
    (Value.array (as.map .string)).normalize = (Value.array (bs.map .string)).normalize ↔
      as = bs := by
  have hid : ∀ ss : List String, Value.normalizeElems (ss.map .string) = ss.map .string := by
    intro ss
    simp [Value.normalizeElems_eq, Function.comp_def]
  have hinj : Function.Injective Value.string := fun _ _ => Value.string.inj
  rw [Value.normalize, Value.normalize, hid, hid, Value.array.injEq, hinj.list_map.eq_iff]

private theorem map_optional_inj {α : Type} {f : α → Value}
    (hf : ∀ x y, (f x).normalize = (f y).normalize → x = y) {a b : Option α}
    (h : (a.map f).map Value.normalize = (b.map f).map Value.normalize) : a = b := by
  rw [Option.map_map, Option.map_map] at h
  exact Option.map_injective (fun x y hxy => hf x y hxy) h

@[simp] private theorem normalize_document_iff {d e : Document} :
    d.value.normalize = e.value.normalize ↔ d.value.KeyOrderEq e.value :=
  Value.normalize_eq_iff d.uniqueKeys

private theorem asWireStr_inj {a b : ActionClass} : a.asWireStr = b.asWireStr ↔ a = b := by
  cases a <;> cases b <;> decide

private theorem outcome_asStr_inj {a b : ActionOutcomeState} : a.asStr = b.asStr ↔ a = b := by
  cases a <;> cases b <;> decide

private theorem stage_asStr_inj {a b : CommandFailureStage} : a.asStr = b.asStr ↔ a = b := by
  cases a <;> cases b <;> decide

private theorem normalize_stage_iff (a b : Option CommandFailureStage) :
    (optionValue (fun s : CommandFailureStage => Value.string s.asStr) a).normalize =
      (optionValue (fun s : CommandFailureStage => Value.string s.asStr) b).normalize ↔
      a = b := by
  rw [normalize_optionValue_iff (R := Eq) (by simp) (by simp [stage_asStr_inj]), rel_eq_iff]

end Fields

/-- Two configuration snapshots that differ at most in the key order of their settings. -/
@[mk_iff] structure ConfigEpoch.Agree (a b : ConfigEpoch) : Prop where
  orgId : a.orgId = b.orgId
  version : a.version = b.version
  configJson : a.configJson.value.KeyOrderEq b.configJson.value
  targetKind : a.targetKind = b.targetKind
  targetId : a.targetId = b.targetId
  lockedPaths : a.lockedPaths = b.lockedPaths
  managed : a.managed = b.managed
  signature : a.signature = b.signature
  signerKey : a.signerKey = b.signerKey

theorem ConfigEpoch.normalize_toValue_iff (a b : ConfigEpoch) :
    a.toValue.normalize = b.toValue.normalize ↔ a.Agree b := by
  apply (Value.normalize_object_iff ?_ ?_).trans
  · simp [ConfigEpoch.agree_iff, normalize_strings_iff, normalize_optionString_iff,
      Int64.toInt_inj]
  · rfl
  · simp

theorem ShieldDesiredState.normalize_toValue_iff (a b : ShieldDesiredState) :
    a.toValue.normalize = b.toValue.normalize ↔ a = b := by
  apply (Value.normalize_object_iff ?_ ?_).trans
  · cases a
    cases b
    simp [normalize_optionString_iff, Int64.toInt_inj]
  · rfl
  · simp

/-- Two intents that differ at most in the key order of their value. -/
@[mk_iff] structure PolicyIntent.Agree (a b : PolicyIntent) : Prop where
  key : a.key = b.key
  value : a.value.value.KeyOrderEq b.value.value
  mode : a.mode = b.mode
  ttlSecs : a.ttlSecs = b.ttlSecs

private theorem PolicyIntent.keys_nodup (i : PolicyIntent) : (i.members.map Prod.fst).Nodup := by
  rw [members, List.map_append]
  have hall : ["key", "value", "mode", "ttl_secs"].Nodup := by decide
  exact hall.sublist (List.Sublist.append (List.Sublist.refl _)
    (keys_optionalMember_sublist _ _ _))

theorem PolicyIntent.normalize_toValue_iff (a b : PolicyIntent) :
    a.toValue.normalize = b.toValue.normalize ↔ a.Agree b := by
  constructor
  · intro h
    have hlookup := Value.lookup_of_normalize_eq a.keys_nodup b.keys_nodup h
    simp only [members, List.cons_append, List.nil_append, Keyed.lookup_cons,
      lookup_optionalMember] at hlookup
    have httl : a.ttlSecs = b.ttlSecs := by
      apply map_optional_inj _ (hlookup "ttl_secs")
      simp [UInt64.toNat_inj]
    exact ⟨by simpa using hlookup "key", by simpa using hlookup "value",
      by simpa using hlookup "mode", httl⟩
  · intro h
    have hvalue := normalize_document_iff.mpr h.value
    simp [toValue, members, Value.normalize, Value.normalizeMembers, hvalue, h.key, h.mode,
      h.ttlSecs]

private theorem commandEnvelope_normalize_iff {c d k a c' d' k' a' : String} {p p' : Document}
    {e e' : Int64} :
    (commandEnvelope c d k a p e).normalize = (commandEnvelope c' d' k' a' p' e').normalize ↔
      c = c' ∧ d = d' ∧ k = k' ∧ a = a' ∧ p.value.KeyOrderEq p'.value ∧ e = e' := by
  apply (Value.normalize_object_iff ?_ ?_).trans
  · simp [Int64.toInt_inj]
  · rfl
  · simp

private theorem epochSigningEnvelope_normalize_iff {c c' : Document} {ls ls' : List String}
    {m m' : Bool} {k k' : String} {t t' : Option String} :
    (epochSigningEnvelope c ls m k t).normalize =
      (epochSigningEnvelope c' ls' m' k' t').normalize ↔
      c.value.KeyOrderEq c'.value ∧ (∀ p, p ∈ ls ↔ p ∈ ls') ∧ m = m' ∧ k = k' ∧ t = t' := by
  apply (Value.normalize_object_iff ?_ ?_).trans
  · simp [normalize_strings_iff, normalize_optionString_iff, Keyed.sortOn_destutter_eq_iff]
  · rfl
  · simp

private theorem ticketEnvelope_normalize_iff {a b : TicketSigningInput} :
    (ticketEnvelope a).normalize = (ticketEnvelope b).normalize ↔ a = b := by
  apply (Value.normalize_object_iff ?_ ?_).trans
  · cases a
    cases b
    simp [Int64.toInt_inj]
  · rfl
  · simp

private theorem normalize_intents_iff {is js : List PolicyIntent} :
    (Value.array (is.map PolicyIntent.toValue)).normalize =
      (Value.array (js.map PolicyIntent.toValue)).normalize ↔
      List.Forall₂ PolicyIntent.Agree is js := by
  simp only [Value.normalize, Value.normalizeElems_eq, List.map_map, Value.array.injEq]
  induction is generalizing js with
  | nil => cases js <;> simp
  | cons i is ih =>
    cases js with
    | nil => simp
    | cons j js => simp [ih, PolicyIntent.normalize_toValue_iff]

private theorem policyValue_normalize_iff {v v' : Int64} {o o' d d' : String}
    {is js : List PolicyIntent} :
    (policyValue v o d is).normalize = (policyValue v' o' d' js).normalize ↔
      v = v' ∧ o = o' ∧ d = d' ∧
        List.Forall₂ PolicyIntent.Agree (Keyed.sortOn PolicyIntent.key is)
          (Keyed.sortOn PolicyIntent.key js) := by
  apply (Value.normalize_object_iff ?_ ?_).trans
  · simp [normalize_intents_iff, Int64.toInt_inj]
    tauto
  · rfl
  · simp

private theorem actionOutcomeValue_normalize_iff {a b : ActionOutcome} :
    (actionOutcomeValue a).normalize = (actionOutcomeValue b).normalize ↔
      a.version = b.version ∧ a.receiptId = b.receiptId ∧ a.deviceId = b.deviceId ∧
      a.sequence = b.sequence ∧ a.previousHash = b.previousHash ∧ a.commandId = b.commandId ∧
      a.catalogId = b.catalogId ∧ a.actionClass = b.actionClass ∧ a.outcome = b.outcome ∧
      a.failureStage = b.failureStage ∧ a.observedAt = b.observedAt ∧
      a.resultDigest.value.KeyOrderEq b.resultDigest.value := by
  apply (Value.normalize_object_iff ?_ ?_).trans
  · simp [normalize_optionString_iff, normalize_stage_iff, asWireStr_inj, outcome_asStr_inj,
      UInt16.toNat_inj, UInt64.toNat_inj]
  · rfl
  · simp

/-- Two policy deliveries that differ at most in the key order of their settings. -/
structure PolicyEnvelopeSigningInput.Agree (a b : PolicyEnvelopeSigningInput) : Prop where
  clipboardGuardEnabled : a.clipboardGuardEnabled = b.clipboardGuardEnabled
  orgId : a.orgId = b.orgId
  deviceId : a.deviceId = b.deviceId
  enrollmentGeneration : a.enrollmentGeneration = b.enrollmentGeneration
  configRevision : a.configRevision = b.configRevision
  resolutionRevision : a.resolutionRevision = b.resolutionRevision
  config : Option.Rel ConfigEpoch.Agree a.config b.config
  shield : a.shield = b.shield
  shieldRevision : a.shieldRevision = b.shieldRevision

private def envelopeKeys : List String :=
  ["config", "device_id", "org_id", "shield", "shield_revision"] ++ ["enrollment_generation"] ++
    ["config_revision"] ++ ["resolution_revision"]

private theorem policyEnvelope_keys_sublist (a : PolicyEnvelopeSigningInput) :
    ((policyEnvelopeMembers a).map Prod.fst).Sublist
      (envelopeKeys ++ if a.clipboardGuardEnabled then ["clipboard_guard_enabled"] else []) := by
  simp only [policyEnvelopeMembers, List.map_append]
  refine .append (.append (.append (.append (.refl _) ?_) ?_) ?_) ?_
  · exact keys_optionalMember_sublist _ _ _
  · exact keys_optionalMember_sublist _ _ _
  · exact keys_optionalMember_sublist _ _ _
  · cases a.clipboardGuardEnabled <;> simp [optionalMember]

private theorem policyEnvelope_keys_nodup (a : PolicyEnvelopeSigningInput) :
    ((policyEnvelopeMembers a).map Prod.fst).Nodup := by
  refine (?_ : List.Nodup _).sublist (policyEnvelope_keys_sublist a)
  cases a.clipboardGuardEnabled <;> decide

private theorem normalize_config_iff (a b : Option ConfigEpoch) :
    (optionValue ConfigEpoch.toValue a).normalize = (optionValue ConfigEpoch.toValue b).normalize ↔
      Option.Rel ConfigEpoch.Agree a b :=
  normalize_optionValue_iff (by simp [ConfigEpoch.toValue, Value.normalize])
    ConfigEpoch.normalize_toValue_iff a b

private theorem normalize_shield_iff (a b : Option ShieldDesiredState) :
    (optionValue ShieldDesiredState.toValue a).normalize =
      (optionValue ShieldDesiredState.toValue b).normalize ↔ a = b := by
  rw [normalize_optionValue_iff (by simp [ShieldDesiredState.toValue, Value.normalize])
    ShieldDesiredState.normalize_toValue_iff a b, rel_eq_iff]

theorem policyEnvelope_normalize_iff (a b : PolicyEnvelopeSigningInput) :
    (Value.object (policyEnvelopeMembers a)).normalize =
      (Value.object (policyEnvelopeMembers b)).normalize ↔ a.Agree b := by
  constructor
  · intro h
    have hlookup := Value.lookup_of_normalize_eq (policyEnvelope_keys_nodup a)
      (policyEnvelope_keys_nodup b) h
    simp only [policyEnvelopeMembers, List.cons_append, List.nil_append, List.lookup_append,
      Keyed.lookup_cons, lookup_optionalMember] at hlookup
    have hgeneration : a.enrollmentGeneration = b.enrollmentGeneration := by
      apply map_optional_inj (f := Value.string) (by simp)
      simpa using hlookup "enrollment_generation"
    have hconfigRevision : a.configRevision = b.configRevision := by
      apply map_optional_inj (f := fun r : Int64 => intValue r.toInt) (by simp [Int64.toInt_inj])
      simpa using hlookup "config_revision"
    have hresolution : a.resolutionRevision = b.resolutionRevision := by
      apply map_optional_inj (f := fun r : Int64 => intValue r.toInt) (by simp [Int64.toInt_inj])
      simpa using hlookup "resolution_revision"
    have hclipboard : a.clipboardGuardEnabled = b.clipboardGuardEnabled := by
      have hmember := hlookup "clipboard_guard_enabled"
      cases ha : a.clipboardGuardEnabled <;> cases hb : b.clipboardGuardEnabled <;>
        simp [ha, hb] at hmember ⊢
    exact {
      clipboardGuardEnabled := hclipboard
      orgId := by simpa using hlookup "org_id"
      deviceId := by simpa using hlookup "device_id"
      enrollmentGeneration := hgeneration
      configRevision := hconfigRevision
      resolutionRevision := hresolution
      config := by simpa [normalize_config_iff] using hlookup "config"
      shield := by simpa [normalize_shield_iff] using hlookup "shield"
      shieldRevision := by simpa [Int64.toInt_inj] using hlookup "shield_revision" }
  · intro h
    have hconfig := (normalize_config_iff _ _).mpr h.config
    simp only [policyEnvelopeMembers, List.cons_append, List.nil_append, Value.normalize,
      Value.normalizeMembers, hconfig, h.clipboardGuardEnabled, h.orgId, h.deviceId,
      h.enrollmentGeneration, h.configRevision, h.resolutionRevision, h.shield, h.shieldRevision]

instance (a b : Option ConfigEpoch) : Decidable (Option.Rel ConfigEpoch.Agree a b) :=
  decidable_of_iff _ (normalize_config_iff a b)

instance (a b : PolicyEnvelopeSigningInput) : Decidable (a.Agree b) :=
  decidable_of_iff _ (policyEnvelope_normalize_iff a b)

/-- Equal envelopes; the key order of the settings is no part of an envelope. -/
def PolicyEnvelope.Agree (a b : PolicyEnvelope) : Prop :=
  a.signingInput.Agree b.signingInput ∧ a.signature = b.signature ∧ a.signerKey = b.signerKey

instance (a b : PolicyEnvelope) : Decidable (a.Agree b) :=
  inferInstanceAs (Decidable (_ ∧ _ ∧ _))

theorem PolicyEnvelope.Agree.refl (a : PolicyEnvelope) : a.Agree a :=
  ⟨(policyEnvelope_normalize_iff _ _).mp rfl, rfl, rfl⟩

section ReadBack

variable {a : PolicyEnvelopeSigningInput} {v : Value}
  (h : v.normalize = (Value.object (policyEnvelopeMembers a)).normalize)

include h

/-- A value that was read back from the envelope's bytes has the generation that was signed. -/
theorem enrollmentGeneration_of_normalize_eq {generation : String}
    (hget : v.get "enrollment_generation" = some (.string generation)) :
    a.enrollmentGeneration = some generation := by
  have hlookup := Value.get_of_normalize_eq (policyEnvelope_keys_nodup a) h "enrollment_generation"
  rw [hget] at hlookup
  simp only [policyEnvelopeMembers, List.cons_append, List.nil_append, List.lookup_append,
    Keyed.lookup_cons, lookup_optionalMember] at hlookup
  cases hgeneration : a.enrollmentGeneration with
  | none => simp [hgeneration] at hlookup
  | some g =>
    simp only [hgeneration] at hlookup
    simpa [eq_comm] using hlookup

theorem configRevision_ne_none_of_normalize_eq (hget : v.get "config_revision" ≠ none) :
    a.configRevision ≠ none := by
  intro hnone
  have hlookup := Value.get_of_normalize_eq (policyEnvelope_keys_nodup a) h "config_revision"
  simp only [policyEnvelopeMembers, List.cons_append, List.nil_append, List.lookup_append,
    Keyed.lookup_cons, lookup_optionalMember] at hlookup
  simp [hnone, hget] at hlookup

theorem resolutionRevision_ne_none_of_normalize_eq (hget : v.get "resolution_revision" ≠ none) :
    a.resolutionRevision ≠ none := by
  intro hnone
  have hlookup := Value.get_of_normalize_eq (policyEnvelope_keys_nodup a) h "resolution_revision"
  simp only [policyEnvelopeMembers, List.cons_append, List.nil_append, List.lookup_append,
    Keyed.lookup_cons, lookup_optionalMember] at hlookup
  simp [hnone, hget] at hlookup

end ReadBack

/-- Two lists of intents that agree up to the order of the intents. -/
def IntentsAgree (is js : List PolicyIntent) : Prop :=
  ∃ ks, List.Forall₂ PolicyIntent.Agree is ks ∧ ks.Perm js

private theorem intentsAgree_of_sorted {is js : List PolicyIntent}
    (h : List.Forall₂ PolicyIntent.Agree (Keyed.sortOn PolicyIntent.key is)
      (Keyed.sortOn PolicyIntent.key js)) : IntentsAgree is js := by
  have hperm := (Keyed.sortOn_perm PolicyIntent.key is).symm
  obtain ⟨ks, hks, hjs⟩ := List.perm_comp_forall₂ hperm h
  exact ⟨ks, hks, hjs.trans (Keyed.sortOn_perm PolicyIntent.key js)⟩

private theorem IntentsAgree.sorted {is js : List PolicyIntent} (h : IntentsAgree is js)
    (hnd : (is.map PolicyIntent.key).Nodup) :
    List.Forall₂ PolicyIntent.Agree (Keyed.sortOn PolicyIntent.key is)
      (Keyed.sortOn PolicyIntent.key js) := by
  obtain ⟨ks, hks, hjs⟩ := h
  have hkeys : is.map PolicyIntent.key = ks.map PolicyIntent.key := by
    clear hjs hnd
    induction hks with
    | nil => rfl
    | cons hab _ ih => rw [List.map_cons, List.map_cons, hab.key, ih]
  rw [← Keyed.sortOn_eq_of_perm hjs (hkeys ▸ hnd)]
  exact Keyed.sortOn_forall₂ (fun _ _ hab => hab.key) hks

/-- What the fleet server or a device signs, by the builder of the signed bytes. -/
inductive SigningInput where
  | command (commandId deviceId catalogId actionClass : String) (payload : Document)
      (epochVersion : Int64)
  | epoch (input : EpochSigningInput)
  | ticket (input : TicketSigningInput)
  | policy (version : Int64) (orgId deviceId : String) (intents : List PolicyIntent)
  | policyEnvelope (input : PolicyEnvelopeSigningInput)
  | actionOutcome (outcome : ActionOutcome)

namespace SigningInput

/-- The signed bytes. -/
def preimage : SigningInput → List UInt8
  | command c d k a p e => canonicalCommandBytes c d k a p e
  | epoch input => epochPreimage input
  | ticket input => ticketPreimage input
  | policy v o d is => policyPreimage v o d is
  | policyEnvelope input => policyEnvelopePreimage input
  | actionOutcome o => canonicalActionOutcomeBytes o

/-- One builder, and every bound field agrees: JSON values up to key order, locked paths as a
set, intents up to their order. -/
def Agree : SigningInput → SigningInput → Prop
  | command c d k a p e, command c' d' k' a' p' e' =>
    c = c' ∧ d = d' ∧ k = k' ∧ a = a' ∧ p.value.KeyOrderEq p'.value ∧ e = e'
  | epoch i, epoch j =>
    i.version = j.version ∧ i.config.value.KeyOrderEq j.config.value ∧
      (∀ p, p ∈ i.lockedPaths ↔ p ∈ j.lockedPaths) ∧ i.managed = j.managed ∧
      i.targetKind = j.targetKind ∧ i.targetId = j.targetId
  | ticket i, ticket j => i = j
  | policy v o d is, policy v' o' d' js => v = v' ∧ o = o' ∧ d = d' ∧ IntentsAgree is js
  | policyEnvelope i, policyEnvelope j => i.Agree j
  | actionOutcome i, actionOutcome j =>
    i.version = j.version ∧ i.receiptId = j.receiptId ∧ i.deviceId = j.deviceId ∧
      i.sequence = j.sequence ∧ i.previousHash = j.previousHash ∧ i.commandId = j.commandId ∧
      i.catalogId = j.catalogId ∧ i.actionClass = j.actionClass ∧ i.outcome = j.outcome ∧
      i.failureStage = j.failureStage ∧ i.observedAt = j.observedAt ∧
      i.resultDigest.value.KeyOrderEq j.resultDigest.value
  | _, _ => False

/-- No policy key has two intents. -/
def DistinctIntentKeys : SigningInput → Prop
  | policy _ _ _ is => (is.map PolicyIntent.key).Nodup
  | _ => True

/-- The version before the JSON text, for the builders that have one. -/
private def version? : SigningInput → Option Int64
  | epoch input => some input.version
  | ticket input => some input.policyVersion
  | policy v _ _ _ => some v
  | _ => none

/-- The object whose text is signed. -/
private def body : SigningInput → Value
  | command c d k a p e => commandEnvelope c d k a p e
  | epoch i => epochSigningEnvelope i.config i.lockedPaths i.managed i.targetKind i.targetId
  | ticket i => ticketEnvelope i
  | policy v o d is => policyValue v o d is
  | policyEnvelope i => .object (policyEnvelopeMembers i)
  | actionOutcome o => actionOutcomeValue o

private theorem preimage_eq (a : SigningInput) :
    a.preimage = (a.version?.elim [] toBeBytes) ++ canonicalJsonBytes a.body := by
  cases a <;> rfl

private def brace : UInt8 := 123

/-- The ninth byte of an object is read off its least key. -/
private theorem ninth_byte_of_key {ms : List (String × Value)} {k : String} {b : UInt8}
    (hk : k ∈ ms.map Prod.fst) (hle : ∀ l ∈ ms.map Prod.fst, k ≤ l)
    (hb : (utf8 ('{' :: writeString k))[8]? = some b) :
    (canonicalJsonBytes (.object ms))[8]? = some b := by
  obtain ⟨⟨l, v⟩, hmem, hl⟩ := List.mem_map.mp hk
  subst hl
  obtain ⟨rest, hrest⟩ := writeCanonical_object hmem
    fun m hm => hle m.1 (List.mem_map_of_mem hm)
  have hlen : 8 < (utf8 ('{' :: writeString l)).length := (List.getElem?_eq_some_iff.mp hb).1
  rw [canonicalJsonBytes, hrest, ← List.cons_append, utf8_append, List.getElem?_append_left hlen, hb]

private theorem ninth_byte_command (c d k a : String) (p : Document) (e : Int64) :
    (canonicalCommandBytes c d k a p e)[8]? = some 95 := by
  apply ninth_byte_of_key (k := "action_class")
  · simp
  · simp only [List.map_cons, List.map_nil]
    decide
  · decide

private theorem ninth_byte_actionOutcome (o : ActionOutcome) :
    (canonicalActionOutcomeBytes o)[8]? = some 95 := by
  apply ninth_byte_of_key (k := "action_class")
  · simp
  · simp only [List.map_cons, List.map_nil]
    decide
  · decide

private theorem ninth_byte_policyEnvelope (i : PolicyEnvelopeSigningInput) :
    (policyEnvelopePreimage i)[8]? = some (if i.clipboardGuardEnabled then 97 else 34) := by
  have hkeys := policyEnvelope_keys_sublist i
  cases hclip : i.clipboardGuardEnabled with
  | false =>
    apply ninth_byte_of_key (k := "config")
    · simp [policyEnvelopeMembers]
    · intro l hl
      rw [hclip] at hkeys
      have hall : ∀ l ∈ envelopeKeys ++ [], "config" ≤ l := by decide
      exact hall l (hkeys.subset hl)
    · decide
  | true =>
    apply ninth_byte_of_key (k := "clipboard_guard_enabled")
    · simp [policyEnvelopeMembers, hclip, optionalMember]
    · intro l hl
      rw [hclip] at hkeys
      have hall : ∀ l ∈ envelopeKeys ++ ["clipboard_guard_enabled"],
          "clipboard_guard_enabled" ≤ l := by decide
      exact hall l (hkeys.subset hl)
    · decide

/-- Only after a version does the text of an object start in the ninth place. -/
private theorem ninth_byte (a : SigningInput) :
    a.preimage[8]? = some brace ↔ a.version? ≠ none := by
  have hprefixed : ∀ (v : Int64) (ms : List (String × Value)),
      (canonicalEpochBytes v (.object ms))[8]? = some brace := by
    intro v ms
    rw [canonicalEpochBytes, List.getElem?_append_right (by simp), length_toBeBytes,
      canonicalJsonBytes, writeCanonical]
    rfl
  cases a with
  | command c d k a p e => simp [preimage, ninth_byte_command, version?, brace]
  | epoch i => exact iff_of_true (hprefixed _ _) (by simp [version?])
  | ticket i => exact iff_of_true (hprefixed _ _) (by simp [version?])
  | policy v o d is => exact iff_of_true (hprefixed _ _) (by simp [version?])
  | policyEnvelope i =>
    cases hclip : i.clipboardGuardEnabled <;>
      simp [preimage, ninth_byte_policyEnvelope, version?, brace, hclip]
  | actionOutcome o => simp [preimage, ninth_byte_actionOutcome, version?, brace]

/-- Equal bytes have equal versions, or none, before equal objects. -/
private theorem version_and_body_eq {a b : SigningInput} (h : a.preimage = b.preimage) :
    a.version? = b.version? ∧ a.body.normalize = b.body.normalize := by
  have hbrace : a.version? ≠ none ↔ b.version? ≠ none := by
    rw [← ninth_byte, ← ninth_byte, h]
  rw [preimage_eq, preimage_eq] at h
  cases ha : a.version? with
  | none =>
    have hb : b.version? = none := by simpa [ha] using hbrace
    simp only [ha, hb, Option.elim, List.nil_append] at h
    exact ⟨hb.symm, canonicalJsonBytes_eq_iff_normalize.mp h⟩
  | some v =>
    obtain ⟨w, hb⟩ : ∃ w, b.version? = some w := by
      simpa [ha, Option.ne_none_iff_exists'] using hbrace
    simp only [ha, hb, Option.elim] at h
    obtain ⟨hvw, hbody⟩ := canonicalEpochBytes_eq_iff_normalize.mp h
    exact ⟨by rw [hb, hvw], hbody⟩

private def keys : SigningInput → List String
  | command .. =>
    ["command_id", "device_id", "catalog_id", "action_class", "payload", "epoch_version"]
  | epoch _ => ["config", "locked_paths", "managed", "target_kind", "target_id"]
  | ticket _ => ["ticket_id", "org_id", "device_id", "printer_class", "policy_version",
      "issued_at_unix", "expires_at_unix", "nonce"]
  | policy .. => ["device_id", "intents", "org_id", "version"]
  | policyEnvelope i => (policyEnvelopeMembers i).map Prod.fst
  | actionOutcome _ => ["version", "receipt_id", "device_id", "sequence", "previous_hash",
      "command_id", "catalog_id", "action_class", "outcome", "failure_stage", "observed_at",
      "result_digest"]

private theorem body_eq (a : SigningInput) : ∃ ms, a.body = .object ms ∧ ms.map Prod.fst = a.keys := by
  cases a <;> exact ⟨_, rfl, rfl⟩

/-- Which builder a message comes from, read off its version and the keys of its object. -/
private def builder (a : SigningInput) : Bool × ℕ :=
  (a.version?.isSome, if "config" ∈ a.keys then 0 else a.keys.length)

private theorem builder_eq {a b : SigningInput} (hversion : a.version? = b.version?)
    (hbody : a.body.normalize = b.body.normalize) : a.builder = b.builder := by
  obtain ⟨ms, hms, hmsKeys⟩ := body_eq a
  obtain ⟨ns, hns, hnsKeys⟩ := body_eq b
  have hperm : a.keys.Perm b.keys := by
    rw [← hmsKeys, ← hnsKeys]
    exact Value.keys_perm_of_normalize_eq (by rw [← hms, ← hns, hbody])
  simp only [builder, hversion, hperm.mem_iff, hperm.length_eq]

/-- Equal bytes mean one builder and equal bound fields. -/
private theorem agree_of_preimage_eq {a b : SigningInput} (h : a.preimage = b.preimage) :
    a.Agree b := by
  obtain ⟨hversion, hbody⟩ := version_and_body_eq h
  have hbuilder := builder_eq hversion hbody
  cases a with
  | command c d k a p e =>
    cases b with
    | command => exact commandEnvelope_normalize_iff.mp hbody
    | _ => simp [builder, version?, keys, policyEnvelopeMembers] at hbuilder
  | epoch i =>
    cases b with
    | epoch j => exact ⟨Option.some.inj hversion, epochSigningEnvelope_normalize_iff.mp hbody⟩
    | _ => simp [builder, version?, keys, policyEnvelopeMembers] at hbuilder
  | ticket i =>
    cases b with
    | ticket j => exact ticketEnvelope_normalize_iff.mp hbody
    | _ => simp [builder, version?, keys, policyEnvelopeMembers] at hbuilder
  | policy v o d is =>
    cases b with
    | policy w o' d' js =>
      obtain ⟨hv, ho, hd, his⟩ := policyValue_normalize_iff.mp hbody
      exact ⟨hv, ho, hd, intentsAgree_of_sorted his⟩
    | _ => simp [builder, version?, keys, policyEnvelopeMembers] at hbuilder
  | policyEnvelope i =>
    cases b with
    | policyEnvelope j => exact (policyEnvelope_normalize_iff i j).mp hbody
    | _ => simp [builder, version?, keys, policyEnvelopeMembers] at hbuilder
  | actionOutcome i =>
    cases b with
    | actionOutcome j => exact actionOutcomeValue_normalize_iff.mp hbody
    | _ => simp [builder, version?, keys, policyEnvelopeMembers] at hbuilder

/-- Equal bound fields make equal bytes, whatever the order of keys, paths and intents. -/
private theorem preimage_eq_of_agree {a b : SigningInput} (hnd : a.DistinctIntentKeys)
    (h : a.Agree b) : a.preimage = b.preimage := by
  cases a with
  | command c d k a p e =>
    cases b with
    | command =>
      exact canonicalJsonBytes_eq_iff_normalize.mpr (commandEnvelope_normalize_iff.mpr h)
    | _ => exact h.elim
  | epoch i =>
    cases b with
    | epoch j =>
      exact canonicalEpochBytes_eq_iff_normalize.mpr
        ⟨h.1, epochSigningEnvelope_normalize_iff.mpr h.2⟩
    | _ => exact h.elim
  | ticket i =>
    cases b with
    | ticket j => exact congrArg ticketPreimage h
    | _ => exact h.elim
  | policy v o d is =>
    cases b with
    | policy w o' d' js =>
      obtain ⟨hv, ho, hd, his⟩ := h
      exact canonicalEpochBytes_eq_iff_normalize.mpr
        ⟨hv, policyValue_normalize_iff.mpr ⟨hv, ho, hd, his.sorted hnd⟩⟩
    | _ => exact h.elim
  | policyEnvelope i =>
    cases b with
    | policyEnvelope j =>
      exact canonicalJsonBytes_eq_iff_normalize.mpr ((policyEnvelope_normalize_iff i j).mpr h)
    | _ => exact h.elim
  | actionOutcome i =>
    cases b with
    | actionOutcome j =>
      exact canonicalJsonBytes_eq_iff_normalize.mpr (actionOutcomeValue_normalize_iff.mpr h)
    | _ => exact h.elim

/-- Signing preimages are injective.  Equal bytes come from one builder and from inputs that
agree on every bound field, and inputs that agree so have equal bytes. -/
theorem preimage_injective (a b : SigningInput) :
    (a.preimage = b.preimage → a.Agree b) ∧
      (a.DistinctIntentKeys → a.Agree b → a.preimage = b.preimage) :=
  ⟨agree_of_preimage_eq, preimage_eq_of_agree⟩

private def levelThenReason : Document where
  value := .object [("level", .string "high"), ("reason", .null)]
  uniqueKeys := .object (by decide) (by simp [Value.UniqueKeys.string, Value.UniqueKeys.null])

private def reasonThenLevel : Document where
  value := .object [("reason", .null), ("level", .string "high")]
  uniqueKeys := .object (by decide) (by simp [Value.UniqueKeys.string, Value.UniqueKeys.null])

theorem preimage_injective_reordered_payload :
    (command "k" "d" "raise_posture" "destructive" levelThenReason 7).preimage =
        (command "k" "d" "raise_posture" "destructive" reasonThenLevel 7).preimage ∧
      (command "k" "d" "raise_posture" "destructive" levelThenReason 7).Agree
        (command "k" "d" "raise_posture" "destructive" reasonThenLevel 7) :=
  ⟨(preimage_injective _ _).2 trivial ⟨rfl, rfl, rfl, rfl, .reorder (.swap _ _ _), rfl⟩,
    (preimage_injective _ _).1 (canonicalJsonBytes_eq_iff_normalize.mpr (by decide))⟩

end SigningInput

end FleetProto
