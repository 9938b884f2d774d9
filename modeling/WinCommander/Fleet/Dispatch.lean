import Mathlib
import WinCommander.Library.Run
import WinCommander.Fleet.Verify

/-!
# Command dispatch

The routing of the commands of one check-in response to the platform.  The catalog id, which is
signed, chooses the key a command must verify under; the scope, which is not, chooses the platform
method that is called.
-/

namespace FleetAgent

open Json FleetProto Outcome

variable {Key : Type}

/-- Catalog ids that are verified against the operator key and never the server key. -/
def duressCatalogIds : List String := [
  "duress_seal", "raise_posture", "duress_wipe", "all_clear_revoke", "duress_unseal", "all_clear",
  "rotate_key", "unenroll", "suspend_deadman", "set_deadman_policy", "set_posture_policy"]

def isDuressCatalog (catalogId : String) : Bool := duressCatalogIds.contains catalogId

/-- A call of a platform method, with its arguments. -/
inductive Call where
  | raisePosture (level : String)
  | duressSeal
  | duressWipe
  | allClear
  | duressUnseal
  | allClearRevoke
  | deadManMiss (consecutiveMisses : UInt32)
  | recordTriggerSource (source stamp : String)
  | dispatchCatalog (catalogId actionClass : String) (payload : Document)
  | onPolicyEnvelope (policy : Document)
  | sampleResources
  | sampleHealth
  | searchRunner

/-- The platform methods. -/
inductive Method where
  | raisePosture
  | duressSeal
  | duressWipe
  | allClear
  | duressUnseal
  | allClearRevoke
  | deadManMiss
  | recordTriggerSource
  | dispatchCatalog
  | onPolicyEnvelope
  | sampleResources
  | sampleHealth
  | searchRunner
  deriving DecidableEq

def Call.method : Call → Method
  | .raisePosture _ => .raisePosture
  | .duressSeal => .duressSeal
  | .duressWipe => .duressWipe
  | .allClear => .allClear
  | .duressUnseal => .duressUnseal
  | .allClearRevoke => .allClearRevoke
  | .deadManMiss _ => .deadManMiss
  | .recordTriggerSource _ _ => .recordTriggerSource
  | .dispatchCatalog _ _ _ => .dispatchCatalog
  | .onPolicyEnvelope _ => .onPolicyEnvelope
  | .sampleResources => .sampleResources
  | .sampleHealth => .sampleHealth
  | .searchRunner => .searchRunner

/-- The methods that only the operator may have called. -/
def Method.isOperatorControl : Method → Bool
  | .raisePosture | .duressSeal | .duressWipe | .allClear | .duressUnseal | .allClearRevoke => true
  | _ => false

/-- What the fleet command handler did with a command. -/
inductive FleetDispatchOutcome where
  | dispatched (kind : String)
  | authFailed (error : String)
  deriving DecidableEq

/-- What `processCheckin` is given beside the commands and the nonces.  The stamps are the
readings of the clock, one for each command. -/
structure CheckinContext (Key : Type) where
  operatorKey : Option Key
  serverKey : Option Key
  now : Int64
  maxSkewSecs : Int64
  stamp : ℕ → String

def fleetTriggerSource : String := "fleet_command"

/-- An empty scope stands for the catalog id. -/
def effectiveScope (cmd : SignedCommand) : String :=
  if cmd.scope = "" then cmd.catalogId else cmd.scope

/-- The posture level a payload asks for. -/
def postureLevel (payload : Document) : String :=
  match payload.value with
  | .object members =>
    match members.lookup "level" with
    | some (.string level) => level
    | _ => "elevated"
  | _ => "elevated"

/-- The call of an operator-control scope. -/
@[grind =] def controlCall (scope : String) (payload : Document) : Option Call :=
  match scope with
  | "raise_posture" => some (.raisePosture (postureLevel payload))
  | "duress_seal" => some .duressSeal
  | "duress_wipe" => some .duressWipe
  | "all_clear" => some .allClear
  | "duress_unseal" => some .duressUnseal
  | "all_clear_revoke" => some .allClearRevoke
  | _ => none

/-- The call of a verified command.  Any other scope goes to the platform's open catalog, unless
the command is an operator's. -/
@[grind =] def dispatchCalls (cmd : SignedCommand) : List Call :=
  match controlCall (effectiveScope cmd) cmd.payload with
  | some call => [call]
  | none =>
    if isDuressCatalog cmd.catalogId then []
    else [.dispatchCatalog cmd.catalogId cmd.actionClass cmd.payload]

/-- Verify a command under the key that its catalog id selects. -/
def verifySelected (crypto : Crypto Key) (ctx : CheckinContext Key) (seenNonces : NonceMap)
    (cmd : SignedCommand) : Except String NonceMap :=
  let isOperatorCommand := isDuressCatalog cmd.catalogId
  let selected := if isOperatorCommand then ctx.operatorKey else ctx.serverKey
  let keyName := if isOperatorCommand then "operator" else "server"
  match selected with
  | none => .error s!"no pinned {keyName} key for command '{cmd.catalogId}'"
  | some key => verifyCommand crypto cmd key ctx.now ctx.maxSkewSecs seenNonces

/-- The state of the loop over the commands. -/
structure Progress where
  outcomes : List FleetDispatchOutcome
  seenNonces : NonceMap
  calls : List Call

/-- The body of the loop. -/
@[grind =] def handleCommand (crypto : Crypto Key) (ctx : CheckinContext Key) (p : Progress)
    (cmd : SignedCommand) : Progress :=
  match verifySelected crypto ctx p.seenNonces cmd with
  | .error e => { p with outcomes := p.outcomes ++ [.authFailed e] }
  | .ok seenNonces =>
    { outcomes := p.outcomes ++ [.dispatched (effectiveScope cmd)]
      seenNonces := seenNonces
      calls := p.calls ++
        .recordTriggerSource fleetTriggerSource (ctx.stamp p.outcomes.length) ::
          dispatchCalls cmd }

/-- The loop starts after stale nonces are evicted. -/
def startCheckin (ctx : CheckinContext Key) (seenNonces : NonceMap) : Progress where
  outcomes := []
  seenNonces := evictStaleNonces seenNonces ctx.now ctx.maxSkewSecs
  calls := []

/-- Process the commands of one check-in response. -/
def processCheckin (crypto : Crypto Key) (ctx : CheckinContext Key) (seenNonces : NonceMap)
    (commands : List SignedCommand) : Progress :=
  Machine.run (handleCommand crypto ctx) (startCheckin ctx seenNonces) commands

section Attribution

variable (crypto : Crypto Key) (ctx : CheckinContext Key) (seenNonces : NonceMap)

/-- Verification of `cmd` succeeds when it comes after the commands `before`. -/
def AcceptedAfter (before : List SignedCommand) (cmd : SignedCommand) : Prop :=
  (verifySelected crypto ctx (processCheckin crypto ctx seenNonces before).seenNonces
    cmd).toBool = true

/-- The calls that `cmd` adds to those of the commands `before`. -/
def callsAfter (before : List SignedCommand) (cmd : SignedCommand) : List Call :=
  (processCheckin crypto ctx seenNonces (before ++ [cmd])).calls.drop
    (processCheckin crypto ctx seenNonces before).calls.length

variable {crypto ctx seenNonces}

theorem processCheckin_append (before : List SignedCommand) (cmd : SignedCommand) :
    processCheckin crypto ctx seenNonces (before ++ [cmd]) =
      handleCommand crypto ctx (processCheckin crypto ctx seenNonces before) cmd := by
  simp [processCheckin, Machine.run_append]

theorem callsAfter_rejected {before : List SignedCommand} {cmd : SignedCommand}
    (h : ¬ AcceptedAfter crypto ctx seenNonces before cmd) :
    callsAfter crypto ctx seenNonces before cmd = [] := by
  rw [callsAfter, processCheckin_append, handleCommand]
  unfold AcceptedAfter at h
  cases hv : verifySelected crypto ctx (processCheckin crypto ctx seenNonces before).seenNonces cmd with
  | error e => simp
  | ok seen' => simp [hv, Except.toBool] at h

theorem callsAfter_accepted {before : List SignedCommand} {cmd : SignedCommand}
    (h : AcceptedAfter crypto ctx seenNonces before cmd) :
    callsAfter crypto ctx seenNonces before cmd =
      .recordTriggerSource fleetTriggerSource
        (ctx.stamp (processCheckin crypto ctx seenNonces before).outcomes.length) ::
        dispatchCalls cmd := by
  rw [callsAfter, processCheckin_append, handleCommand]
  unfold AcceptedAfter at h
  cases hv : verifySelected crypto ctx (processCheckin crypto ctx seenNonces before).seenNonces cmd with
  | error e => simp [hv, Except.toBool] at h
  | ok seen' => simp

end Attribution

section Routing

/-- The scopes that name an operator-control method. -/
def controlScopes : List String :=
  ["raise_posture", "duress_seal", "duress_wipe", "all_clear", "duress_unseal", "all_clear_revoke"]

private theorem controlScopes_subset : ∀ s ∈ controlScopes, isDuressCatalog s = true := by
  decide

theorem controlCall_isSome_iff (scope : String) (payload : Document) :
    (controlCall scope payload).isSome = true ↔ scope ∈ controlScopes := by
  unfold controlCall controlScopes
  split <;> simp_all

/-- The scope that names a method. -/
private def scopeName : Method → String
  | .raisePosture => "raise_posture"
  | .duressSeal => "duress_seal"
  | .duressWipe => "duress_wipe"
  | .allClear => "all_clear"
  | .duressUnseal => "duress_unseal"
  | .allClearRevoke => "all_clear_revoke"
  | _ => ""

private theorem controlCall_method {s : String} {p : Document} {c : Call}
    (h : controlCall s p = some c) :
    scopeName c.method = s ∧ c.method.isOperatorControl = true := by
  unfold controlCall at h
  split at h <;> cases h <;> exact ⟨rfl, rfl⟩

private theorem controlCall_map_method (scope : String) (p q : Document) :
    (controlCall scope p).map Call.method = (controlCall scope q).map Call.method := by
  unfold controlCall
  split <;> rfl

private theorem controlCall_of_not_mem {scope : String} (h : scope ∉ controlScopes)
    (payload : Document) : controlCall scope payload = none := by
  rw [← Option.not_isSome_iff_eq_none, controlCall_isSome_iff]
  exact h

theorem dispatchCalls_control {cmd : SignedCommand} (h : effectiveScope cmd ∈ controlScopes) :
    ∃ call, dispatchCalls cmd = [call] ∧ call.method.isOperatorControl = true ∧
      scopeName call.method = effectiveScope cmd := by
  obtain ⟨call, hcall⟩ := Option.isSome_iff_exists.mp
    ((controlCall_isSome_iff (effectiveScope cmd) cmd.payload).mpr h)
  have hmethod := controlCall_method hcall
  exact ⟨call, by simp [dispatchCalls, hcall], hmethod.2, hmethod.1⟩

theorem dispatchCalls_other {cmd : SignedCommand} (h : effectiveScope cmd ∉ controlScopes) :
    dispatchCalls cmd = if isDuressCatalog cmd.catalogId then []
      else [.dispatchCatalog cmd.catalogId cmd.actionClass cmd.payload] := by
  simp [dispatchCalls, controlCall_of_not_mem h]

/-- Only a control scope makes an operator-control call. -/
theorem effectiveScope_of_operatorControl {cmd : SignedCommand} {call : Call}
    (hcall : call ∈ dispatchCalls cmd) (hcontrol : call.method.isOperatorControl = true) :
    effectiveScope cmd ∈ controlScopes := by
  by_contra h
  rw [dispatchCalls_other h] at hcall
  split at hcall
  · simp at hcall
  · rw [List.mem_singleton] at hcall
    rw [hcall] at hcontrol
    simp [Call.method, Method.isOperatorControl] at hcontrol

/-- An ordinary command makes an operator-control call only through its own scope. -/
theorem effectiveScope_ordinary {cmd : SignedCommand} (hcatalog : isDuressCatalog cmd.catalogId = false) :
    effectiveScope cmd ∈ controlScopes ↔ cmd.scope ∈ controlScopes := by
  unfold effectiveScope
  split
  · next hempty =>
    constructor
    · intro h
      rw [controlScopes_subset _ h] at hcatalog
      exact absurd hcatalog (by decide)
    · intro h
      rw [hempty] at h
      exact absurd h (by decide)
  · rfl

end Routing

section Authority

variable (crypto : Crypto Key) (ctx : CheckinContext Key) (seenNonces : NonceMap)
  (commands : List SignedCommand)

/-- The dual-key authority of one check-in: an operator-control method is called only because of
an operator command that is signed with the operator key, and the signed fields alone decide which
method an accepted command is dispatched to. -/
structure DualKeyAuthority : Prop where
  operatorSigned : ∀ before cmd after, commands = before ++ cmd :: after →
    ∀ call ∈ callsAfter crypto ctx seenNonces before cmd, call.method.isOperatorControl = true →
      isDuressCatalog cmd.catalogId = true ∧
        ∃ key, ctx.operatorKey = some key ∧ SignedBy crypto key cmd
  serverPowerless : ∀ before cmd after, commands = before ++ cmd :: after →
    (∀ key, ctx.operatorKey = some key → ¬ SignedBy crypto key cmd) →
    ∀ call ∈ callsAfter crypto ctx seenNonces before cmd, call.method.isOperatorControl = false
  sameMethod : ∀ before₁ cmd₁ after₁ before₂ cmd₂ after₂,
    commands = before₁ ++ cmd₁ :: after₁ → commands = before₂ ++ cmd₂ :: after₂ →
    AcceptedAfter crypto ctx seenNonces before₁ cmd₁ →
    AcceptedAfter crypto ctx seenNonces before₂ cmd₂ →
    cmd₁.signingInput.Agree cmd₂.signingInput →
    (callsAfter crypto ctx seenNonces before₁ cmd₁).map Call.method =
      (callsAfter crypto ctx seenNonces before₂ cmd₂).map Call.method

/-- What the unsigned scopes of the accepted commands must not do. -/
structure ScopesRespectCatalog : Prop where
  ordinary : ∀ before cmd after, commands = before ++ cmd :: after →
    AcceptedAfter crypto ctx seenNonces before cmd → isDuressCatalog cmd.catalogId = false →
    cmd.scope ∉ controlScopes
  operator : ∀ before₁ cmd₁ after₁ before₂ cmd₂ after₂,
    commands = before₁ ++ cmd₁ :: after₁ → commands = before₂ ++ cmd₂ :: after₂ →
    AcceptedAfter crypto ctx seenNonces before₁ cmd₁ →
    AcceptedAfter crypto ctx seenNonces before₂ cmd₂ →
    cmd₁.signingInput.Agree cmd₂.signingInput → isDuressCatalog cmd₁.catalogId = true →
    effectiveScope cmd₁ = effectiveScope cmd₂ ∨
      (effectiveScope cmd₁ ∉ controlScopes ∧ effectiveScope cmd₂ ∉ controlScopes)

variable {crypto ctx seenNonces commands}

private theorem signed_of_accepted {before : List SignedCommand} {cmd : SignedCommand}
    (h : AcceptedAfter crypto ctx seenNonces before cmd)
    (hcatalog : isDuressCatalog cmd.catalogId = true) :
    ∃ key, ctx.operatorKey = some key ∧ SignedBy crypto key cmd := by
  unfold AcceptedAfter verifySelected at h
  simp only [hcatalog, if_true] at h
  cases hkey : ctx.operatorKey with
  | none => simp [hkey, Except.toBool] at h
  | some key =>
    simp only [hkey] at h
    cases hv : verifyCommand crypto cmd key ctx.now ctx.maxSkewSecs
        (processCheckin crypto ctx seenNonces before).seenNonces with
    | error e => simp [hv, Except.toBool] at h
    | ok seen' => exact ⟨key, rfl, (verifyCommand_ok_iff.mp hv).1⟩

private theorem accepted_of_call {before : List SignedCommand} {cmd : SignedCommand} {call : Call}
    (hcall : call ∈ callsAfter crypto ctx seenNonces before cmd) :
    AcceptedAfter crypto ctx seenNonces before cmd := by
  by_contra h
  rw [callsAfter_rejected h] at hcall
  exact List.not_mem_nil hcall

private theorem scope_of_control_call {before : List SignedCommand} {cmd : SignedCommand}
    {call : Call} (hcall : call ∈ callsAfter crypto ctx seenNonces before cmd)
    (hcontrol : call.method.isOperatorControl = true) : effectiveScope cmd ∈ controlScopes := by
  rw [callsAfter_accepted (accepted_of_call hcall), List.mem_cons] at hcall
  rcases hcall with rfl | hcall
  · simp [Call.method, Method.isOperatorControl] at hcontrol
  · exact effectiveScope_of_operatorControl hcall hcontrol

private theorem methods_of_accepted {before : List SignedCommand} {cmd : SignedCommand}
    (h : AcceptedAfter crypto ctx seenNonces before cmd) :
    (callsAfter crypto ctx seenNonces before cmd).map Call.method =
      .recordTriggerSource :: (dispatchCalls cmd).map Call.method := by
  rw [callsAfter_accepted h]
  rfl

/-- Equal methods mean equal control scopes, or none on either side. -/
private theorem scopes_of_methods_eq {a b : SignedCommand}
    (h : (dispatchCalls a).map Call.method = (dispatchCalls b).map Call.method) :
    effectiveScope a = effectiveScope b ∨
      (effectiveScope a ∉ controlScopes ∧ effectiveScope b ∉ controlScopes) := by
  have hother : ∀ {c d : SignedCommand}, effectiveScope c ∈ controlScopes →
      effectiveScope d ∉ controlScopes →
      (dispatchCalls c).map Call.method ≠ (dispatchCalls d).map Call.method := by
    intro c d hc hd heq
    obtain ⟨call, hcall, hcontrol, _⟩ := dispatchCalls_control hc
    rw [hcall, dispatchCalls_other hd] at heq
    split at heq
    · simp at heq
    · simp only [List.map_cons, List.map_nil, List.cons.injEq, and_true] at heq
      rw [heq] at hcontrol
      exact absurd hcontrol (by simp [Call.method, Method.isOperatorControl])
  by_cases ha : effectiveScope a ∈ controlScopes
  · by_cases hb : effectiveScope b ∈ controlScopes
    · obtain ⟨c, hc, _, hcname⟩ := dispatchCalls_control ha
      obtain ⟨d, hd, _, hdname⟩ := dispatchCalls_control hb
      rw [hc, hd] at h
      simp only [List.map_cons, List.map_nil, List.cons.injEq, and_true] at h
      exact Or.inl (by rw [← hcname, ← hdname, h])
    · exact absurd h (hother ha hb)
  · by_cases hb : effectiveScope b ∈ controlScopes
    · exact absurd h.symm (hother hb ha)
    · exact Or.inr ⟨ha, hb⟩

private theorem methods_eq_of_scopes {a b : SignedCommand} (hcatalog : a.catalogId = b.catalogId)
    (h : effectiveScope a = effectiveScope b ∨
      (effectiveScope a ∉ controlScopes ∧ effectiveScope b ∉ controlScopes)) :
    (dispatchCalls a).map Call.method = (dispatchCalls b).map Call.method := by
  by_cases ha : effectiveScope a ∈ controlScopes
  · have hb : effectiveScope b ∈ controlScopes := by
      rcases h with h | h
      · rwa [← h]
      · exact absurd ha h.1
    have hscopes : effectiveScope a = effectiveScope b := h.resolve_right fun h => h.1 ha
    obtain ⟨c, hc⟩ := Option.isSome_iff_exists.mp
      ((controlCall_isSome_iff (effectiveScope a) a.payload).mpr ha)
    obtain ⟨d, hd⟩ := Option.isSome_iff_exists.mp
      ((controlCall_isSome_iff (effectiveScope b) b.payload).mpr hb)
    have hmethod : c.method = d.method := by
      have hmap := controlCall_map_method (effectiveScope a) a.payload b.payload
      rw [hc, hscopes, hd] at hmap
      simpa using hmap
    simp [dispatchCalls, hc, hd, hmethod]
  · have hb : effectiveScope b ∉ controlScopes := by
      rcases h with h | h
      · rwa [← h]
      · exact h.2
    rw [dispatchCalls_other ha, dispatchCalls_other hb, hcatalog]
    split <;> rfl

private theorem catalogId_of_agree {a b : SignedCommand}
    (h : a.signingInput.Agree b.signingInput) : a.catalogId = b.catalogId := h.2.2.1

/-- An accepted command with a control scope is answered for by its catalog id. -/
private theorem catalog_of_control_scope (h : ScopesRespectCatalog crypto ctx seenNonces commands)
    {before after : List SignedCommand} {cmd : SignedCommand}
    (hcommands : commands = before ++ cmd :: after)
    (haccepted : AcceptedAfter crypto ctx seenNonces before cmd)
    (hscope : effectiveScope cmd ∈ controlScopes) : isDuressCatalog cmd.catalogId = true := by
  by_contra hcatalog
  rw [Bool.not_eq_true] at hcatalog
  exact h.ordinary before cmd after hcommands haccepted hcatalog
    ((effectiveScope_ordinary hcatalog).mp hscope)

private theorem authority_of_scopes (h : ScopesRespectCatalog crypto ctx seenNonces commands) :
    DualKeyAuthority crypto ctx seenNonces commands := by
  have hsigned : ∀ before cmd after, commands = before ++ cmd :: after →
      ∀ call ∈ callsAfter crypto ctx seenNonces before cmd, call.method.isOperatorControl = true →
        isDuressCatalog cmd.catalogId = true ∧
          ∃ key, ctx.operatorKey = some key ∧ SignedBy crypto key cmd := by
    intro before cmd after hcommands call hcall hcontrol
    have haccepted := accepted_of_call hcall
    have hcatalog := catalog_of_control_scope h hcommands haccepted
      (scope_of_control_call hcall hcontrol)
    exact ⟨hcatalog, signed_of_accepted haccepted hcatalog⟩
  refine ⟨hsigned, ?_, ?_⟩
  · intro before cmd after hcommands hnot call hcall
    by_contra hcontrol
    rw [Bool.not_eq_false] at hcontrol
    obtain ⟨_, key, hkey, hsig⟩ := hsigned before cmd after hcommands call hcall hcontrol
    exact hnot key hkey hsig
  · intro before₁ cmd₁ after₁ before₂ cmd₂ after₂ h₁ h₂ hacc₁ hacc₂ hagree
    rw [methods_of_accepted hacc₁, methods_of_accepted hacc₂,
      methods_eq_of_scopes (catalogId_of_agree hagree)]
    cases hcatalog : isDuressCatalog cmd₁.catalogId with
    | true => exact h.operator _ _ _ _ _ _ h₁ h₂ hacc₁ hacc₂ hagree hcatalog
    | false =>
      have hcatalog₂ : isDuressCatalog cmd₂.catalogId = false := by
        rw [← catalogId_of_agree hagree, hcatalog]
      refine Or.inr ⟨fun hs => ?_, fun hs => ?_⟩
      · rw [catalog_of_control_scope h h₁ hacc₁ hs] at hcatalog
        exact absurd hcatalog (by decide)
      · rw [catalog_of_control_scope h h₂ hacc₂ hs] at hcatalog₂
        exact absurd hcatalog₂ (by decide)

private theorem scopes_of_authority (h : DualKeyAuthority crypto ctx seenNonces commands) :
    ScopesRespectCatalog crypto ctx seenNonces commands := by
  constructor
  · intro before cmd after hcommands haccepted hcatalog hscope
    obtain ⟨call, hcall, hcontrol, _⟩ :=
      dispatchCalls_control ((effectiveScope_ordinary hcatalog).mpr hscope)
    have hmem : call ∈ callsAfter crypto ctx seenNonces before cmd := by
      rw [callsAfter_accepted haccepted, hcall]
      simp
    have := (h.operatorSigned before cmd after hcommands call hmem hcontrol).1
    rw [hcatalog] at this
    exact absurd this (by decide)
  · intro before₁ cmd₁ after₁ before₂ cmd₂ after₂ h₁ h₂ hacc₁ hacc₂ hagree _
    have hmethods := h.sameMethod _ _ _ _ _ _ h₁ h₂ hacc₁ hacc₂ hagree
    rw [methods_of_accepted hacc₁, methods_of_accepted hacc₂, List.cons.injEq] at hmethods
    exact scopes_of_methods_eq hmethods.2

variable (crypto ctx seenNonces commands)

/-- The dispatcher keeps the two keys apart exactly for the check-ins whose unsigned scopes
respect the signed catalog ids. -/
theorem dualKeyAuthority_iff :
    DualKeyAuthority crypto ctx seenNonces commands ↔
      ScopesRespectCatalog crypto ctx seenNonces commands :=
  ⟨scopes_of_authority, authority_of_scopes⟩

end Authority

section ForgedScope

/-- A device that has pinned both keys. -/
private def pinnedContext : CheckinContext (List UInt8) where
  operatorKey := some Recorded.operatorKey
  serverKey := some Recorded.serverKey
  now := 1000
  maxSkewSecs := 300
  stamp _ := "2026-08-28T00:00:00Z"

/-- The server's update with an operator's word in its scope. -/
private def forgedWipe : SignedCommand := { Recorded.update with scope := "duress_wipe" }

private theorem forgedWipe_accepted :
    AcceptedAfter Recorded.recording.crypto pinnedContext (fun _ => none) [] forgedWipe := by
  have hsigned : SignedBy Recorded.recording.crypto Recorded.serverKey forgedWipe :=
    Recorded.signedBy_server rfl rfl rfl
  unfold AcceptedAfter verifySelected
  show (verifyCommand _ forgedWipe Recorded.serverKey _ _ _).toBool = true
  rw [verifyCommand_undated hsigned rfl rfl]
  rfl

/-- A command that only the server signed wipes the device. -/
theorem server_command_wipes :
    ¬ DualKeyAuthority Recorded.recording.crypto pinnedContext (fun _ => none) [forgedWipe] := by
  intro h
  have hscopes := (scopes_of_authority h).ordinary [] forgedWipe [] rfl forgedWipe_accepted
    (by decide)
  exact hscopes (by decide)

end ForgedScope

end FleetAgent
