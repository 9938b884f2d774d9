import WinCommander.Clipboard.Rules
import WinCommander.Library.Run

/-!
# Installing clipboard policies

A store holds a policy of the user and a policy of Fleet.  An install replaces one of them or is
refused, and a health bit of each source says how its last install ended.
-/

namespace ClipboardGuard

open ClipRules Machine

variable {detectors : Detectors}

inductive PolicySource where
  | personal
  | fleet
  deriving DecidableEq, Repr

inductive PolicyInstallError where
  | compile (errors : List CompileError)
  | ruleIdCollision (ruleId : RuleId)
  | localActionNotAllowed (ruleId : RuleId) (action : Action)
  deriving DecidableEq

structure ClipboardPolicyResponse (detectors : Detectors) where
  policyVersion : Int64
  rules : List (Rule detectors.MatchKind)
  contentRules : Option (ContentRulesSubtree detectors.MatchKind)
  reportingBinding : Option String

def ClipboardPolicyResponse.effectiveRules (response : ClipboardPolicyResponse detectors) :
    Except (List CompileError) (List (Rule detectors.MatchKind)) :=
  match response.contentRules with
  | some subtree => resolveContentRules detectors subtree
  | none => .ok response.rules

/-- The rule set that a response compiles to. -/
def ClipboardPolicyResponse.compiled (response : ClipboardPolicyResponse detectors)
    (rules : List (Rule detectors.MatchKind)) :
    Except (List CompileError) (CompiledRuleSet detectors.Matcher) :=
  match response.contentRules with
  | some subtree => compileContentRules detectors subtree
  | none => compile detectors rules contentRuleLimits

/-- Cooldowns are in seconds.  Disabled rules still reserve their identifiers. -/
structure ActivePolicy (detectors : Detectors) where
  policyVersion : Int64
  compiled : CompiledRuleSet detectors.Matcher
  cooldowns : List (RuleId × UInt32)
  ruleIds : List RuleId

def ActivePolicy.empty : ActivePolicy detectors where
  policyVersion := 0
  compiled := .empty
  cooldowns := []
  ruleIds := []

/-- The cooldown of a rule; of two with one identifier the later counts. -/
def ActivePolicy.cooldownFor (policy : ActivePolicy detectors) (ruleId : RuleId) : UInt32 :=
  (policy.cooldowns.reverse.lookup ruleId).getD 0

structure PolicyStore (detectors : Detectors) where
  personal : ActivePolicy detectors := .empty
  fleet : ActivePolicy detectors := .empty
  localRulesCompiled : Bool := true
  fleetRulesCompiled : Bool := true

namespace PolicyStore

def policy (store : PolicyStore detectors) : PolicySource → ActivePolicy detectors
  | .personal => store.personal
  | .fleet => store.fleet

def rulesCompiledFor (store : PolicyStore detectors) : PolicySource → Bool
  | .personal => store.localRulesCompiled
  | .fleet => store.fleetRulesCompiled

def setCompiledHealth (store : PolicyStore detectors) (source : PolicySource) (compiled : Bool) :
    PolicyStore detectors :=
  match source with
  | .personal => { store with localRulesCompiled := compiled }
  | .fleet => { store with fleetRulesCompiled := compiled }

def setPolicy (store : PolicyStore detectors) (source : PolicySource)
    (active : ActivePolicy detectors) : PolicyStore detectors :=
  match source with
  | .personal => { store with personal := active }
  | .fleet => { store with fleet := active }

def other : PolicySource → PolicySource
  | .personal => .fleet
  | .fleet => .personal

def firstRuleIdCollision (rules : List (Rule detectors.MatchKind))
    (active : ActivePolicy detectors) : Option RuleId :=
  (rules.map Rule.id).find? fun id => active.ruleIds.contains id

/-- The policy that a response, its effective rules and their compiled form make. -/
def activePolicy (response : ClipboardPolicyResponse detectors)
    (rules : List (Rule detectors.MatchKind)) (compiled : CompiledRuleSet detectors.Matcher) :
    ActivePolicy detectors where
  policyVersion := response.policyVersion
  compiled := compiled
  cooldowns := (rules.filter Rule.enabled).map fun rule => (rule.id, rule.cooldownSeconds)
  ruleIds := rules.map Rule.id

def installCompiled (store : PolicyStore detectors) (response : ClipboardPolicyResponse detectors)
    (source : PolicySource) : Except PolicyInstallError Unit × PolicyStore detectors :=
  match response.effectiveRules with
  | .error errors => (.error (.compile errors), store)
  | .ok rules =>
    match firstRuleIdCollision rules (store.policy (other source)) with
    | some ruleId => (.error (.ruleIdCollision ruleId), store.setCompiledHealth source false)
    | none =>
      match response.compiled rules with
      | .ok compiled =>
        (.ok (), (store.setPolicy source (activePolicy response rules compiled)).setCompiledHealth
          source true)
      | .error errors => (.error (.compile errors), store.setCompiledHealth source false)

def installFleet (store : PolicyStore detectors) (response : ClipboardPolicyResponse detectors) :
    Except PolicyInstallError Unit × PolicyStore detectors :=
  store.installCompiled response .fleet

/-- The installer for callers that know of no local rules. -/
def install (store : PolicyStore detectors) (response : ClipboardPolicyResponse detectors) :
    Except (List CompileError) Unit × PolicyStore detectors :=
  match response.effectiveRules with
  | .error errors => (.error errors, store)
  | .ok rules =>
    if (firstRuleIdCollision rules store.personal).isSome then
      (.error [], { store with fleetRulesCompiled := false })
    else
      let installed := store.installCompiled response .fleet
      (installed.1.mapError fun error =>
        match error with
        | .compile errors => errors
        | _ => [], installed.2)

def organisationAction (action : Action) : Bool :=
  action = .reportFleet ∨ action = .alertAdmin

/-- The first action of a local rule that only Fleet may order. -/
def firstOrganisationAction (rules : List (Rule detectors.MatchKind)) : Option (RuleId × Action) :=
  (rules.flatMap fun rule => rule.actions.map fun action => (rule.id, action)).find?
    fun entry => organisationAction entry.2

def installLocal (store : PolicyStore detectors) (response : ClipboardPolicyResponse detectors) :
    Except PolicyInstallError Unit × PolicyStore detectors :=
  if response.contentRules.isSome || response.reportingBinding.isSome then
    (.error (.compile [.invalidRuleOptions 0]), store)
  else
    match firstOrganisationAction response.rules with
    | some (ruleId, action) =>
      (.error (.localActionNotAllowed ruleId action), { store with localRulesCompiled := false })
    | none => store.installCompiled response .personal

def clearFleetOnUnenroll (store : PolicyStore detectors) : PolicyStore detectors :=
  { store with fleet := .empty, fleetRulesCompiled := true }

end PolicyStore

section Runs

open PolicyStore

inductive Call (detectors : Detectors) where
  | install (response : ClipboardPolicyResponse detectors)
  | installLocal (response : ClipboardPolicyResponse detectors)
  | installFleet (response : ClipboardPolicyResponse detectors)
  | clearFleetOnUnenroll

/-- Whether a call was accepted, and the store it leaves. -/
def PolicyStore.call (store : PolicyStore detectors) :
    Call detectors → Bool × PolicyStore detectors
  | .install response => ((store.install response).1.isOk, (store.install response).2)
  | .installLocal response => ((store.installLocal response).1.isOk, (store.installLocal response).2)
  | .installFleet response => ((store.installFleet response).1.isOk, (store.installFleet response).2)
  | .clearFleetOnUnenroll => (true, store.clearFleetOnUnenroll)

def PolicyStore.step (store : PolicyStore detectors) (call : Call detectors) :
    PolicyStore detectors :=
  (store.call call).2

/-- The response of an install and the source it is for. -/
def Call.response : Call detectors → Option (ClipboardPolicyResponse detectors × PolicySource)
  | .install response => some (response, .fleet)
  | .installLocal response => some (response, .personal)
  | .installFleet response => some (response, .fleet)
  | .clearFleetOnUnenroll => none

/-- Exactly the effective rules of a response are in force: its version, its enabled rules, their
cooldowns, and all its identifiers. -/
structure InForce (response : ClipboardPolicyResponse detectors) (active : ActivePolicy detectors) :
    Prop where
  version : active.policyVersion = response.policyVersion
  rules : ∃ rules, response.effectiveRules = .ok rules ∧
    (active.compiled.rules.map CompiledRule.body).Perm ((rules.filter Rule.enabled).map Rule.body) ∧
    active.cooldowns = (rules.filter Rule.enabled).map (fun rule => (rule.id, rule.cooldownSeconds)) ∧
    active.ruleIds = rules.map Rule.id

/-- An install that is refused changes no policy and is seen in the health of its source; one that
is accepted puts exactly its rules in force. -/
def Reported (store : PolicyStore detectors) (call : Call detectors) : Prop :=
  ∀ response source, call.response = some (response, source) →
    if (store.call call).1 = true then
      InForce response ((store.step call).policy source) ∧
        (store.step call).rulesCompiledFor source = true ∧
        (store.step call).policy (other source) = store.policy (other source)
    else
      (∀ source', (store.step call).policy source' = store.policy source') ∧
        (store.step call).rulesCompiledFor source = false

/-- An action that a rule orders, in itself or for one channel. -/
def Orders (rule : RuleBody) (action : Action) : Prop :=
  action ∈ rule.actions ∨ ∃ entry ∈ rule.options.channelActions, action ∈ entry.actions

/-- What holds of the policies in force. -/
structure PolicyStore.Separate (store : PolicyStore detectors) : Prop where
  apart : ∀ id ∈ store.personal.ruleIds, id ∉ store.fleet.ruleIds
  silent : ∀ rule ∈ store.personal.compiled.rules, ∀ action, Orders rule.body action →
    organisationAction action = false

/-- A local response that passes every check of its installer. -/
structure Installable (store : PolicyStore detectors) (response : ClipboardPolicyResponse detectors) :
    Prop where
  contentFree : response.contentRules = none
  unbound : response.reportingBinding = none
  ownActions : firstOrganisationAction response.rules = none
  apart : firstRuleIdCollision response.rules store.fleet = none
  compiles : (compile detectors response.rules contentRuleLimits).isOk = true

/-- No enabled rule orders an action of Fleet for a single channel. -/
def Quiet (rules : List (Rule detectors.MatchKind)) : Prop :=
  ∀ rule ∈ rules, rule.enabled = true → ∀ entry ∈ rule.options.channelActions,
    ∀ action ∈ entry.actions, organisationAction action = false

/-- The calls after which the store is as it reports. -/
def Sound (store : PolicyStore detectors) : Call detectors → Prop
  | .install response => response.effectiveRules.isOk = true ∨ store.fleetRulesCompiled = false
  | .installFleet response => response.effectiveRules.isOk = true ∨ store.fleetRulesCompiled = false
  | .installLocal response =>
    (response.contentRules = none ∧ response.reportingBinding = none ∨
      store.localRulesCompiled = false) ∧ (Installable store response → Quiet response.rules)
  | .clearFleetOnUnenroll => True

end Runs

section Installs

open PolicyStore

variable {store : PolicyStore detectors} {response : ClipboardPolicyResponse detectors}
  {source : PolicySource}

@[simp] theorem setCompiledHealth_policy (compiled : Bool) (source' : PolicySource) :
    (store.setCompiledHealth source compiled).policy source' = store.policy source' := by
  cases source <;> cases source' <;> rfl

@[simp] theorem setCompiledHealth_health (compiled : Bool) :
    (store.setCompiledHealth source compiled).rulesCompiledFor source = compiled := by
  cases source <;> rfl

@[simp] theorem setPolicy_policy (active : ActivePolicy detectors) :
    (store.setPolicy source active).policy source = active := by
  cases source <;> rfl

@[simp] theorem setPolicy_policy_other (active : ActivePolicy detectors) :
    (store.setPolicy source active).policy (other source) = store.policy (other source) := by
  cases source <;> rfl

theorem compiled_rules {rules : List (Rule detectors.MatchKind)}
    {compiled : CompiledRuleSet detectors.Matcher} (hrules : response.effectiveRules = .ok rules)
    (h : response.compiled rules = .ok compiled) :
    (compiled.rules.map CompiledRule.body).Perm ((rules.filter Rule.enabled).map Rule.body) := by
  unfold ClipboardPolicyResponse.effectiveRules at hrules
  unfold ClipboardPolicyResponse.compiled at h
  cases hcontent : response.contentRules with
  | none =>
    simp only [hcontent] at h
    exact compile_rules h
  | some subtree =>
    simp only [hcontent] at hrules h
    exact compileContentRules_rules hrules h

theorem inForce_activePolicy {rules : List (Rule detectors.MatchKind)}
    {compiled : CompiledRuleSet detectors.Matcher} (hrules : response.effectiveRules = .ok rules)
    (h : response.compiled rules = .ok compiled) :
    InForce response (activePolicy response rules compiled) :=
  ⟨rfl, rules, hrules, compiled_rules hrules h, rfl, rfl⟩

/-- What an install does: it is refused before its health is touched, it is refused, or it puts a
policy in force that shares no identifier with the other source. -/
theorem installCompiled_cases (store : PolicyStore detectors)
    (response : ClipboardPolicyResponse detectors) (source : PolicySource) :
    (response.effectiveRules.isOk = false ∧ (store.installCompiled response source).1.isOk = false ∧
        (store.installCompiled response source).2 = store) ∨
      (response.effectiveRules.isOk = true ∧ (store.installCompiled response source).1.isOk = false ∧
        (store.installCompiled response source).2 = store.setCompiledHealth source false) ∨
      (∃ rules compiled, response.effectiveRules = .ok rules ∧ response.compiled rules = .ok compiled ∧
        firstRuleIdCollision rules (store.policy (other source)) = none ∧
        (store.installCompiled response source).1.isOk = true ∧
        (store.installCompiled response source).2 =
          (store.setPolicy source (activePolicy response rules compiled)).setCompiledHealth source
            true) := by
  cases hrules : response.effectiveRules with
  | error errors =>
    have heq : store.installCompiled response source = (.error (.compile errors), store) := by
      simp only [installCompiled, hrules]
    exact Or.inl ⟨rfl, by rw [heq]; rfl, by rw [heq]⟩
  | ok rules =>
    right
    cases hcollision : firstRuleIdCollision rules (store.policy (other source)) with
    | some ruleId =>
      have heq : store.installCompiled response source =
          (.error (.ruleIdCollision ruleId), store.setCompiledHealth source false) := by
        simp only [installCompiled, hrules, hcollision]
      exact Or.inl ⟨rfl, by rw [heq]; rfl, by rw [heq]⟩
    | none =>
      cases hcompiled : response.compiled rules with
      | error errors =>
        have heq : store.installCompiled response source =
            (.error (.compile errors), store.setCompiledHealth source false) := by
          simp only [installCompiled, hrules, hcollision, hcompiled]
        exact Or.inl ⟨rfl, by rw [heq]; rfl, by rw [heq]⟩
      | ok compiled =>
        have heq : store.installCompiled response source = (.ok (),
            (store.setPolicy source (activePolicy response rules compiled)).setCompiledHealth source
              true) := by
          simp only [installCompiled, hrules, hcollision, hcompiled]
        exact Or.inr ⟨rules, compiled, rfl, hcompiled, hcollision, by rw [heq]; rfl, by rw [heq]⟩

/-- The older installer does what the one for Fleet does. -/
theorem install_eq (store : PolicyStore detectors) (response : ClipboardPolicyResponse detectors) :
    (store.install response).1.isOk = (store.installFleet response).1.isOk ∧
      (store.install response).2 = (store.installFleet response).2 := by
  unfold install installFleet installCompiled
  cases hrules : response.effectiveRules with
  | error errors => exact ⟨rfl, rfl⟩
  | ok rules =>
    have hpolicy : store.policy (other .fleet) = store.personal := rfl
    cases hcollision : firstRuleIdCollision rules store.personal with
    | some ruleId => simp [hcollision, hpolicy, setCompiledHealth, Except.isOk, Except.toBool]
    | none =>
      cases hcompiled : response.compiled rules with
      | error errors =>
        simp [hcollision, hpolicy, hcompiled, Except.isOk, Except.toBool, Except.mapError]
      | ok compiled =>
        simp [hcollision, hpolicy, hcompiled, Except.isOk, Except.toBool, Except.mapError]

theorem firstRuleIdCollision_none {rules : List (Rule detectors.MatchKind)}
    {active : ActivePolicy detectors} (h : firstRuleIdCollision rules active = none) :
    ∀ id ∈ rules.map Rule.id, id ∉ active.ruleIds := by
  intro id hid
  unfold firstRuleIdCollision at h
  rw [List.find?_eq_none] at h
  have hnot := h id hid
  simpa using hnot

theorem firstOrganisationAction_none {rules : List (Rule detectors.MatchKind)}
    (h : firstOrganisationAction rules = none) :
    ∀ rule ∈ rules, ∀ action ∈ rule.actions, organisationAction action = false := by
  intro rule hrule action haction
  unfold firstOrganisationAction at h
  rw [List.find?_eq_none] at h
  have hmem : (rule.id, action) ∈
      rules.flatMap fun rule => rule.actions.map fun action => (rule.id, action) :=
    List.mem_flatMap.mpr ⟨rule, hrule, List.mem_map_of_mem haction⟩
  have hnot := h (rule.id, action) hmem
  simpa using hnot

/-- An install of any source is reported exactly when its rules resolve or its health was down. -/
theorem reported_installCompiled (store : PolicyStore detectors)
    (response : ClipboardPolicyResponse detectors) (source : PolicySource) :
    (if (store.installCompiled response source).1.isOk = true then
      InForce response ((store.installCompiled response source).2.policy source) ∧
        (store.installCompiled response source).2.rulesCompiledFor source = true ∧
        (store.installCompiled response source).2.policy (other source) = store.policy (other source)
    else
      (∀ source', (store.installCompiled response source).2.policy source' = store.policy source') ∧
        (store.installCompiled response source).2.rulesCompiledFor source = false) ↔
      response.effectiveRules.isOk = true ∨ store.rulesCompiledFor source = false := by
  rcases installCompiled_cases store response source with
    ⟨hresolve, hok, heq⟩ | ⟨hresolve, hok, heq⟩ | ⟨rules, compiled, hrules, hcompiled, _, hok, heq⟩
  · rw [hok, heq]
    simp [hresolve]
  · rw [hok, heq]
    simp [hresolve]
  · have hforce := inForce_activePolicy hrules hcompiled
    rw [hok, heq]
    simp [hrules, hforce, Except.isOk, Except.toBool]

end Installs

section Steps

open PolicyStore

variable {store : PolicyStore detectors} {response : ClipboardPolicyResponse detectors}

/-- A Fleet install takes only identifiers that no local rule holds. -/
theorem Separate_installFleet (h : store.Separate) : (store.installFleet response).2.Separate := by
  unfold installFleet
  rcases installCompiled_cases store response .fleet with
    ⟨_, _, heq⟩ | ⟨_, _, heq⟩ | ⟨rules, compiled, _, _, hcollision, _, heq⟩
  · rw [heq]
    exact h
  · rw [heq]
    exact ⟨h.apart, h.silent⟩
  · rw [heq]
    have hnone := firstRuleIdCollision_none hcollision
    exact ⟨fun id hid hin => hnone id hin hid, h.silent⟩

theorem reported_installFleet (h : store.Separate) :
    Reported store (.installFleet response) ∧ (store.step (.installFleet response)).Separate ↔
      Sound store (.installFleet response) := by
  have hreported := reported_installCompiled store response .fleet
  have hiff : Reported store (.installFleet response) ↔ Sound store (.installFleet response) := by
    refine Iff.trans ⟨fun hall => hall response .fleet rfl, ?_⟩ hreported
    rintro hone response' source' hresponse
    cases hresponse
    exact hone
  rw [hiff, and_iff_left_iff_imp]
  intro _
  exact Separate_installFleet h

theorem reported_install (h : store.Separate) :
    Reported store (.install response) ∧ (store.step (.install response)).Separate ↔
      Sound store (.install response) := by
  have heq := install_eq store response
  have hstep : store.step (.install response) = store.step (.installFleet response) := heq.2
  have hreported : Reported store (.install response) ↔ Reported store (.installFleet response) := by
    simp only [Reported, Call.response, hstep]
    have hcall : (store.call (.install response)).1 = (store.call (.installFleet response)).1 := heq.1
    rw [hcall]
  rw [hreported, hstep]
  exact reported_installFleet h

/-- A local response that is not refused outright goes to the installer. -/
theorem installLocal_cases (store : PolicyStore detectors)
    (response : ClipboardPolicyResponse detectors) :
    ((response.contentRules ≠ none ∨ response.reportingBinding ≠ none) ∧
        (store.installLocal response).1.isOk = false ∧ (store.installLocal response).2 = store) ∨
      (response.contentRules = none ∧ response.reportingBinding = none ∧
        firstOrganisationAction response.rules ≠ none ∧
        (store.installLocal response).1.isOk = false ∧
        (store.installLocal response).2 = store.setCompiledHealth .personal false) ∨
      (response.contentRules = none ∧ response.reportingBinding = none ∧
        firstOrganisationAction response.rules = none ∧
        store.installLocal response = store.installCompiled response .personal) := by
  by_cases hfree : response.contentRules = none ∧ response.reportingBinding = none
  · right
    cases hfirst : firstOrganisationAction response.rules with
    | some entry =>
      have heq : store.installLocal response = (.error (.localActionNotAllowed entry.1 entry.2),
          { store with localRulesCompiled := false }) := by
        simp [installLocal, hfree.1, hfree.2, hfirst]
      exact Or.inl ⟨hfree.1, hfree.2, by simp, by rw [heq]; rfl, by rw [heq]; rfl⟩
    | none =>
      have heq : store.installLocal response = store.installCompiled response .personal := by
        simp [installLocal, hfree.1, hfree.2, hfirst]
      exact Or.inr ⟨hfree.1, hfree.2, rfl, heq⟩
  · left
    have hsome : (response.contentRules.isSome || response.reportingBinding.isSome) = true := by
      rw [Bool.or_eq_true, Option.isSome_iff_ne_none, Option.isSome_iff_ne_none]
      by_contra hnot
      rw [not_or, not_not, not_not] at hnot
      exact hfree hnot
    have heq : store.installLocal response =
        (.error (.compile [.invalidRuleOptions 0]), store) := by
      simp only [installLocal, hsome, if_true]
    rw [Bool.or_eq_true, Option.isSome_iff_ne_none, Option.isSome_iff_ne_none] at hsome
    exact ⟨hsome, by rw [heq]; rfl, by rw [heq]⟩

/-- The rules of an admitted local response order nothing of Fleet exactly when none does so for a
channel. -/
theorem silent_iff_quiet {compiled : CompiledRuleSet detectors.Matcher}
    (hown : firstOrganisationAction response.rules = none)
    (hperm : (compiled.rules.map CompiledRule.body).Perm
      ((response.rules.filter Rule.enabled).map Rule.body)) :
    (∀ rule ∈ compiled.rules, ∀ action, Orders rule.body action →
      organisationAction action = false) ↔ Quiet response.rules := by
  have hmem : ∀ body, (∃ rule ∈ compiled.rules, rule.body = body) ↔
      ∃ rule ∈ response.rules, rule.enabled = true ∧ rule.body = body := by
    intro body
    have hiff := hperm.mem_iff (a := body)
    simpa [List.mem_filter, and_assoc] using hiff
  constructor
  · intro hsilent rule hrule henabled entry hentry action haction
    obtain ⟨compiledRule, hcompiled, hbody⟩ := (hmem rule.body).mpr ⟨rule, hrule, henabled, rfl⟩
    apply hsilent compiledRule hcompiled
    rw [hbody]
    exact Or.inr ⟨entry, hentry, haction⟩
  · intro hquiet compiledRule hcompiled action horders
    obtain ⟨rule, hrule, henabled, hbody⟩ := (hmem compiledRule.body).mp ⟨compiledRule, hcompiled, rfl⟩
    rw [← hbody] at horders
    rcases horders with haction | ⟨entry, hentry, haction⟩
    · exact firstOrganisationAction_none hown rule hrule action haction
    · exact hquiet rule hrule henabled entry hentry action haction

theorem effectiveRules_contentFree (h : response.contentRules = none) :
    response.effectiveRules = .ok response.rules := by
  simp only [ClipboardPolicyResponse.effectiveRules, h]

/-- A response that passes every check is installed. -/
theorem Installable.accepted (h : Installable store response) :
    (store.installCompiled response .personal).1.isOk = true := by
  have hrules := effectiveRules_contentFree h.contentFree
  have hcollision : firstRuleIdCollision response.rules (store.policy (other .personal)) = none :=
    h.apart
  have hcompiles := h.compiles
  cases hcompiled : compile detectors response.rules contentRuleLimits with
  | error errors => simp [hcompiled, Except.isOk, Except.toBool] at hcompiles
  | ok compiled =>
    have hresponse : response.compiled response.rules = .ok compiled := by
      simp only [ClipboardPolicyResponse.compiled, h.contentFree, hcompiled]
    simp [installCompiled, hrules, hcollision, hresponse, Except.isOk, Except.toBool]

theorem reported_installLocal (h : store.Separate) :
    Reported store (.installLocal response) ∧ (store.step (.installLocal response)).Separate ↔
      Sound store (.installLocal response) := by
  rcases installLocal_cases store response with
    ⟨hbound, hok, heq⟩ | ⟨hcontent, hbinding, hown, hok, heq⟩ | ⟨hcontent, hbinding, hown, heq⟩
  · have hfree : ¬ (response.contentRules = none ∧ response.reportingBinding = none) := by
      rintro ⟨hcontent, hbinding⟩
      exact hbound.elim (fun hne => hne hcontent) fun hne => hne hbinding
    have hinstallable : ¬ Installable store response := fun hi => hfree ⟨hi.contentFree, hi.unbound⟩
    simp [Reported, Call.response, call, step, hok, heq, Sound, hfree, hinstallable, h,
      rulesCompiledFor]
  · have hinstallable : ¬ Installable store response := fun hi => hown hi.ownActions
    have hsep : (store.setCompiledHealth .personal false).Separate := ⟨h.apart, h.silent⟩
    simp [Reported, Call.response, call, step, hok, heq, Sound, hcontent, hbinding, hinstallable, hsep]
  · have hreported := reported_installCompiled store response .personal
    have hiff : Reported store (.installLocal response) := by
      have hresolve : response.effectiveRules.isOk = true := by
        rw [effectiveRules_contentFree hcontent]
        rfl
      have := hreported.mpr (Or.inl hresolve)
      simpa [Reported, Call.response, call, step, heq] using this
    have hsound : Sound store (.installLocal response) ↔
        (Installable store response → Quiet response.rules) := by
      simp [Sound, hcontent, hbinding]
    rw [hsound, and_iff_right hiff]
    have hstep : store.step (.installLocal response) =
        (store.installCompiled response .personal).2 := by
      simp only [step, call, heq]
    rw [hstep]
    rcases installCompiled_cases store response .personal with
      ⟨_, hok, hstore⟩ | ⟨_, hok, hstore⟩ | ⟨rules, compiled, hrules, hcompiled, hcollision, _, hstore⟩
    · have hinstallable : ¬ Installable store response := fun hi => by
        have := hi.accepted
        simp [hok] at this
      rw [hstore]
      exact iff_of_true h fun hi => absurd hi hinstallable
    · have hinstallable : ¬ Installable store response := fun hi => by
        have := hi.accepted
        simp [hok] at this
      rw [hstore]
      exact iff_of_true ⟨h.apart, h.silent⟩ fun hi => absurd hi hinstallable
    · have hsame : rules = response.rules := by
        rw [effectiveRules_contentFree hcontent] at hrules
        exact (Except.ok.inj hrules).symm
      subst hsame
      have hset : response.compiled response.rules = compile detectors response.rules contentRuleLimits := by
        simp only [ClipboardPolicyResponse.compiled, hcontent]
      have hinstallable : Installable store response :=
        ⟨hcontent, hbinding, hown, hcollision, by rw [← hset, hcompiled]; rfl⟩
      have hquiet := silent_iff_quiet hown (compiled_rules hrules hcompiled)
      have hnone := firstRuleIdCollision_none hcollision
      rw [hstore]
      constructor
      · intro hsep _
        exact hquiet.mp hsep.silent
      · intro hall
        exact ⟨hnone, hquiet.mpr (hall hinstallable)⟩

/-- Unenrolment empties the Fleet policy and nothing else. -/
theorem reported_clear (h : store.Separate) :
    Reported store .clearFleetOnUnenroll ∧ (store.step .clearFleetOnUnenroll).Separate ↔
      Sound store .clearFleetOnUnenroll := by
  have hreported : Reported store .clearFleetOnUnenroll := by
    intro response source hresponse
    exact absurd hresponse (by simp [Call.response])
  have hsep : (store.step .clearFleetOnUnenroll).Separate :=
    ⟨fun _ _ => List.not_mem_nil, h.silent⟩
  exact iff_of_true ⟨hreported, hsep⟩ trivial

theorem reported_iff (h : store.Separate) (action : Call detectors) :
    Reported store action ∧ (store.step action).Separate ↔ Sound store action := by
  cases action with
  | install response => exact reported_install h
  | installLocal response => exact reported_installLocal h
  | installFleet response => exact reported_installFleet h
  | clearFleetOnUnenroll => exact reported_clear h

theorem separate_new : ({} : PolicyStore detectors).Separate :=
  ⟨fun _ h => absurd h List.not_mem_nil, fun _ h => absurd h List.not_mem_nil⟩

theorem throughout_reported_iff (calls : List (Call detectors)) (h : store.Separate) :
    Throughout PolicyStore.step (fun store call => Reported store call ∧ (store.step call).Separate)
      store calls ↔ Throughout PolicyStore.step Sound store calls := by
  induction calls generalizing store with
  | nil => exact Iff.rfl
  | cons call calls ih =>
    have hcall := reported_iff h call
    simp only [Throughout]
    constructor
    · rintro ⟨hstep, hrest⟩
      exact ⟨hcall.mp hstep, (ih hstep.2).mp hrest⟩
    · rintro ⟨hsound, hrest⟩
      have hstep := hcall.mpr hsound
      exact ⟨hstep, (ih hstep.2).mpr hrest⟩

/-- From a new store, every install is atomic and reported, the sources never share an identifier
and no local policy orders an action of Fleet, exactly while every call is `Sound`. -/
theorem installsFaithful_iff (detectors : Detectors) (calls : List (Call detectors)) :
    ({} : PolicyStore detectors).Separate ∧
      Throughout PolicyStore.step
        (fun store call => Reported store call ∧ (store.step call).Separate) {} calls ↔
      Throughout PolicyStore.step Sound ({} : PolicyStore detectors) calls := by
  rw [and_iff_right separate_new]
  exact throughout_reported_iff calls separate_new

end Steps

section Phrases

open PolicyStore

/-- Detectors that know phrases only: a phrase, and whether its case counts. -/
def phraseDetectors : Detectors where
  MatchKind := String × Bool
  Matcher := String × Bool
  Pace := Unit
  usesGlobalAllows _ := false
  buildGlobalAllows _ := ([], [], 0)
  build limits index phrase consumed :=
    if limits.maxPatternBytes < phrase.1.utf8ByteSize
    then (.error (.patternTooLong index limits.maxPatternBytes phrase.1.utf8ByteSize), consumed)
    else (.ok phrase, consumed)
  keywords _ := []
  metadata _ := ("custom", .custom)
  prefilterUsage _ := some 0
  builtinRules := []
  catalogue := []
  encodedLength _ := some 0
  late _ _ := false
  visit _ rule text _ :=
    if rule.matcher.1.toList <:+: text.toList then ⟨[(60, [])], [], false⟩ else ⟨[], [], false⟩
  decodedCandidates _ := 0

def sampleId : RuleId := ⟨"0e8f1a2b3c4d5e6f7a8b9c0d1e2f3a4b".toList, by decide⟩

def sampleRule (options : RuleOptions) : Rule phraseDetectors.MatchKind where
  options := options
  id := sampleId
  revision := 1
  name := "test rule"
  enabled := true
  priority := 100
  matcher := ("SECRET", true)
  severity := .warn
  actions := [.notifyUser]
  cooldownSeconds := 30
  snoozable := true
  locked := false

/-- A personal rule that reports to Fleet through the actions of a channel. -/
def channelReport : ClipboardPolicyResponse phraseDetectors where
  policyVersion := 0
  rules := [sampleRule { channelActions := [⟨.clipboard, [.reportFleet]⟩] }]
  contentRules := none
  reportingBinding := none

/-- A subtree of a schema that is not supported. -/
def unknownSchema : ClipboardPolicyResponse phraseDetectors where
  policyVersion := 2
  rules := []
  contentRules := some { schemaVersion := 2 }
  reportingBinding := none

theorem channel_action_installed :
    ¬ Throughout PolicyStore.step (fun store call => Reported store call ∧ (store.step call).Separate)
        {} [.installLocal channelReport] ∧
      ¬ Throughout PolicyStore.step
        (fun store call => Reported store call ∧ (store.step call).Separate)
        {} [.installFleet unknownSchema] := by
  rw [throughout_reported_iff _ separate_new, throughout_reported_iff _ separate_new]
  constructor
  · rintro ⟨⟨_, hquiet⟩, _⟩
    have hinstallable : Installable {} channelReport :=
      ⟨rfl, rfl, by decide, by decide, by decide⟩
    have hrule := hquiet hinstallable _ List.mem_cons_self rfl _ List.mem_cons_self _
      List.mem_cons_self
    exact absurd hrule (by decide)
  · rintro ⟨hresolve | hhealth, _⟩
    · exact absurd hresolve (by decide)
    · exact absurd hhealth (by decide)

end Phrases

end ClipboardGuard
