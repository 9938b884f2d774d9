import WinCommander.Clipboard.Policy

/-!
# Matching clipboard text

The text is evaluated against the user's policy and the Fleet policy, each with its own cooldowns,
and the matches that are ready are combined.  Leaving the user's installs out of a run changes
nothing of what Fleet's rules do in it, as long as the two sources name different rules.
-/

namespace ClipboardGuard

open ClipRules Machine PolicyStore

variable {detectors : Detectors}

section Cooldowns

inductive Emit where
  | now
  | suppressed (count : UInt32)
  deriving DecidableEq

structure LedgerEntry where
  lastEmit : ℕ
  suppressedSince : UInt32

/-- Cooldowns by rule, and the suppressions since a rule last fired.  Times are in nanoseconds. -/
structure CooldownState where
  cooldown : RuleId → Option LedgerEntry := fun _ => none
  pendingSuppressed : RuleId → Option UInt32 := fun _ => none

def shouldEmit (ledger : RuleId → Option LedgerEntry) (ruleId : RuleId) (now : ℕ)
    (cooldown : UInt32) : Emit × (RuleId → Option LedgerEntry) :=
  match ledger ruleId with
  | none => (.now, Function.update ledger ruleId (some ⟨now, 0⟩))
  | some entry =>
    -- a clock that goes back has elapsed nothing
    if cooldown.toNat * 1000000000 ≤ now - entry.lastEmit then
      (.now, Function.update ledger ruleId (some ⟨now, 0⟩))
    else
      (.suppressed (entry.suppressedSince + 1),
        Function.update ledger ruleId (some ⟨entry.lastEmit, entry.suppressedSince + 1⟩))

end Cooldowns

section Outcomes

inductive MatchOutcome where
  | noMatch
  | emit (verdict : Verdict) (suppressedSinceLast : UInt32)
  | suppressed (ruleId : RuleId) (count : UInt32)

structure SourcedVerdict where
  source : PolicySource
  verdict : Verdict
  suppressedSinceLast : UInt32
  deriving DecidableEq

structure CombinedVerdict where
  matched : List SourcedVerdict
  severity : Severity
  actions : List Action

inductive CombinedMatchOutcome where
  | noMatch
  | suppressed (source : PolicySource) (ruleId : RuleId) (count : UInt32)
  | emit (verdict : CombinedVerdict)

def severityRank : Severity → ℕ
  | .info => 0
  | .warn => 1
  | .high => 2
  | .critical => 3

/-- The last of the greatest severities. -/
def maxSeverity (best : Severity) (matched : List SourcedVerdict) : Severity :=
  matched.foldl (fun best m =>
    if severityRank m.verdict.severity < severityRank best then best else m.verdict.severity) best

/-- The actions of all matches, each once. -/
def unionActions (matched : List SourcedVerdict) : List Action :=
  matched.foldl (fun known m =>
    m.verdict.actions.foldl (fun known a => if a ∈ known then known else known ++ [a]) known) []

/-- At least one match is combined. -/
def combine (first : SourcedVerdict) (rest : List SourcedVerdict) : CombinedVerdict where
  matched := first :: rest
  severity := maxSeverity first.verdict.severity rest
  actions := unionActions (first :: rest)

def combinedOutcome (matched : List SourcedVerdict)
    (suppressed : Option (PolicySource × RuleId × UInt32)) : CombinedMatchOutcome :=
  match matched with
  | first :: rest => .emit (combine first rest)
  | [] =>
    match suppressed with
    | some (source, ruleId, count) => .suppressed source ruleId count
    | none => .noMatch

structure ContentObservation where
  outcome : CombinedMatchOutcome
  findings : List (PolicySource × Finding)
  localSpans : List LocalSpan
  truncated : Bool

end Outcomes

section Observe

/-- One ledger for callers that know of one policy, and one for each source. -/
structure MatchEngine where
  single : CooldownState := {}
  localCooldown : CooldownState := {}
  fleetCooldown : CooldownState := {}

def maxClipboardReadBytes : ℕ := 1048576

/-- A verdict passes its rule's cooldown, or is counted. -/
def gate (state : CooldownState) (policy : ActivePolicy detectors) (verdict : Verdict) (now : ℕ) :
    MatchOutcome × CooldownState :=
  let decided := shouldEmit state.cooldown verdict.ruleId now (policy.cooldownFor verdict.ruleId)
  match decided.1 with
  | .now => (.emit verdict ((state.pendingSuppressed verdict.ruleId).getD 0),
      ⟨decided.2, Function.update state.pendingSuppressed verdict.ruleId none⟩)
  | .suppressed count => (.suppressed verdict.ruleId count,
      ⟨decided.2, Function.update state.pendingSuppressed verdict.ruleId (some count)⟩)

def observeOne (state : CooldownState) (policy : ActivePolicy detectors) (text : String) (now : ℕ)
    (pace : detectors.Pace) : MatchOutcome × CooldownState :=
  match policy.compiled.evaluate text pace with
  | none => (.noMatch, state)
  | some verdict => gate state policy verdict now

def MatchEngine.observe (engine : MatchEngine) (policy : ActivePolicy detectors) (text : String)
    (now : ℕ) (pace : detectors.Pace) : MatchOutcome × MatchEngine :=
  let observed := observeOne engine.single policy (truncateForMatch text maxClipboardReadBytes) now pace
  (observed.1, { engine with single := observed.2 })

/-- The match of an outcome, if it is ready. -/
def MatchOutcome.ready (source : PolicySource) : MatchOutcome → List SourcedVerdict
  | .emit verdict suppressedSinceLast => [⟨source, verdict, suppressedSinceLast⟩]
  | _ => []

def MatchOutcome.held (source : PolicySource) :
    MatchOutcome → Option (PolicySource × RuleId × UInt32)
  | .suppressed ruleId count => some (source, ruleId, count)
  | _ => none

def MatchEngine.observeSources (engine : MatchEngine) (policies : PolicyStore detectors)
    (text : String) (now : ℕ) (localPace fleetPace : detectors.Pace) :
    CombinedMatchOutcome × MatchEngine :=
  let truncated := truncateForMatch text maxClipboardReadBytes
  let personal := observeOne engine.localCooldown policies.personal truncated now localPace
  let fleet := observeOne engine.fleetCooldown policies.fleet truncated now fleetPace
  (combinedOutcome (personal.1.ready .personal ++ fleet.1.ready .fleet)
      ((personal.1.held .personal).or (fleet.1.held .fleet)),
    { engine with localCooldown := personal.2, fleetCooldown := fleet.2 })

/-- Every finding of a source goes through its cooldown. -/
def gateFindings (state : CooldownState) (policy : ActivePolicy detectors) (now : ℕ) :
    List Finding → List MatchOutcome × CooldownState
  | [] => ([], state)
  | finding :: findings =>
    let gated := gate state policy finding.toVerdict now
    let rest := gateFindings gated.2 policy now findings
    (gated.1 :: rest.1, rest.2)

def MatchEngine.observeContentSources (engine : MatchEngine) (policies : PolicyStore detectors)
    (text : String) (now : ℕ) (localPace fleetPace : detectors.Pace) :
    ContentObservation × MatchEngine :=
  let localReport := policies.personal.compiled.scan text .clipboard localPace
  let fleetReport := policies.fleet.compiled.scan text .clipboard fleetPace
  let personal := gateFindings engine.localCooldown policies.personal now localReport.findings
  let fleet := gateFindings engine.fleetCooldown policies.fleet now fleetReport.findings
  let observation : ContentObservation := {
    outcome := combinedOutcome
      (personal.1.flatMap (MatchOutcome.ready .personal) ++
        fleet.1.flatMap (MatchOutcome.ready .fleet))
      ((personal.1.findSome? (MatchOutcome.held .personal)).or
        (fleet.1.findSome? (MatchOutcome.held .fleet)))
    findings := localReport.findings.map (fun f => (.personal, f)) ++
      fleetReport.findings.map (fun f => (.fleet, f))
    localSpans := localReport.localSpans ++ fleetReport.localSpans
    truncated := localReport.truncated || fleetReport.truncated }
  (observation, { engine with localCooldown := personal.2, fleetCooldown := fleet.2 })

end Observe

section Guard

/-- The helper: its policies and its matching state. -/
structure Guard (detectors : Detectors) where
  store : PolicyStore detectors := {}
  engine : MatchEngine := {}

inductive Event (detectors : Detectors) where
  | policy (call : Call detectors)
  | observe (text : String) (now : ℕ) (pace : detectors.Pace)
  | observeSources (text : String) (now : ℕ) (localPace fleetPace : detectors.Pace)
  | observeContentSources (text : String) (now : ℕ) (localPace fleetPace : detectors.Pace)

def Event.isLocal : Event detectors → Bool
  | .policy (.installLocal _) => true
  | _ => false

def Guard.step (guard : Guard detectors) : Event detectors → Guard detectors
  | .policy call => { guard with store := guard.store.step call }
  | .observe text now pace =>
    { guard with engine := (guard.engine.observe guard.store.fleet text now pace).2 }
  | .observeSources text now localPace fleetPace =>
    { guard with
      engine := (guard.engine.observeSources guard.store text now localPace fleetPace).2 }
  | .observeContentSources text now localPace fleetPace =>
    { guard with
      engine := (guard.engine.observeContentSources guard.store text now localPace fleetPace).2 }

/-- What an event shows.  The older observation evaluates the active policy, which is Fleet's. -/
def Guard.observed (guard : Guard detectors) : Event detectors → Option ContentObservation
  | .policy _ => none
  | .observe text now pace =>
    let outcome := (guard.engine.observe guard.store.fleet text now pace).1
    some ⟨combinedOutcome (outcome.ready .fleet) (outcome.held .fleet), [], [], false⟩
  | .observeSources text now localPace fleetPace =>
    some ⟨(guard.engine.observeSources guard.store text now localPace fleetPace).1, [], [], false⟩
  | .observeContentSources text now localPace fleetPace =>
    some (guard.engine.observeContentSources guard.store text now localPace fleetPace).1

/-- The matches of a source that an outcome lets through. -/
def CombinedMatchOutcome.of (source : PolicySource) : CombinedMatchOutcome → List SourcedVerdict
  | .emit verdict => verdict.matched.filter fun m => m.source = source
  | _ => []

/-- What is seen of Fleet after an event: the policy in force, the matches with the suppressions
they carry, the findings, and the suppressions still held for each rule in either ledger. -/
structure FleetView (detectors : Detectors) where
  policy : ActivePolicy detectors
  matched : List SourcedVerdict
  findings : List (PolicySource × Finding)
  held : RuleId → Option UInt32
  heldSingle : RuleId → Option UInt32

def Guard.fleetView (guard : Guard detectors) (event : Event detectors) : FleetView detectors where
  policy := (guard.step event).store.fleet
  matched := ((guard.observed event).map fun o => o.outcome.of .fleet).getD []
  findings := ((guard.observed event).map fun o => o.findings.filter fun f => f.1 = .fleet).getD []
  held := (guard.step event).engine.fleetCooldown.pendingSuppressed
  heldSingle := (guard.step event).engine.single.pendingSuppressed

/-- What is seen of Fleet after each event that is no local install. -/
def Guard.fleetViews (guard : Guard detectors) (events : List (Event detectors)) :
    List (FleetView detectors) :=
  outputs Guard.step (fun guard event =>
    if event.isLocal then [] else [guard.fleetView event]) guard events

/-- A Fleet response names no rule of the local policy in force. -/
def Apart (guard : Guard detectors) : Event detectors → Prop
  | .policy (.installFleet response) => ∀ rules, response.effectiveRules = .ok rules →
      firstRuleIdCollision rules guard.store.personal = none
  | .policy (.install response) => ∀ rules, response.effectiveRules = .ok rules →
      firstRuleIdCollision rules guard.store.personal = none
  | _ => True

/-- A combined verdict orders every action of its matches, and is as severe as the worst of them. -/
structure CombinedVerdict.Additive (verdict : CombinedVerdict) : Prop where
  actions : ∀ m ∈ verdict.matched, ∀ action ∈ m.verdict.actions, action ∈ verdict.actions
  bound : ∀ m ∈ verdict.matched, severityRank m.verdict.severity ≤ severityRank verdict.severity
  attained : ∃ m ∈ verdict.matched, m.verdict.severity = verdict.severity

end Guard

section Combine

theorem maxSeverity_spec (best : Severity) (matched : List SourcedVerdict) :
    severityRank best ≤ severityRank (maxSeverity best matched) ∧
      (∀ m ∈ matched, severityRank m.verdict.severity ≤ severityRank (maxSeverity best matched)) ∧
      (maxSeverity best matched = best ∨ ∃ m ∈ matched, m.verdict.severity = maxSeverity best matched) := by
  induction matched generalizing best with
  | nil => simp [maxSeverity]
  | cons m matched ih =>
    by_cases h : severityRank m.verdict.severity < severityRank best
    · have heq : maxSeverity best (m :: matched) = maxSeverity best matched := by
        simp [maxSeverity, h]
      have hbest := ih best
      rw [heq]
      refine ⟨hbest.1, ?_, hbest.2.2.imp_right ?_⟩
      · rw [List.forall_mem_cons]
        exact ⟨by omega, hbest.2.1⟩
      · rintro ⟨m', hm', hsev⟩
        exact ⟨m', List.mem_cons_of_mem _ hm', hsev⟩
    · have heq : maxSeverity best (m :: matched) = maxSeverity m.verdict.severity matched := by
        simp [maxSeverity, h]
      have hbest := ih m.verdict.severity
      rw [heq]
      refine ⟨by omega, ?_, Or.inr ?_⟩
      · rw [List.forall_mem_cons]
        exact ⟨hbest.1, hbest.2.1⟩
      · rcases hbest.2.2 with hsame | ⟨m', hm', hsev⟩
        · exact ⟨m, List.mem_cons_self, hsame.symm⟩
        · exact ⟨m', List.mem_cons_of_mem _ hm', hsev⟩

theorem mem_addActions {known actions : List Action} {a : Action} :
    a ∈ actions.foldl (fun known a => if a ∈ known then known else known ++ [a]) known ↔
      a ∈ known ∨ a ∈ actions := by
  induction actions generalizing known with
  | nil => simp
  | cons b actions ih =>
    rw [List.foldl_cons, ih, List.mem_cons]
    by_cases hb : b ∈ known
    · rw [if_pos hb]
      by_cases hab : a = b
      · simp [hab, hb]
      · simp [hab]
    · rw [if_neg hb, List.mem_append, List.mem_singleton, or_assoc]

theorem mem_unionActions {matched : List SourcedVerdict} {a : Action} :
    a ∈ unionActions matched ↔ ∃ m ∈ matched, a ∈ m.verdict.actions := by
  have hfold : ∀ known : List Action, a ∈ matched.foldl (fun known m =>
      m.verdict.actions.foldl (fun known a => if a ∈ known then known else known ++ [a]) known) known ↔
      a ∈ known ∨ ∃ m ∈ matched, a ∈ m.verdict.actions := by
    induction matched with
    | nil => simp
    | cons m matched ih =>
      intro known
      rw [List.foldl_cons, ih, mem_addActions]
      simp [or_assoc]
  have h := hfold []
  simpa [unionActions] using h

theorem combine_additive (first : SourcedVerdict) (rest : List SourcedVerdict) :
    (combine first rest).Additive := by
  have hspec := maxSeverity_spec first.verdict.severity rest
  refine ⟨fun m hm action haction => mem_unionActions.mpr ⟨m, hm, haction⟩, ?_, ?_⟩
  · intro m hm
    rcases List.mem_cons.mp hm with rfl | hm
    · exact hspec.1
    · exact hspec.2.1 m hm
  · rcases hspec.2.2 with hsame | ⟨m, hm, hsev⟩
    · exact ⟨first, List.mem_cons_self, hsame.symm⟩
    · exact ⟨m, List.mem_cons_of_mem _ hm, hsev⟩

theorem combinedOutcome_additive {matched : List SourcedVerdict}
    {suppressed : Option (PolicySource × RuleId × UInt32)} {verdict : CombinedVerdict}
    (h : combinedOutcome matched suppressed = .emit verdict) : verdict.Additive := by
  cases matched with
  | nil =>
    cases suppressed with
    | none => exact absurd h (by simp [combinedOutcome])
    | some held => exact absurd h (by simp [combinedOutcome])
  | cons first rest =>
    have heq : combine first rest = verdict := by simpa [combinedOutcome] using h
    rw [← heq]
    exact combine_additive first rest

theorem of_combinedOutcome (source : PolicySource) (matched : List SourcedVerdict)
    (suppressed : Option (PolicySource × RuleId × UInt32)) :
    (combinedOutcome matched suppressed).of source = matched.filter fun m => m.source = source := by
  cases matched with
  | nil =>
    cases suppressed with
    | none => rfl
    | some held => rfl
  | cons first rest => rfl

end Combine

section TwoRuns

variable {guard guard' : Guard detectors}

/-- Two states of the helper that are the same for Fleet; the second has no local rule. -/
structure SameFleet (guard guard' : Guard detectors) : Prop where
  policy : guard.store.fleet = guard'.store.fleet
  cooldown : guard.engine.fleetCooldown = guard'.engine.fleetCooldown
  single : guard.engine.single = guard'.engine.single
  bare : guard'.store.personal = .empty

theorem MatchOutcome.ready_filter (source source' : PolicySource) (outcome : MatchOutcome) :
    (outcome.ready source).filter (fun m => m.source = source') =
      if source = source' then outcome.ready source else [] := by
  cases outcome with
  | emit verdict count => by_cases h : source = source' <;> simp [MatchOutcome.ready, h]
  | _ => simp [MatchOutcome.ready]

theorem flatMap_ready_filter (source source' : PolicySource) (outcomes : List MatchOutcome) :
    (outcomes.flatMap (MatchOutcome.ready source)).filter (fun m => m.source = source') =
      if source = source' then outcomes.flatMap (MatchOutcome.ready source) else [] := by
  induction outcomes with
  | nil => simp
  | cons outcome outcomes ih =>
    rw [List.flatMap_cons, List.filter_append, ih, MatchOutcome.ready_filter]
    by_cases h : source = source' <;> simp [h]

theorem firstRuleIdCollision_empty (rules : List (Rule detectors.MatchKind)) :
    firstRuleIdCollision rules (ActivePolicy.empty : ActivePolicy detectors) = none := by
  simp [firstRuleIdCollision, ActivePolicy.empty]

/-- What a Fleet install puts in force does not depend on local rules that it does not name. -/
theorem installFleet_fleet {store store' : PolicyStore detectors}
    {response : ClipboardPolicyResponse detectors} (hfleet : store.fleet = store'.fleet)
    (h : ∀ rules, response.effectiveRules = .ok rules →
      firstRuleIdCollision rules store.personal = none)
    (h' : store'.personal = .empty) :
    (store.installFleet response).2.fleet = (store'.installFleet response).2.fleet ∧
      (store'.installFleet response).2.personal = .empty := by
  unfold installFleet installCompiled
  cases hrules : response.effectiveRules with
  | error errors => exact ⟨hfleet, h'⟩
  | ok rules =>
    have hnone : firstRuleIdCollision rules (store.policy (other .fleet)) = none := h rules hrules
    have hnone' : firstRuleIdCollision rules (store'.policy (other .fleet)) = none := by
      have hempty : store'.policy (other .fleet) = .empty := h'
      rw [hempty]
      exact firstRuleIdCollision_empty rules
    simp only [hnone, hnone']
    cases response.compiled rules with
    | error errors => exact ⟨hfleet, h'⟩
    | ok compiled => exact ⟨rfl, h'⟩

/-- A local install leaves Fleet alone. -/
theorem installLocal_fleet (store : PolicyStore detectors)
    (response : ClipboardPolicyResponse detectors) :
    (store.installLocal response).2.fleet = store.fleet := by
  rcases installLocal_cases store response with
    ⟨_, _, heq⟩ | ⟨_, _, _, _, heq⟩ | ⟨_, _, _, heq⟩
  · rw [heq]
  · rw [heq]
    rfl
  · rw [heq]
    rcases installCompiled_cases store response .personal with
      ⟨_, _, heq⟩ | ⟨_, _, heq⟩ | ⟨rules, compiled, _, _, _, _, heq⟩
    · rw [heq]
    · rw [heq]
      rfl
    · rw [heq]
      rfl

theorem SameFleet.installLocal (h : SameFleet guard guard')
    (response : ClipboardPolicyResponse detectors) :
    SameFleet (guard.step (.policy (.installLocal response))) guard' :=
  ⟨(installLocal_fleet guard.store response).trans h.policy, h.cooldown, h.single,
    h.bare⟩

theorem SameFleet.observe (h : SameFleet guard guard') (text : String) (now : ℕ)
    (pace : detectors.Pace) :
    SameFleet (guard.step (.observe text now pace)) (guard'.step (.observe text now pace)) ∧
      guard.fleetView (.observe text now pace) = guard'.fleetView (.observe text now pace) := by
  have hpolicy := h.policy
  have hcooldown := h.cooldown
  have hsingle := h.single
  refine ⟨⟨hpolicy, hcooldown, ?_, h.bare⟩, ?_⟩
  · simp only [Guard.step, MatchEngine.observe, hpolicy, hsingle]
  · simp only [Guard.fleetView, Guard.step, Guard.observed, MatchEngine.observe, hpolicy, hsingle,
      hcooldown]

/-- What Fleet's rules do at an observation depends on what is the same for Fleet only. -/
theorem SameFleet.observeSources (h : SameFleet guard guard') (text : String) (now : ℕ)
    (localPace fleetPace : detectors.Pace) :
    SameFleet (guard.step (.observeSources text now localPace fleetPace))
        (guard'.step (.observeSources text now localPace fleetPace)) ∧
      guard.fleetView (.observeSources text now localPace fleetPace) =
        guard'.fleetView (.observeSources text now localPace fleetPace) := by
  have hpolicy := h.policy
  have hcooldown := h.cooldown
  have hsingle := h.single
  refine ⟨⟨hpolicy, ?_, hsingle, h.bare⟩, ?_⟩
  · simp only [Guard.step, MatchEngine.observeSources, hpolicy, hcooldown]
  · simp only [Guard.fleetView, Guard.step, Guard.observed, MatchEngine.observeSources, Option.map_some,
      Option.getD_some, of_combinedOutcome, List.filter_append, MatchOutcome.ready_filter, hpolicy,
      hcooldown, hsingle]
    simp

theorem SameFleet.observeContentSources (h : SameFleet guard guard') (text : String) (now : ℕ)
    (localPace fleetPace : detectors.Pace) :
    SameFleet (guard.step (.observeContentSources text now localPace fleetPace))
        (guard'.step (.observeContentSources text now localPace fleetPace)) ∧
      guard.fleetView (.observeContentSources text now localPace fleetPace) =
        guard'.fleetView (.observeContentSources text now localPace fleetPace) := by
  have hpolicy := h.policy
  have hcooldown := h.cooldown
  have hsingle := h.single
  refine ⟨⟨hpolicy, ?_, hsingle, h.bare⟩, ?_⟩
  · simp only [Guard.step, MatchEngine.observeContentSources, hpolicy, hcooldown]
  · simp only [Guard.fleetView, Guard.step, Guard.observed, MatchEngine.observeContentSources,
      Option.map_some, Option.getD_some, of_combinedOutcome, List.filter_append, flatMap_ready_filter,
      List.filter_map, hpolicy, hcooldown, hsingle]
    simp [Function.comp_def]

theorem fleetView_policy (guard : Guard detectors) (call : Call detectors) :
    guard.fleetView (.policy call) =
      ⟨(guard.store.step call).fleet, [], [], guard.engine.fleetCooldown.pendingSuppressed,
        guard.engine.single.pendingSuppressed⟩ := rfl

/-- An event that both runs take shows the same of Fleet in both. -/
theorem SameFleet.step (h : SameFleet guard guard') {event : Event detectors}
    (hlocal : event.isLocal = false) (hapart : Apart guard event) :
    SameFleet (guard.step event) (guard'.step event) ∧
      guard.fleetView event = guard'.fleetView event := by
  cases event with
  | observe text now pace => exact h.observe text now pace
  | observeSources text now localPace fleetPace => exact h.observeSources text now localPace fleetPace
  | observeContentSources text now localPace fleetPace =>
    exact h.observeContentSources text now localPace fleetPace
  | policy call =>
    rw [fleetView_policy, fleetView_policy, h.cooldown, h.single]
    cases call with
    | installLocal response => exact absurd hlocal (by simp [Event.isLocal])
    | installFleet response =>
      have hfleet := installFleet_fleet h.policy hapart h.bare
      have hview : (guard.store.step (.installFleet response)).fleet =
          (guard'.store.step (.installFleet response)).fleet := hfleet.1
      exact ⟨⟨hview, h.cooldown, h.single, hfleet.2⟩, by rw [hview]⟩
    | install response =>
      have hfleet := installFleet_fleet h.policy hapart h.bare
      have heq : guard.store.step (.install response) = guard.store.step (.installFleet response) :=
        (install_eq guard.store response).2
      have heq' : guard'.store.step (.install response) =
          guard'.store.step (.installFleet response) := (install_eq guard'.store response).2
      have hview : (guard.store.step (.install response)).fleet =
          (guard'.store.step (.install response)).fleet := by
        rw [heq, heq']
        exact hfleet.1
      refine ⟨⟨hview, h.cooldown, h.single, ?_⟩, by rw [hview]⟩
      have hbare : (guard'.store.step (.install response)).personal = .empty := by
        rw [heq']
        exact hfleet.2
      exact hbare
    | clearFleetOnUnenroll => exact ⟨⟨rfl, h.cooldown, h.single, h.bare⟩, rfl⟩

/-- Leaving out every local install of a run leaves what is seen of Fleet as it was. -/
theorem fleetViews_eq (h : SameFleet guard guard') (events : List (Event detectors))
    (hapart : Throughout Guard.step Apart guard events) :
    guard.fleetViews events = guard'.fleetViews (events.filter fun event => !event.isLocal) := by
  induction events generalizing guard guard' with
  | nil => rfl
  | cons event events ih =>
    by_cases hlocal : event.isLocal = true
    · -- a local install happens in the first run only
      have hkeep : SameFleet (guard.step event) guard' := by
        cases event with
        | policy call =>
          cases call with
          | installLocal response => exact h.installLocal response
          | _ => simp [Event.isLocal] at hlocal
        | _ => simp [Event.isLocal] at hlocal
      have hrest := ih hkeep hapart.2
      simpa [Guard.fleetViews, outputs, hlocal] using hrest
    · rw [Bool.not_eq_true] at hlocal
      have hstep := h.step hlocal hapart.1
      have hrest := ih hstep.1 hapart.2
      simpa [Guard.fleetViews, outputs, hlocal, hstep.2] using hrest

theorem observed_additive (guard : Guard detectors) (event : Event detectors)
    {observation : ContentObservation} (h : guard.observed event = some observation)
    {verdict : CombinedVerdict} (hemit : observation.outcome = .emit verdict) : verdict.Additive := by
  cases event with
  | policy call => exact absurd h (by simp [Guard.observed])
  | observe text now pace =>
    rw [Guard.observed, Option.some.injEq] at h
    subst h
    exact combinedOutcome_additive hemit
  | observeSources text now localPace fleetPace =>
    rw [Guard.observed, Option.some.injEq] at h
    subst h
    exact combinedOutcome_additive hemit
  | observeContentSources text now localPace fleetPace =>
    rw [Guard.observed, Option.some.injEq] at h
    subst h
    exact combinedOutcome_additive hemit

/-- While Fleet responses name no rule of the local policy in force, a run shows the same of Fleet
with its local installs as without them; and every combined verdict is additive. -/
theorem localAdditive (detectors : Detectors) (events : List (Event detectors)) :
    (Throughout Guard.step Apart ({} : Guard detectors) events →
      ({} : Guard detectors).fleetViews events =
        ({} : Guard detectors).fleetViews (events.filter fun event => !event.isLocal)) ∧
      Throughout Guard.step (fun guard event => ∀ observation verdict,
        guard.observed event = some observation → observation.outcome = .emit verdict →
          verdict.Additive) ({} : Guard detectors) events :=
  ⟨fun hapart => fleetViews_eq ⟨rfl, rfl, rfl, rfl⟩ events hapart,
    Throughout.of_forall (fun guard event _ _ hobserved hemit =>
      observed_additive guard event hobserved hemit) _ _⟩

/-- A personal rule, and Fleet rules with its identifier and with another one. -/
def personalSample : ClipboardPolicyResponse phraseDetectors where
  policyVersion := 0
  rules := [sampleRule {}]
  contentRules := none
  reportingBinding := none

def fleetSample : ClipboardPolicyResponse phraseDetectors where
  policyVersion := 9
  rules := [sampleRule {}]
  contentRules := none
  reportingBinding := none

def otherId : RuleId := ⟨"1a2b3c4d5e6f7a8b9c0d1e2f3a4b0e8f".toList, by decide⟩

def otherSample : ClipboardPolicyResponse phraseDetectors where
  policyVersion := 9
  rules := [{ sampleRule {} with id := otherId }]
  contentRules := none
  reportingBinding := none

theorem localAdditive_sample :
    ({} : Guard phraseDetectors).fleetViews
        [.policy (.installLocal personalSample), .policy (.installFleet otherSample),
          .observeContentSources "my SECRET value" 0 () ()] =
      ({} : Guard phraseDetectors).fleetViews
        ([.policy (.installLocal personalSample), .policy (.installFleet otherSample),
          .observeContentSources "my SECRET value" 0 () ()].filter fun event => !event.isLocal) := by
  apply (localAdditive phraseDetectors _).1
  refine ⟨trivial, ?_, trivial, trivial⟩
  intro rules hrules
  have hsame : rules = otherSample.rules := (Except.ok.inj hrules).symm
  subst hsame
  decide

/-- A personal rule that holds the identifier of a Fleet rule keeps the Fleet policy out. -/
theorem personal_rule_blocks_fleet :
    ({} : Guard phraseDetectors).fleetViews
        [.policy (.installLocal personalSample), .policy (.installFleet fleetSample)] ≠
      ({} : Guard phraseDetectors).fleetViews
        ([.policy (.installLocal personalSample), .policy (.installFleet fleetSample)].filter
          fun event => !event.isLocal) := by
  intro h
  have hversions := congrArg (List.map fun view => view.policy.policyVersion) h
  exact absurd hversions (by decide)

end TwoRuns

end ClipboardGuard
