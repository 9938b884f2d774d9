import Mathlib

/-!
# Clipboard rules

The rule compiler and the scanner.  Regular expressions, the shared keyword filter, the detector
catalogue and the scanner's clock are a `Detectors`; which rules are compiled, what refuses them and
how the candidates of a rule become its finding is here.
-/

namespace ClipRules

inductive Action where
  | maskMatches
  | notifyUser
  | clearClipboard
  | quarantineClipboard
  | recordLocalReceipt
  | reportFleet
  | alertAdmin
  deriving DecidableEq, Repr

inductive Severity where
  | info
  | warn
  | high
  | critical
  deriving DecidableEq, Repr

inductive Channel where
  | clipboard
  | removable
  | atRestScan
  deriving DecidableEq, Repr

inductive DetectorCategory where
  | paymentCard
  | bankAccount
  | nationalId
  | taxId
  | health
  | contactInfo
  | cloudKey
  | token
  | privateKey
  | connectionString
  | crypto
  | custom
  deriving DecidableEq, Repr

inductive Encoding where
  | base64
  | hex
  deriving DecidableEq, Repr

inductive Reason where
  | checksumValid
  | contextWord
  | entropyAbove
  | decoded (encoding : Encoding)
  | keywordPrefilter
  deriving DecidableEq, Repr

def isLowerHex (c : Char) : Bool :=
  ('0' ≤ c ∧ c ≤ '9') ∨ ('a' ≤ c ∧ c ≤ 'f')

/-- A lowercase identifier of 32 hexadecimal digits, or of 36 characters with hyphens. -/
def ruleIdShape (text : List Char) : Bool :=
  match text.length with
  | 32 => text.all isLowerHex
  | 36 => (List.range 36).zip text |>.all fun p =>
      if p.1 = 8 ∨ p.1 = 13 ∨ p.1 = 18 ∨ p.1 = 23 then p.2 = '-' else isLowerHex p.2
  | _ => false

abbrev RuleId := { text : List Char // ruleIdShape text = true }

structure ChannelActions where
  channel : Channel
  actions : List Action
  deriving DecidableEq

structure RuleOptions where
  keywords : List String := []
  context : List String := []
  threshold : UInt8 := 50
  channels : List Channel := [.clipboard]
  allowList : List String := []
  channelActions : List ChannelActions := []
  deriving DecidableEq

/-- A rule over the matchers of a catalogue. -/
structure Rule (MatchKind : Type) where
  options : RuleOptions
  id : RuleId
  revision : UInt32
  name : String
  enabled : Bool
  priority : UInt16
  matcher : MatchKind
  severity : Severity
  actions : List Action
  cooldownSeconds : UInt32
  snoozable : Bool
  locked : Bool

structure RuleSetLimits where
  maxEnabledRules : ℕ := 100
  maxPatternBytes : ℕ := 2048
  maxTextBytes : ℕ := 1048576
  regexSizeLimit : ℕ := 256 * 1024
  regexTotalSizeLimit : ℕ := 8 * 1024 * 1024

inductive CompileError where
  | tooManyEnabledRules (limit actual : ℕ)
  | patternTooLong (index limit actual : ℕ)
  | lookaroundUnsupported (index : ℕ)
  | regexSyntax (index : ℕ)
  | invalidRuleOptions (index : ℕ)
  | unknownDetector (index : ℕ)
  | regexProgramTooLarge (index limit : ℕ)
  | regexTotalProgramTooLarge (index limit actual : ℕ)
  deriving DecidableEq

/-- The part of a rule that its matches carry. -/
structure RuleBody where
  id : RuleId
  revision : UInt32
  priority : UInt16
  severity : Severity
  actions : List Action
  options : RuleOptions
  deriving DecidableEq

structure CompiledRule (Matcher : Type) where
  id : RuleId
  revision : UInt32
  priority : UInt16
  severity : Severity
  actions : List Action
  matcher : Matcher
  options : RuleOptions
  detectorId : String
  category : DetectorCategory
  keywordIds : List ℕ

structure CompiledRuleSet (Matcher : Type) where
  rules : List (CompiledRule Matcher)
  maxTextBytes : ℕ
  globalAllows : List Matcher
  keywords : List String
  globalAllowList : List String

def CompiledRuleSet.empty {Matcher : Type} : CompiledRuleSet Matcher where
  rules := []
  maxTextBytes := 1048576
  globalAllows := []
  keywords := []
  globalAllowList := []

structure BuiltinTuning where
  detectorId : String
  enabled : Bool
  threshold : UInt8

structure ContentTuning where
  builtins : List BuiltinTuning := []
  allowList : List String := []
  channelActions : List ChannelActions := []

structure ContentRulesSubtree (MatchKind : Type) where
  enabled : Bool := true
  schemaVersion : UInt32 := 1
  revision : UInt64 := 0
  rules : List (Rule MatchKind) := []
  tuning : ContentTuning := {}

/-- A stretch of the scanned text that a rule matched. -/
structure LocalSpan where
  start : ℕ
  stop : ℕ
  ruleId : RuleId
  category : DetectorCategory

/-- What looking for one rule's candidates gave before the deadline. -/
structure Visit where
  hits : List (UInt8 × List Reason)
  spans : List LocalSpan
  exhausted : Bool

/-- The matcher engines, the catalogue and the scanner's clock.  `Pace` is how fast a scan went. -/
structure Detectors where
  MatchKind : Type
  Matcher : Type
  Pace : Type
  usesGlobalAllows : MatchKind → Bool
  buildGlobalAllows : RuleSetLimits → List Matcher × List CompileError × ℕ
  build : RuleSetLimits → ℕ → MatchKind → ℕ → Except CompileError Matcher × ℕ
  keywords : MatchKind → List String
  metadata : MatchKind → String × DetectorCategory
  prefilterUsage : List String → Option ℕ
  builtinRules : List (Rule MatchKind)
  catalogue : List String
  encodedLength : ContentRulesSubtree MatchKind → Option ℕ
  late : Pace → ℕ → Bool
  visit : CompiledRuleSet Matcher → CompiledRule Matcher → String → Pace → Visit
  decodedCandidates : String → ℕ

variable {detectors : Detectors}

def Rule.body {MatchKind : Type} (rule : Rule MatchKind) : RuleBody where
  id := rule.id
  revision := rule.revision
  priority := rule.priority
  severity := rule.severity
  actions := rule.actions
  options := rule.options

def CompiledRule.body {Matcher : Type} (rule : CompiledRule Matcher) : RuleBody where
  id := rule.id
  revision := rule.revision
  priority := rule.priority
  severity := rule.severity
  actions := rule.actions
  options := rule.options

section Options

def clipboardMutation (action : Action) : Bool :=
  action = .maskMatches ∨ action = .clearClipboard ∨ action = .quarantineClipboard

def validOptions {MatchKind : Type} (rule : Rule MatchKind) : Bool :=
  let options := rule.options
  let texts := options.keywords ++ options.context ++ options.allowList
  !(100 < options.threshold || options.channels.isEmpty || 3 < options.channels.length ||
    64 < options.keywords.length || 64 < options.context.length ||
    256 < options.allowList.length || 3 < options.channelActions.length ||
    7 < rule.actions.length ||
    texts.any (fun s => s.isEmpty || 2048 < s.utf8ByteSize) ||
    !decide options.channels.Nodup || !decide rule.actions.Nodup) &&
  !(rule.actions.any clipboardMutation && options.channels.any (· ≠ .clipboard)) &&
  !(!decide (options.channelActions.map ChannelActions.channel).Nodup ||
    options.channelActions.any fun entry =>
      !options.channels.contains entry.channel || 7 < entry.actions.length ||
      !decide entry.actions.Nodup ||
      (entry.channel ≠ .clipboard && entry.actions.any clipboardMutation))

end Options

section Compile

variable (detectors)

/-- The loop of the compiler over the enabled rules. -/
structure Compilation where
  errors : List CompileError
  compiled : List (CompiledRule detectors.Matcher)
  consumed : ℕ
  keywordsById : List String

/-- Keywords get a number when they are first seen. -/
def internKeywords (keywords known : List String) : List ℕ × List String :=
  keywords.foldl (fun acc keyword =>
    let keyword := keyword.map Char.toLower
    let known := if acc.2.contains keyword then acc.2 else acc.2 ++ [keyword]
    (acc.1 ++ [known.idxOf keyword], known)) ([], known)

variable {detectors} in
/-- A rule with its matcher and the numbers of its keywords. -/
def Rule.compiled (rule : Rule detectors.MatchKind) (matcher : detectors.Matcher)
    (keywordIds : List ℕ) : CompiledRule detectors.Matcher where
  id := rule.id
  revision := rule.revision
  priority := rule.priority
  severity := rule.severity
  actions := rule.actions
  matcher := matcher
  options := rule.options
  detectorId := (detectors.metadata rule.matcher).1
  category := (detectors.metadata rule.matcher).2
  keywordIds := keywordIds

def compileRule (limits : RuleSetLimits) (acc : Compilation detectors)
    (entry : Rule detectors.MatchKind × ℕ) : Compilation detectors :=
  let rule := entry.1
  let index := entry.2
  if validOptions rule = false then
    { acc with errors := acc.errors ++ [.invalidRuleOptions index] }
  else
    let built := detectors.build limits index rule.matcher acc.consumed
    match built.1 with
    | .error e => { acc with errors := acc.errors ++ [e], consumed := built.2 }
    | .ok matcher =>
      let interned := internKeywords (rule.options.keywords ++ detectors.keywords rule.matcher)
        acc.keywordsById
      if limits.regexTotalSizeLimit < built.2 then
        { acc with
          errors := acc.errors ++
            [.regexTotalProgramTooLarge index limits.regexTotalSizeLimit built.2]
          consumed := built.2
          keywordsById := interned.2 }
      else
        { acc with
          compiled := acc.compiled ++ [rule.compiled matcher interned.1]
          consumed := built.2
          keywordsById := interned.2 }

/-- Higher priorities come first, and among them greater identifiers. -/
def precedes {Matcher : Type} (a b : CompiledRule Matcher) : Bool :=
  b.priority < a.priority || (a.priority = b.priority && decide (b.id.val ≤ a.id.val))

def enabledRules (rules : List (Rule detectors.MatchKind)) : List (Rule detectors.MatchKind × ℕ) :=
  rules.zipIdx.filter fun entry => entry.1.enabled

def globalAllows (rules : List (Rule detectors.MatchKind)) (limits : RuleSetLimits) :
    List detectors.Matcher × List CompileError × ℕ :=
  if (enabledRules detectors rules).any fun entry => detectors.usesGlobalAllows entry.1.matcher
  then detectors.buildGlobalAllows limits else ([], [], 0)

def compilation (rules : List (Rule detectors.MatchKind)) (limits : RuleSetLimits) :
    Compilation detectors :=
  let enabled := enabledRules detectors rules
  let tooMany := if limits.maxEnabledRules < enabled.length
    then [CompileError.tooManyEnabledRules limits.maxEnabledRules enabled.length] else []
  let globals := globalAllows detectors rules limits
  enabled.foldl (compileRule detectors limits) ⟨tooMany ++ globals.2.1, [], globals.2.2, []⟩

/-- The keyword filter is charged last. -/
def prefilterErrors (limits : RuleSetLimits) (acc : Compilation detectors) : List CompileError :=
  let usage := if acc.keywordsById.isEmpty then some 0 else detectors.prefilterUsage acc.keywordsById
  let consumed := acc.consumed + usage.getD 0
  (if usage.isNone then [.invalidRuleOptions 0] else []) ++
    (if limits.regexTotalSizeLimit < consumed
      then [.regexTotalProgramTooLarge 0 limits.regexTotalSizeLimit consumed] else [])

def compile (rules : List (Rule detectors.MatchKind)) (limits : RuleSetLimits) :
    Except (List CompileError) (CompiledRuleSet detectors.Matcher) :=
  let acc := compilation detectors rules limits
  let errors := acc.errors ++ prefilterErrors detectors limits acc
  if errors.isEmpty then
    .ok {
      rules := acc.compiled.mergeSort precedes
      maxTextBytes := min limits.maxTextBytes 1048576
      globalAllows := (globalAllows detectors rules limits).1
      keywords := acc.keywordsById
      globalAllowList := [] }
  else .error errors

end Compile

section Tuning

def contentRuleLimits : RuleSetLimits := { maxEnabledRules := 512 }

def maxContentSubtreeBytes : ℕ := 256 * 1024

variable (detectors) in
def validShape (subtree : ContentRulesSubtree detectors.MatchKind) : Bool :=
  let tuning := subtree.tuning
  !(subtree.schemaVersion ≠ 1 || 100 < subtree.rules.length || 512 < tuning.builtins.length ||
    256 < tuning.allowList.length || 3 < tuning.channelActions.length) &&
  !(!decide (tuning.builtins.map BuiltinTuning.detectorId).Nodup ||
    tuning.builtins.any fun p => 100 < p.threshold || !detectors.catalogue.contains p.detectorId) &&
  !(!decide (tuning.channelActions.map ChannelActions.channel).Nodup ||
    tuning.channelActions.any fun p => 6 < p.actions.length || !decide p.actions.Nodup) &&
  !(tuning.channelActions.any fun p => p.actions.any clipboardMutation) &&
  !(tuning.allowList.any fun p => p.isEmpty || 2048 < p.utf8ByteSize) &&
  (detectors.encodedLength subtree).any (· ≤ maxContentSubtreeBytes)

variable (detectors) in
/-- A built-in rule under the tuning of a subtree. -/
def tuneBuiltin (subtree : ContentRulesSubtree detectors.MatchKind)
    (rule : Rule detectors.MatchKind) : Rule detectors.MatchKind :=
  let id := (detectors.metadata rule.matcher).1
  let tune := subtree.tuning.builtins.find? fun p => p.detectorId = id
  { rule with
    enabled := (tune.map BuiltinTuning.enabled).getD rule.enabled
    revision := max 1 (UInt32.ofNat (min subtree.revision.toNat 4294967295))
    actions := [.notifyUser, .reportFleet]
    options := { rule.options with
      threshold := (tune.map BuiltinTuning.threshold).getD rule.options.threshold
      channelActions := subtree.tuning.channelActions } }

variable (detectors) in
def resolveContentRules (subtree : ContentRulesSubtree detectors.MatchKind) :
    Except (List CompileError) (List (Rule detectors.MatchKind)) :=
  if validShape detectors subtree = false then .error [.invalidRuleOptions 0]
  else if subtree.enabled = false then .ok []
  else
    let rules := detectors.builtinRules.map (tuneBuiltin detectors subtree) ++ subtree.rules
    if (rules.map Rule.id).Nodup then .ok rules else .error [.invalidRuleOptions 0]

variable (detectors) in
def compileContentRules (subtree : ContentRulesSubtree detectors.MatchKind) :
    Except (List CompileError) (CompiledRuleSet detectors.Matcher) := do
  let rules ← resolveContentRules detectors subtree
  let compiled ← compile detectors rules contentRuleLimits
  pure { compiled with globalAllowList := subtree.tuning.allowList }

end Tuning

section Scan

structure Verdict where
  ruleId : RuleId
  ruleRevision : UInt32
  severity : Severity
  actions : List Action
  deriving DecidableEq

structure Finding where
  ruleId : RuleId
  ruleRevision : UInt32
  detectorId : String
  category : DetectorCategory
  score : UInt8
  count : UInt32
  reasons : List Reason
  severity : Severity
  actions : List Action
  priority : UInt16
  deriving DecidableEq

structure ScanReport where
  findings : List Finding
  truncated : Bool
  localSpans : List LocalSpan

def Finding.toVerdict (finding : Finding) : Verdict where
  ruleId := finding.ruleId
  ruleRevision := finding.ruleRevision
  severity := finding.severity
  actions := finding.actions

/-- The longest prefix of characters within a number of bytes. -/
def takeBytes : ℕ → List Char → List Char
  | _, [] => []
  | room, c :: text => if c.utf8Size ≤ room then c :: takeBytes (room - c.utf8Size) text else []

def truncateForMatch (text : String) (maxBytes : ℕ) : String :=
  if text.utf8ByteSize ≤ maxBytes then text else String.ofList (takeBytes maxBytes text.toList)

/-- The actions of a match in a channel. -/
def CompiledRule.actionsIn {Matcher : Type} (rule : CompiledRule Matcher) (channel : Channel) :
    List Action :=
  ((rule.options.channelActions.find? fun p => p.channel = channel).map
    ChannelActions.actions).getD rule.actions

/-- The finding of a rule with at least one accepted candidate. -/
def CompiledRule.finding {Matcher : Type} (rule : CompiledRule Matcher) (channel : Channel) :
    List (UInt8 × List Reason) → Option Finding
  | [] => none
  | hit :: hits => some {
      ruleId := rule.id
      ruleRevision := rule.revision
      detectorId := rule.detectorId
      category := rule.category
      score := hits.foldl (fun best h => max best h.1) hit.1
      count := UInt32.ofNat (min (hits.length + 1) 4294967295)
      reasons := (hit :: hits).foldl (fun known h =>
        h.2.foldl (fun known r => if r ∈ known then known else known ++ [r]) known) []
      severity := rule.severity
      actions := rule.actionsIn channel
      priority := rule.priority }

def maxSpans : ℕ := 4096

/-- The rules in their order, until the deadline or the span limit. -/
def scanRules (rules : CompiledRuleSet detectors.Matcher) (text : String) (channel : Channel)
    (pace : detectors.Pace) :
    List (CompiledRule detectors.Matcher) → List Finding × List LocalSpan →
      (List Finding × List LocalSpan) × Bool
  | [], acc => (acc, false)
  | rule :: rest, acc =>
    if detectors.late pace (rules.rules.length - (rest.length + 1)) = true ∨
        maxSpans ≤ acc.2.length then (acc, true)
    else if channel ∉ rule.options.channels then scanRules rules text channel pace rest acc
    else
      let visit := detectors.visit rules rule text pace
      let acc := (acc.1 ++ (rule.finding channel visit.hits).toList, acc.2 ++ visit.spans)
      if visit.exhausted then (acc, true) else scanRules rules text channel pace rest acc

def CompiledRuleSet.scan (rules : CompiledRuleSet detectors.Matcher) (text : String)
    (channel : Channel) (pace : detectors.Pace) : ScanReport :=
  let bounded := truncateForMatch text rules.maxTextBytes
  let scanned := scanRules rules bounded channel pace rules.rules ([], [])
  { findings := scanned.1.1
    truncated := bounded.utf8ByteSize < text.utf8ByteSize || scanned.2 ||
      maxSpans ≤ scanned.1.2.length || 64 ≤ detectors.decodedCandidates bounded
    localSpans := scanned.1.2 }

/-- The greatest finding by priority and identifier, the last one among equals. -/
def ScanReport.verdict (report : ScanReport) : Option Verdict :=
  (report.findings.foldl (fun (best : Option Finding) finding =>
    match best with
    | none => some finding
    | some b =>
      if finding.priority < b.priority ∨
          (finding.priority = b.priority ∧ finding.ruleId.val < b.ruleId.val) then some b
      else some finding) none).map Finding.toVerdict

def CompiledRuleSet.evaluate (rules : CompiledRuleSet detectors.Matcher) (text : String)
    (pace : detectors.Pace) : Option Verdict :=
  (rules.scan text .clipboard pace).verdict

end Scan

section Compiled

variable {limits : RuleSetLimits}

/-- One rule either adds an error or its compiled form, and never drops either. -/
theorem compileRule_cases (limits : RuleSetLimits) (acc : Compilation detectors)
    (entry : Rule detectors.MatchKind × ℕ) :
    (∃ e, (compileRule detectors limits acc entry).errors = acc.errors ++ [e]) ∨
      (∃ rule, (compileRule detectors limits acc entry).errors = acc.errors ∧
        (compileRule detectors limits acc entry).compiled = acc.compiled ++ [rule] ∧
        rule.body = entry.1.body) := by
  unfold compileRule
  by_cases hvalid : validOptions entry.1 = false
  · left
    exact ⟨.invalidRuleOptions entry.2, by simp [hvalid]⟩
  · cases hbuilt : (detectors.build limits entry.2 entry.1.matcher acc.consumed).1 with
    | error e =>
      left
      exact ⟨e, by simp [hvalid, hbuilt]⟩
    | ok matcher =>
      by_cases hlarge :
          limits.regexTotalSizeLimit < (detectors.build limits entry.2 entry.1.matcher acc.consumed).2
      · left
        exact ⟨.regexTotalProgramTooLarge entry.2 limits.regexTotalSizeLimit _, by
          simp [hvalid, hbuilt, hlarge]; rfl⟩
      · right
        exact ⟨entry.1.compiled matcher (internKeywords
            (entry.1.options.keywords ++ detectors.keywords entry.1.matcher) acc.keywordsById).1,
          by simp [hvalid, hbuilt, hlarge], by simp [hvalid, hbuilt, hlarge], rfl⟩

theorem foldl_compileRule_errors (limits : RuleSetLimits)
    (entries : List (Rule detectors.MatchKind × ℕ)) (acc : Compilation detectors) :
    ∃ more, (entries.foldl (compileRule detectors limits) acc).errors = acc.errors ++ more := by
  induction entries generalizing acc with
  | nil => exact ⟨[], by simp⟩
  | cons entry entries ih =>
    obtain ⟨more, hmore⟩ := ih (compileRule detectors limits acc entry)
    rcases compileRule_cases limits acc entry with ⟨e, he⟩ | ⟨_, he, _, _⟩
    · exact ⟨e :: more, by rw [List.foldl_cons, hmore, he, List.append_assoc]; rfl⟩
    · exact ⟨more, by rw [List.foldl_cons, hmore, he]⟩

/-- Without an error every rule is compiled, in the order given. -/
theorem foldl_compileRule_compiled (entries : List (Rule detectors.MatchKind × ℕ))
    (acc : Compilation detectors)
    (h : (entries.foldl (compileRule detectors limits) acc).errors = []) :
    (entries.foldl (compileRule detectors limits) acc).compiled.map CompiledRule.body =
      acc.compiled.map CompiledRule.body ++ entries.map fun entry => entry.1.body := by
  induction entries generalizing acc with
  | nil => simp
  | cons entry entries ih =>
    rw [List.foldl_cons] at h ⊢
    rcases compileRule_cases limits acc entry with ⟨e, he⟩ | ⟨rule, _, hrule, hbody⟩
    · obtain ⟨more, hmore⟩ :=
        foldl_compileRule_errors limits entries (compileRule detectors limits acc entry)
      rw [hmore, he] at h
      exact absurd h (by simp)
    · rw [ih _ h, hrule]
      simp [hbody]

theorem map_zipIdx_filter {MatchKind : Type} (rules : List (Rule MatchKind)) (n : ℕ) :
    ((rules.zipIdx n).filter fun entry => entry.1.enabled).map (fun entry => entry.1.body) =
      (rules.filter Rule.enabled).map Rule.body := by
  induction rules generalizing n with
  | nil => rfl
  | cons rule rules ih =>
    rw [List.zipIdx_cons, List.filter_cons, List.filter_cons]
    by_cases he : rule.enabled = true
    · simp only [he, if_true, List.map_cons, ih (n + 1)]
    · simp only [he, Bool.false_eq_true, if_false, ih (n + 1)]

/-- A compiled rule set has the enabled rules and no others. -/
theorem compile_rules {rules : List (Rule detectors.MatchKind)}
    {compiled : CompiledRuleSet detectors.Matcher} (h : compile detectors rules limits = .ok compiled) :
    (compiled.rules.map CompiledRule.body).Perm ((rules.filter Rule.enabled).map Rule.body) := by
  unfold compile at h
  dsimp only at h
  split at h
  · rename_i hempty
    rw [List.isEmpty_iff, List.append_eq_nil_iff] at hempty
    have hrules := foldl_compileRule_compiled _ _ hempty.1
    rw [Except.ok.injEq] at h
    subst h
    refine ((List.mergeSort_perm _ _).map _).trans (List.Perm.of_eq ?_)
    rw [compilation, hrules, List.map_nil, List.nil_append, enabledRules, map_zipIdx_filter rules 0]
  · exact absurd h (by simp)

/-- An empty rule set has nothing to fail to compile. -/
theorem compile_nil : compile detectors [] {} = .ok CompiledRuleSet.empty := by
  simp [compile, compilation, enabledRules, globalAllows, prefilterErrors, CompiledRuleSet.empty]

theorem compileContentRules_rules {subtree : ContentRulesSubtree detectors.MatchKind}
    {rules : List (Rule detectors.MatchKind)} {compiled : CompiledRuleSet detectors.Matcher}
    (hresolve : resolveContentRules detectors subtree = .ok rules)
    (h : compileContentRules detectors subtree = .ok compiled) :
    (compiled.rules.map CompiledRule.body).Perm ((rules.filter Rule.enabled).map Rule.body) := by
  unfold compileContentRules at h
  rw [hresolve] at h
  cases hc : compile detectors rules contentRuleLimits with
  | error e => simp [hc, bind, Except.bind] at h
  | ok c =>
    have heq : { c with globalAllowList := subtree.tuning.allowList } = compiled := by
      simpa [hc, bind, Except.bind, pure, Except.pure] using h
    subst heq
    have hrules := compile_rules hc
    exact hrules

end Compiled

end ClipRules
