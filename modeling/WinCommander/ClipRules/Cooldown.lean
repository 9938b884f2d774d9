import Mathlib
import WinCommander.Library.History
import WinCommander.Library.Run

/-!
# The cooldown of the rules

A rule that was emitted is quiet until its cooldown has passed.  The detections in between are
counted, and the next emission reports the count.
-/

namespace ClipCooldown

open Machine

variable {RuleId : Type} [DecidableEq RuleId]

inductive Emit where
  | now
  | suppressed (count : UInt32)
  deriving DecidableEq

structure LedgerEntry where
  lastEmit : ℕ
  suppressedSince : UInt32
  deriving DecidableEq

/-- The entries of the rules that were emitted. -/
def CooldownLedger (RuleId : Type) : Type := RuleId → Option LedgerEntry

/-- Times are in nanoseconds, and the time since a later instant is none. -/
def CooldownLedger.shouldEmit (ledger : CooldownLedger RuleId) (rule : RuleId)
    (now cooldown : ℕ) : Emit × CooldownLedger RuleId :=
  match ledger rule with
  | none => (.now, Function.update ledger rule (some ⟨now, 0⟩))
  | some entry =>
    if cooldown ≤ now - entry.lastEmit then
      (.now, Function.update ledger rule (some ⟨now, 0⟩))
    else
      let suppressedSince := entry.suppressedSince + 1
      (.suppressed suppressedSince,
        Function.update ledger rule (some { entry with suppressedSince }))

/-- A match of a rule, at a time and with the cooldown that the policy gives the rule. -/
structure Detection (RuleId : Type) where
  rule : RuleId
  now : ℕ
  cooldown : ℕ
  deriving DecidableEq

inductive MatchOutcome where
  | emit (suppressedSinceLast : UInt32)
  | suppressed (count : UInt32)
  deriving DecidableEq

structure Event (RuleId : Type) where
  detection : Detection RuleId
  outcome : MatchOutcome
  deriving DecidableEq

/-- The ledger, the counts that the next emissions report, and what came of the detections so far.
The log is kept for the statements only. -/
structure Engine (RuleId : Type) where
  cooldown : CooldownLedger RuleId
  pendingSuppressed : RuleId → Option UInt32
  log : List (Event RuleId)

def Engine.new : Engine RuleId := ⟨fun _ => none, fun _ => none, []⟩

/-- What comes of a detection. -/
def Engine.decide (engine : Engine RuleId) (d : Detection RuleId) : MatchOutcome :=
  match (engine.cooldown.shouldEmit d.rule d.now d.cooldown).1 with
  | .now => .emit ((engine.pendingSuppressed d.rule).getD 0)
  | .suppressed count => .suppressed count

def Engine.observe (engine : Engine RuleId) (d : Detection RuleId) : Engine RuleId where
  cooldown := (engine.cooldown.shouldEmit d.rule d.now d.cooldown).2
  pendingSuppressed := Function.update engine.pendingSuppressed d.rule
    (match (engine.cooldown.shouldEmit d.rule d.now d.cooldown).1 with
      | .now => none
      | .suppressed count => some count)
  log := engine.log ++ [⟨d, engine.decide d⟩]

section History

def Event.isEmission (rule : RuleId) (e : Event RuleId) : Bool :=
  e.detection.rule = rule ∧ e.outcome matches .emit _

def Event.isSuppressed (rule : RuleId) (e : Event RuleId) : Bool :=
  e.detection.rule = rule ∧ e.outcome matches .suppressed _

/-- The detections of a rule that were suppressed since its last emission. -/
def suppressions (rule : RuleId) (log : List (Event RuleId)) : ℕ :=
  (History.since (Event.isEmission rule) log).countP (Event.isSuppressed rule)

/-- The time of the last emission of a rule. -/
def lastEmission (rule : RuleId) (log : List (Event RuleId)) : Option ℕ :=
  History.latest (fun e => if e.isEmission rule then some e.detection.now else none) log

/-- An emission comes the cooldown after every other one of its rule and reports all detections of
the rule that were suppressed since the last one; a suppressed detection is counted. -/
def Engine.Right (engine : Engine RuleId) (d : Detection RuleId) : Prop :=
  match engine.decide d with
  | .emit count =>
    (∀ e ∈ engine.log, e.isEmission d.rule = true → d.cooldown ≤ d.now - e.detection.now) ∧
      count.toNat = suppressions d.rule engine.log
  | .suppressed count => count.toNat = suppressions d.rule engine.log + 1

/-- No detection before has a later time. -/
def Engine.Later (engine : Engine RuleId) (d : Detection RuleId) : Prop :=
  ∀ e ∈ engine.log, e.detection.now ≤ d.now

/-- The counter of the rule is not at its largest value while its cooldown lasts. -/
def Engine.Room (engine : Engine RuleId) (d : Detection RuleId) : Prop :=
  ∀ entry, engine.cooldown d.rule = some entry → d.now - entry.lastEmit < d.cooldown →
    entry.suppressedSince.toNat + 1 < 2 ^ 32

end History

section Log

variable {log : List (Event RuleId)} {e : Event RuleId} {rule : RuleId}

theorem suppressions_emission (h : e.isEmission rule = true) :
    suppressions rule (log ++ [e]) = 0 := by
  rw [suppressions, History.since_concat_of_marks h]
  rfl

theorem suppressions_concat (h : e.isEmission rule = false) :
    suppressions rule (log ++ [e]) =
      suppressions rule log + if e.isSuppressed rule then 1 else 0 := by
  rw [suppressions, History.since_concat h, List.countP_append, suppressions]
  simp [List.countP_cons]

theorem lastEmission_emission (h : e.isEmission rule = true) :
    lastEmission rule (log ++ [e]) = some e.detection.now :=
  History.latest_concat_of_some (by simp [h]) log

theorem lastEmission_concat (h : e.isEmission rule = false) :
    lastEmission rule (log ++ [e]) = lastEmission rule log :=
  History.latest_concat_of_none (by simp [h]) log

end Log

section Invariant

/-- The entry of a rule is its last emission and the number of its detections suppressed since. -/
structure Engine.Tracks (engine : Engine RuleId) : Prop where
  entry : ∀ rule, engine.cooldown rule = (lastEmission rule engine.log).map fun last =>
    ⟨last, UInt32.ofNat (suppressions rule engine.log)⟩
  fits : ∀ rule, suppressions rule engine.log < 2 ^ 32
  pending : ∀ rule, ((engine.pendingSuppressed rule).getD 0).toNat = suppressions rule engine.log
  latest : ∀ rule, ∀ e ∈ engine.log, e.isEmission rule = true →
    ∃ last, lastEmission rule engine.log = some last ∧ e.detection.now ≤ last

variable {engine : Engine RuleId} {d : Detection RuleId}

theorem Engine.Tracks.new : (Engine.new : Engine RuleId).Tracks where
  entry := fun _ => rfl
  fits := fun _ => by simp [suppressions, Engine.new]
  pending := fun _ => rfl
  latest := fun _ e he => absurd he (by simp [Engine.new])

/-- What can come of a detection. -/
inductive Handles (engine : Engine RuleId) (d : Detection RuleId) : MatchOutcome → Prop
  | first (hnone : lastEmission d.rule engine.log = none) :
      Handles engine d (.emit ((engine.pendingSuppressed d.rule).getD 0))
  | again {last : ℕ} (hlast : lastEmission d.rule engine.log = some last)
      (hover : d.cooldown ≤ d.now - last) :
      Handles engine d (.emit ((engine.pendingSuppressed d.rule).getD 0))
  | quiet {last : ℕ} (hlast : lastEmission d.rule engine.log = some last)
      (hwithin : d.now - last < d.cooldown) :
      Handles engine d (.suppressed (UInt32.ofNat (suppressions d.rule engine.log) + 1))

theorem Engine.Tracks.handles (h : engine.Tracks) : Handles engine d (engine.decide d) := by
  have hentry := h.entry d.rule
  unfold Engine.decide CooldownLedger.shouldEmit
  cases hlast : lastEmission d.rule engine.log with
  | none =>
    rw [hlast, Option.map_none] at hentry
    simp only [hentry]
    exact .first hlast
  | some last =>
    rw [hlast, Option.map_some] at hentry
    simp only [hentry]
    by_cases hover : d.cooldown ≤ d.now - last
    · simp only [hover, if_true]
      exact .again hlast hover
    · simp only [hover, if_false]
      exact .quiet hlast (by omega)

theorem toNat_ofNat_succ {n : ℕ} (h : n < 2 ^ 32) :
    (UInt32.ofNat n + 1).toNat = n + 1 ↔ n + 1 < 2 ^ 32 := by
  have hone : (1 : UInt32).toNat = 1 := rfl
  rw [UInt32.toNat_add, UInt32.toNat_ofNat', hone, Nat.mod_eq_of_lt h]
  omega

/-- The outcome is right exactly while the counter has room. -/
theorem Engine.Tracks.right_iff (h : engine.Tracks) : engine.Right d ↔ engine.Room d := by
  have hentry := h.entry d.rule
  have hfits := h.fits d.rule
  have hcount : (UInt32.ofNat (suppressions d.rule engine.log)).toNat =
      suppressions d.rule engine.log := by
    rw [UInt32.toNat_ofNat', Nat.mod_eq_of_lt hfits]
  have hhandles := h.handles (d := d)
  unfold Engine.Right Engine.Room
  generalize engine.decide d = outcome at hhandles
  cases hhandles with
  | first hnone =>
    apply iff_of_true
    · refine ⟨?_, h.pending d.rule⟩
      intro e he hemission
      obtain ⟨last, hlast, _⟩ := h.latest d.rule e he hemission
      rw [hnone] at hlast
      exact absurd hlast (by simp)
    · intro entry hsome
      rw [hentry, hnone] at hsome
      exact absurd hsome (by simp)
  | again hlast hover =>
    apply iff_of_true
    · refine ⟨?_, h.pending d.rule⟩
      intro e he hemission
      obtain ⟨last, hlast', hle⟩ := h.latest d.rule e he hemission
      rw [hlast, Option.some.injEq] at hlast'
      omega
    · intro entry hsome hwithin
      rw [hentry, hlast, Option.map_some, Option.some.injEq] at hsome
      rw [← hsome] at hwithin
      simp only at hwithin
      omega
  | @quiet last hlast hwithin =>
    simp only
    rw [toNat_ofNat_succ hfits]
    constructor
    · intro hroom entry hsome _
      rw [hentry, hlast, Option.map_some, Option.some.injEq] at hsome
      rw [← hsome, hcount]
      exact hroom
    · intro hroom
      rw [hlast, Option.map_some] at hentry
      have hnext := hroom _ hentry hwithin
      rwa [hcount] at hnext

theorem Engine.observe_other (engine : Engine RuleId) {rule : RuleId} (h : d.rule ≠ rule) :
    (engine.observe d).cooldown rule = engine.cooldown rule ∧
      (engine.observe d).pendingSuppressed rule = engine.pendingSuppressed rule := by
  have hne : rule ≠ d.rule := Ne.symm h
  refine ⟨?_, Function.update_of_ne hne _ _⟩
  unfold Engine.observe CooldownLedger.shouldEmit
  dsimp only
  split
  · exact Function.update_of_ne hne _ _
  · split <;> exact Function.update_of_ne hne _ _

/-- What a step leaves for the rule of the detection. -/
theorem Engine.observe_self (engine : Engine RuleId) (d : Detection RuleId) :
    (engine.decide d = .emit ((engine.pendingSuppressed d.rule).getD 0) ∧
        (engine.observe d).cooldown d.rule = some ⟨d.now, 0⟩ ∧
        (engine.observe d).pendingSuppressed d.rule = none) ∨
      ∃ entry, engine.cooldown d.rule = some entry ∧
        engine.decide d = .suppressed (entry.suppressedSince + 1) ∧
        (engine.observe d).cooldown d.rule =
          some { entry with suppressedSince := entry.suppressedSince + 1 } ∧
        (engine.observe d).pendingSuppressed d.rule = some (entry.suppressedSince + 1) := by
  unfold Engine.observe Engine.decide CooldownLedger.shouldEmit
  cases hentry : engine.cooldown d.rule with
  | none =>
    left
    refine ⟨rfl, Function.update_self .., Function.update_self ..⟩
  | some entry =>
    by_cases hover : d.cooldown ≤ d.now - entry.lastEmit
    · left
      simp only [hover, if_true, true_and]
      exact ⟨Function.update_self .., Function.update_self ..⟩
    · right
      refine ⟨entry, rfl, ?_⟩
      simp only [hover, if_false, true_and]
      exact ⟨Function.update_self .., Function.update_self ..⟩

theorem Engine.Tracks.observe (h : engine.Tracks) (hlater : engine.Later d)
    (hright : engine.Right d) : (engine.observe d).Tracks := by
  have hlog : (engine.observe d).log = engine.log ++ [⟨d, engine.decide d⟩] := rfl
  have hother : ∀ rule, d.rule ≠ rule →
      (⟨d, engine.decide d⟩ : Event RuleId).isEmission rule = false ∧
        (⟨d, engine.decide d⟩ : Event RuleId).isSuppressed rule = false := by
    intro rule hne
    simp [Event.isEmission, Event.isSuppressed, hne]
  have hframe : ∀ rule, d.rule ≠ rule →
      lastEmission rule (engine.observe d).log = lastEmission rule engine.log ∧
        suppressions rule (engine.observe d).log = suppressions rule engine.log := by
    intro rule hne
    rw [hlog, lastEmission_concat (hother rule hne).1, suppressions_concat (hother rule hne).1,
      (hother rule hne).2]
    exact ⟨rfl, rfl⟩
  rcases engine.observe_self d with
    ⟨hemit, hentry, hpending⟩ | ⟨entry, hbefore, hsuppressed, hentry, hpending⟩
  · have hself : (⟨d, engine.decide d⟩ : Event RuleId).isEmission d.rule = true := by
      simp [Event.isEmission, hemit]
    have hlast : lastEmission d.rule (engine.observe d).log = some d.now := by
      rw [hlog, lastEmission_emission hself]
    have hnone : suppressions d.rule (engine.observe d).log = 0 := by
      rw [hlog, suppressions_emission hself]
    constructor
    · intro rule
      by_cases hrule : d.rule = rule
      · rw [← hrule, hentry, hlast, hnone]
        rfl
      · rw [(engine.observe_other hrule).1, (hframe rule hrule).1, (hframe rule hrule).2, h.entry]
    · intro rule
      by_cases hrule : d.rule = rule
      · rw [← hrule, hnone]
        omega
      · rw [(hframe rule hrule).2]
        exact h.fits rule
    · intro rule
      by_cases hrule : d.rule = rule
      · rw [← hrule, hpending, hnone]
        rfl
      · rw [(engine.observe_other hrule).2, (hframe rule hrule).2]
        exact h.pending rule
    · intro rule e he hemission
      rw [hlog, List.mem_append, List.mem_singleton] at he
      by_cases hrule : d.rule = rule
      · rw [← hrule, hlast]
        refine ⟨d.now, rfl, ?_⟩
        rcases he with he | rfl
        · exact hlater e he
        · exact Nat.le_refl _
      · rw [(hframe rule hrule).1]
        rcases he with he | rfl
        · exact h.latest rule e he hemission
        · rw [(hother rule hrule).1] at hemission
          exact absurd hemission (by simp)
  · have hemission : (⟨d, engine.decide d⟩ : Event RuleId).isEmission d.rule = false := by
      simp [Event.isEmission, hsuppressed]
    have hcounts : (⟨d, engine.decide d⟩ : Event RuleId).isSuppressed d.rule = true := by
      simp [Event.isSuppressed, hsuppressed]
    have hlast : lastEmission d.rule (engine.observe d).log = lastEmission d.rule engine.log := by
      rw [hlog, lastEmission_concat hemission]
    have hmore : suppressions d.rule (engine.observe d).log =
        suppressions d.rule engine.log + 1 := by
      rw [hlog, suppressions_concat hemission, hcounts]
      rfl
    have hexact : (entry.suppressedSince + 1).toNat = suppressions d.rule engine.log + 1 := by
      unfold Engine.Right at hright
      rw [hsuppressed] at hright
      exact hright
    have hword : UInt32.ofNat (suppressions d.rule engine.log + 1) = entry.suppressedSince + 1 := by
      rw [← hexact, UInt32.ofNat_toNat]
    have hlastEmit : ∃ last, lastEmission d.rule engine.log = some last ∧ entry.lastEmit = last := by
      have hmap := (h.entry d.rule).symm.trans hbefore
      obtain ⟨last, hsome, heq⟩ := Option.map_eq_some_iff.mp hmap
      exact ⟨last, hsome, by rw [← heq]⟩
    constructor
    · intro rule
      by_cases hrule : d.rule = rule
      · obtain ⟨last, hsome, heq⟩ := hlastEmit
        rw [← hrule, hentry, hlast, hmore, hsome, hword, heq]
        rfl
      · rw [(engine.observe_other hrule).1, (hframe rule hrule).1, (hframe rule hrule).2, h.entry]
    · intro rule
      by_cases hrule : d.rule = rule
      · rw [← hrule, hmore, ← hexact]
        exact (entry.suppressedSince + 1).toNat_lt
      · rw [(hframe rule hrule).2]
        exact h.fits rule
    · intro rule
      by_cases hrule : d.rule = rule
      · rw [← hrule, hpending, hmore, ← hexact]
        rfl
      · rw [(engine.observe_other hrule).2, (hframe rule hrule).2]
        exact h.pending rule
    · intro rule e he hem
      rw [hlog, List.mem_append, List.mem_singleton] at he
      by_cases hrule : d.rule = rule
      · rw [← hrule] at hem ⊢
        rw [hlast]
        rcases he with he | rfl
        · exact h.latest d.rule e he hem
        · rw [hemission] at hem
          exact absurd hem (by simp)
      · rw [(hframe rule hrule).1]
        rcases he with he | rfl
        · exact h.latest rule e he hem
        · rw [(hother rule hrule).1] at hem
          exact absurd hem (by simp)

end Invariant

section Independence

/-- Two engines that agree on a rule, in its state and in what came of its detections. -/
structure AgreeOn (rule : RuleId) (engine engine' : Engine RuleId) : Prop where
  cooldown : engine.cooldown rule = engine'.cooldown rule
  pending : engine.pendingSuppressed rule = engine'.pendingSuppressed rule
  log : (engine.log.filter fun e => e.detection.rule = rule) = engine'.log

variable {engine engine' : Engine RuleId} {d : Detection RuleId} {rule : RuleId}

theorem AgreeOn.shouldEmit_eq (h : AgreeOn d.rule engine engine') :
    (engine.cooldown.shouldEmit d.rule d.now d.cooldown).1 =
        (engine'.cooldown.shouldEmit d.rule d.now d.cooldown).1 ∧
      (engine.cooldown.shouldEmit d.rule d.now d.cooldown).2 d.rule =
        (engine'.cooldown.shouldEmit d.rule d.now d.cooldown).2 d.rule := by
  unfold CooldownLedger.shouldEmit
  rw [h.cooldown]
  have hself : ∀ (f f' : RuleId → Option LedgerEntry) entry,
      Function.update f d.rule entry d.rule = Function.update f' d.rule entry d.rule := by
    intro f f' entry
    rw [Function.update_self, Function.update_self]
  cases engine'.cooldown d.rule with
  | none => exact ⟨rfl, hself _ _ _⟩
  | some entry =>
    by_cases hover : d.cooldown ≤ d.now - entry.lastEmit
    · simp only [hover, if_true]
      exact ⟨trivial, hself _ _ _⟩
    · simp only [hover, if_false]
      exact ⟨trivial, hself _ _ _⟩

theorem AgreeOn.decide_eq (h : AgreeOn d.rule engine engine') :
    engine.decide d = engine'.decide d := by
  unfold Engine.decide
  rw [h.shouldEmit_eq.1, h.pending]

theorem AgreeOn.observe (h : AgreeOn d.rule engine engine') :
    AgreeOn d.rule (engine.observe d) (engine'.observe d) := by
  have hdecide := h.decide_eq
  refine ⟨h.shouldEmit_eq.2, ?_, ?_⟩
  · unfold Engine.observe
    dsimp only
    rw [h.shouldEmit_eq.1, Function.update_self, Function.update_self]
  · show List.filter _ (engine.log ++ [⟨d, engine.decide d⟩]) =
      engine'.log ++ [⟨d, engine'.decide d⟩]
    rw [List.filter_append, h.log, hdecide]
    simp

theorem AgreeOn.skip (h : AgreeOn rule engine engine') (hne : d.rule ≠ rule) :
    AgreeOn rule (engine.observe d) engine' := by
  obtain ⟨hcooldown, hpending⟩ := engine.observe_other hne
  refine ⟨hcooldown.trans h.cooldown, hpending.trans h.pending, ?_⟩
  show List.filter _ (engine.log ++ [⟨d, engine.decide d⟩]) = engine'.log
  rw [List.filter_append, h.log]
  simp [hne]

/-- A rule sees nothing of the detections of the others. -/
theorem AgreeOn.run (h : AgreeOn rule engine engine') (ds : List (Detection RuleId)) :
    AgreeOn rule (run Engine.observe engine ds)
      (run Engine.observe engine' (ds.filter fun d => d.rule = rule)) := by
  induction ds generalizing engine engine' with
  | nil => exact h
  | cons d ds ih =>
    by_cases hrule : d.rule = rule
    · rw [← hrule] at h ih ⊢
      rw [List.filter_cons_of_pos (by simp)]
      exact ih h.observe
    · rw [List.filter_cons_of_neg (by simpa using hrule)]
      exact ih (h.skip hrule)

end Independence

section Times

variable {ds : List (Detection RuleId)}

theorem Engine.observe_detections (engine : Engine RuleId) (d : Detection RuleId) :
    (engine.observe d).log.map Event.detection = engine.log.map Event.detection ++ [d] := by
  simp [Engine.observe]

theorem Engine.run_detections (engine : Engine RuleId) (ds : List (Detection RuleId)) :
    (run Engine.observe engine ds).log.map Event.detection =
      engine.log.map Event.detection ++ ds := by
  induction ds generalizing engine with
  | nil => simp
  | cons d ds ih => rw [run_cons, ih, Engine.observe_detections, List.append_assoc]; rfl

/-- When the times of the detections do not go back, each detection is later than those before. -/
theorem throughout_later (h : ds.Pairwise fun d d' => d.now ≤ d'.now) :
    Throughout Engine.observe Engine.Later .new ds := by
  apply (throughout_iff _ _).mpr
  intro xs d ys heq e he
  have hmem : e.detection ∈ (run Engine.observe .new xs).log.map Event.detection :=
    List.mem_map_of_mem he
  rw [Engine.run_detections] at hmem
  rw [heq] at h
  exact (List.pairwise_append.mp h).2.2 e.detection (by simpa [Engine.new] using hmem) d (by simp)

/-- The outcomes are right exactly while no counter is at its largest value when one more detection
has to be counted. -/
theorem throughout_right_iff (h : ds.Pairwise fun d d' => d.now ≤ d'.now) :
    Throughout Engine.observe Engine.Right .new ds ↔
      Throughout Engine.observe Engine.Room .new ds :=
  throughout_congr_under (fun _ _ h _ => h.right_iff)
    (fun _ _ h hlater hright => Engine.Tracks.observe h hlater hright) Engine.Tracks.new
    (throughout_later h)

end Times

section Claim

/-- Every outcome of a run is right, and those of each rule are those of its own detections. -/
def Promises (ds : List (Detection RuleId)) : Prop :=
  Throughout Engine.observe Engine.Right .new ds ∧
    ∀ rule, ((run Engine.observe .new ds).log.filter fun e => e.detection.rule = rule) =
      (run Engine.observe .new (ds.filter fun d => d.rule = rule)).log

/-- With times that do not go back, the promises are kept exactly while no counter is at its largest
value when one more detection has to be counted. -/
theorem cooldown_ledger {ds : List (Detection RuleId)}
    (h : ds.Pairwise fun d d' => d.now ≤ d'.now) :
    Promises ds ↔ Throughout Engine.observe Engine.Room .new ds := by
  have hindependent : ∀ rule,
      ((run Engine.observe .new ds).log.filter fun e => e.detection.rule = rule) =
        (run Engine.observe .new (ds.filter fun d => d.rule = rule)).log := by
    intro rule
    have hagree : AgreeOn rule (Engine.new : Engine RuleId) .new := ⟨rfl, rfl, rfl⟩
    exact (hagree.run ds).log
  unfold Promises
  rw [throughout_right_iff h]
  exact and_iff_left hindependent

/-- Two rules, each with a detection within its cooldown and one after it. -/
theorem cooldown_ledger_two_rules :
    let ds : List (Detection Bool) :=
      [⟨true, 0, 5⟩, ⟨false, 1, 3⟩, ⟨true, 2, 5⟩, ⟨true, 4, 5⟩, ⟨false, 4, 3⟩, ⟨true, 7, 5⟩]
    Promises ds ↔ Throughout Engine.observe Engine.Room .new ds :=
  cooldown_ledger (by decide)

/-- Detections of one rule at one moment. -/
def flood (n : ℕ) : List (Detection Unit) := List.replicate n ⟨(), 0, 1⟩

theorem flood_ordered (n : ℕ) : (flood n).Pairwise fun d d' => d.now ≤ d'.now :=
  List.pairwise_replicate.mpr (Or.inr (Nat.le_refl _))

theorem flood_entry (n : ℕ) :
    (run Engine.observe .new (flood (n + 1))).cooldown () = some ⟨0, UInt32.ofNat n⟩ := by
  induction n with
  | zero => rfl
  | succ n ih =>
    have hmore : flood (n + 1 + 1) = flood (n + 1) ++ [⟨(), 0, 1⟩] := List.replicate_succ'
    have hword : UInt32.ofNat (n + 1) = UInt32.ofNat n + 1 := UInt32.ofNat_add n 1
    rw [hmore, run_append, run_cons, run_nil]
    generalize run Engine.observe .new (flood (n + 1)) = engine at ih
    rcases engine.observe_self ⟨(), 0, 1⟩ with ⟨hemit, _, _⟩ | ⟨entry, hbefore, _, hafter, _⟩
    · unfold Engine.decide CooldownLedger.shouldEmit at hemit
      rw [ih] at hemit
      exact absurd hemit (by simp)
    · rw [ih, Option.some.injEq] at hbefore
      rw [hafter, ← hbefore, hword]

theorem flood_room {n : ℕ} (h : Throughout Engine.observe Engine.Room .new (flood (n + 1 + 1))) :
    (UInt32.ofNat n).toNat + 1 < 2 ^ 32 := by
  have hlast := (throughout_iff _ _).mp h (flood (n + 1)) ⟨(), 0, 1⟩ [] List.replicate_succ'
  exact hlast _ (flood_entry n) Nat.zero_lt_one

/-- The suppressed detection number 2 ^ 32 is counted as number zero. -/
theorem cooldown_ledger_wraps :
    ¬ ∀ ds : List (Detection Unit), (ds.Pairwise fun d d' => d.now ≤ d'.now) → Promises ds := by
  intro h
  have hright := (h (flood (2 ^ 32 - 1 + 1 + 1)) (flood_ordered _)).1
  have hroom := flood_room ((throughout_right_iff (flood_ordered _)).mp hright)
  rw [UInt32.toNat_ofNat', Nat.mod_eq_of_lt (by omega)] at hroom
  omega

end Claim

end ClipCooldown
