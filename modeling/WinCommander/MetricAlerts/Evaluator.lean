import Mathlib
import WinCommander.Library.History
import WinCommander.Library.Run
import WinCommander.MetricAlerts.Config

/-!
# The evaluator of the metric alerts

Every sample of a metric is compared with its threshold.  The sustained time, the hysteresis and the
cooldown each keep a clock in one small state; what they promise is about whole histories of samples.
-/

namespace MetricAlerts

section Evaluate

/-- The monotonic clock counts nanoseconds. -/
def second : ℕ := 10 ^ 9

/-- The whole seconds since an earlier instant. -/
def secondsSince (now earlier : ℕ) : ℕ := (now - earlier) / second

structure AlertState where
  breachStart : Option ℕ
  alerted : Bool
  lastFired : Option ℕ
  deriving DecidableEq

def AlertState.new : AlertState := ⟨none, false, none⟩

inductive AlertTransition where
  | none
  | fired
  | recovered
  deriving DecidableEq

def MetricAlert.resetLevel (cfg : MetricAlert) : ℚ :=
  if cfg.hysteresisEnabled then cfg.threshold * (1 - cfg.hysteresisPct / 100) else cfg.threshold

/-- The start of the breach that a sample is part of. -/
def MetricAlert.breachAt (cfg : MetricAlert) (breachStart : Option ℕ) (value : ℚ) (now : ℕ) :
    Option ℕ :=
  if cfg.threshold < value then some (breachStart.getD now) else none

def MetricAlert.shouldFire (cfg : MetricAlert) (breachStart : Option ℕ) (value : ℚ) (now : ℕ) :
    Bool :=
  if cfg.sustainedEnabled then
    breachStart.any fun start => cfg.sustainedSecs ≤ secondsSince now start
  else cfg.threshold < value

def MetricAlert.cooldownElapsed (cfg : MetricAlert) (lastFired : Option ℕ) (now : ℕ) : Bool :=
  lastFired.all fun last => cfg.cooldownSecs ≤ secondsSince now last

def evaluate (cfg : MetricAlert) (state : AlertState) (value : ℚ) (now : ℕ) :
    AlertState × AlertTransition :=
  let breachStart := cfg.breachAt state.breachStart value now
  if state.alerted = false then
    if cfg.shouldFire breachStart value now then
      if cfg.cooldownElapsed state.lastFired now = false then ({ state with breachStart }, .none)
      else ({ breachStart, alerted := true, lastFired := some now }, .fired)
    else ({ state with breachStart }, .none)
  else if value < cfg.resetLevel then
    ({ state with breachStart := none, alerted := false }, .recovered)
  else ({ state with breachStart }, .none)

/-- One metric of a tick; a metric that is off starts anew. -/
def tickMetric (cfg : MetricAlert) (state : AlertState) (value : ℚ) (now : ℕ) (entitled : Bool) :
    AlertState × AlertTransition :=
  if cfg.enabled && entitled then evaluate cfg state value now else (.new, .none)

/-- What a sample can do. -/
inductive Evaluates (cfg : MetricAlert) (state : AlertState) (value : ℚ) (now : ℕ) :
    AlertState × AlertTransition → Prop
  | fired (halerted : state.alerted = false)
      (hsustained : cfg.shouldFire (cfg.breachAt state.breachStart value now) value now = true)
      (hcooled : cfg.cooldownElapsed state.lastFired now = true) :
      Evaluates cfg state value now
        (⟨cfg.breachAt state.breachStart value now, true, some now⟩, .fired)
  | quiet (halerted : state.alerted = false)
      (hquiet : ¬ (cfg.shouldFire (cfg.breachAt state.breachStart value now) value now = true ∧
        cfg.cooldownElapsed state.lastFired now = true)) :
      Evaluates cfg state value now
        (⟨cfg.breachAt state.breachStart value now, false, state.lastFired⟩, .none)
  | recovered (halerted : state.alerted = true) (hbelow : value < cfg.resetLevel) :
      Evaluates cfg state value now (⟨none, false, state.lastFired⟩, .recovered)
  | firing (halerted : state.alerted = true) (hheld : cfg.resetLevel ≤ value) :
      Evaluates cfg state value now
        (⟨cfg.breachAt state.breachStart value now, true, state.lastFired⟩, .none)

theorem evaluates (cfg : MetricAlert) (state : AlertState) (value : ℚ) (now : ℕ) :
    Evaluates cfg state value now (evaluate cfg state value now) := by
  obtain ⟨breachStart, alerted, lastFired⟩ := state
  unfold evaluate
  cases alerted with
  | false =>
    rw [if_pos rfl]
    split
    · next hsustained =>
      split
      · next hcooled => exact .quiet rfl fun h => absurd h.2 (by simp [hcooled])
      · next hcooled => exact .fired rfl hsustained (by simpa using hcooled)
    · next hsustained => exact .quiet rfl fun h => hsustained h.1
  | true =>
    rw [if_neg (by simp)]
    split
    · next hbelow => exact .recovered rfl hbelow
    · next hbelow => exact .firing rfl (not_lt.mp hbelow)

end Evaluate

section History

/-- One sample of a metric. -/
structure Sample where
  value : ℚ
  now : ℕ
  entitled : Bool
  deriving DecidableEq

/-- A sample and what came of it. -/
structure Tick where
  value : ℚ
  now : ℕ
  transition : AlertTransition
  deriving DecidableEq

/-- The state, and what happened since the alert was last off: the log is kept for the statements
only. -/
structure Sampler where
  state : AlertState
  log : List Tick

def Sampler.new : Sampler := ⟨.new, []⟩

def Sampler.sample (cfg : MetricAlert) (s : Sampler) (x : Sample) : Sampler :=
  let result := tickMetric cfg s.state x.value x.now x.entitled
  { state := result.1
    log := if cfg.enabled && x.entitled then s.log ++ [⟨x.value, x.now, result.2⟩] else [] }

def Tick.change (t : Tick) : Option AlertTransition :=
  if t.transition = .none then none else some t.transition

/-- The alert has fired and not recovered. -/
def Firing (log : List Tick) : Prop := History.latest Tick.change log = some .fired

/-- The alert has fired, and no sample was below the reset level since. -/
def Held (cfg : MetricAlert) (log : List Tick) : Prop :=
  History.FollowedBy (fun t => t.transition = .fired) (fun t => cfg.resetLevel ≤ t.value) log

/-- Samples above the threshold, without a break up to the last one. -/
def Streak (cfg : MetricAlert) (start : ℕ) (log : List Tick) : Prop :=
  History.FollowedBy (fun t => cfg.threshold < t.value ∧ t.now = start)
    (fun t => cfg.threshold < t.value) log

/-- The samples from the one that begins a breach to the last one of a history. -/
structure Breach (cfg : MetricAlert) (log earlier : List Tick) (first : Tick) (rest : List Tick) :
    Prop where
  split : log = earlier ++ first :: rest
  above : ∀ t ∈ first :: rest, cfg.threshold < t.value
  begins : ∀ t ∈ earlier.getLast?, t.value ≤ cfg.threshold

/-- What an alert promises about a sample after the ones before it. -/
structure Promise (cfg : MetricAlert) (before : List Tick) (t : Tick) : Prop where
  fires : t.transition = .fired → ¬ Firing before
  recovers : t.transition = .recovered → Firing before
  cooldown : t.transition = .fired → ∀ f ∈ before, f.transition = .fired →
    f.now + cfg.cooldownSecs * second ≤ t.now
  sustained : cfg.sustainedEnabled = true → t.transition = .fired → ∃ start,
    Streak cfg start (before ++ [t]) ∧ start + cfg.sustainedSecs * second ≤ t.now
  recovery : t.transition = .recovered ↔ Held cfg before ∧ t.value < cfg.resetLevel
  reported : ∀ earlier first rest, Breach cfg (before ++ [t]) earlier first rest →
    (cfg.sustainedEnabled = true → first.now + cfg.sustainedSecs * second ≤ t.now) →
    (∀ f ∈ earlier, f.transition = .fired → f.now + cfg.cooldownSecs * second ≤ t.now) →
    (∃ x ∈ first :: rest, x.transition = .fired) ∨
      (Firing earlier ∧ ∀ x ∈ first :: rest, x.transition ≠ .recovered)

variable {cfg : MetricAlert} {log earlier rest : List Tick} {t first : Tick}

theorem firing_concat :
    Firing (log ++ [t]) ↔ t.transition = .fired ∨ t.transition = .none ∧ Firing log := by
  unfold Firing
  cases ht : t.transition with
  | none =>
    have hnone : t.change = none := by simp [Tick.change, ht]
    rw [History.latest_concat_of_none hnone]
    simp
  | fired =>
    have hsome : t.change = some .fired := by simp [Tick.change, ht]
    rw [History.latest_concat_of_some hsome]
    simp
  | recovered =>
    have hsome : t.change = some .recovered := by simp [Tick.change, ht]
    rw [History.latest_concat_of_some hsome]
    simp

theorem not_firing_nil : ¬ Firing [] := by simp [Firing, History.latest]

/-- An alert does not begin to fire on samples that do not fire it. -/
theorem not_firing_append (hearlier : ¬ Firing earlier)
    (hrest : ∀ t ∈ rest, t.transition ≠ .fired) : ¬ Firing (earlier ++ rest) := by
  induction rest using List.reverseRecOn with
  | nil =>
    rw [List.append_nil]
    exact hearlier
  | append_singleton rest t ih =>
    rw [← List.append_assoc, firing_concat, not_or, not_and]
    have hbefore := ih fun x hx => hrest x (List.mem_append_left _ hx)
    exact ⟨hrest t (by simp), fun _ => hbefore⟩

/-- A breach begins with the sample, or the sample goes on with one. -/
theorem Breach.concat (h : Breach cfg (log ++ [t]) earlier first rest) :
    earlier = log ∧ first = t ∧ rest = [] ∨
      ∃ before, rest = before ++ [t] ∧ Breach cfg log earlier first before := by
  have hsplit := h.split
  rcases List.eq_nil_or_concat rest with rfl | ⟨before, last, rfl⟩
  · have hparts := List.append_inj' hsplit rfl
    exact .inl ⟨hparts.1.symm, (List.cons.inj hparts.2).1.symm, rfl⟩
  · rw [List.concat_eq_append, ← List.cons_append, ← List.append_assoc] at hsplit
    have hparts := List.append_inj' hsplit rfl
    have hlast : t = last := (List.cons.inj hparts.2).1
    subst hlast
    refine .inr ⟨before, by simp, hparts.1, ?_, h.begins⟩
    intro x hx
    apply h.above
    rw [List.concat_eq_append, ← List.cons_append]
    exact List.mem_append_left _ hx

end History

section Invariant

variable {cfg : MetricAlert}

/-- What is known of every sample beside its promise. -/
structure Facts (cfg : MetricAlert) (before : List Tick) (t : Tick) : Prop where
  firing : Firing before ↔ Held cfg before
  above : t.transition = .fired → cfg.threshold < t.value
  below : t.transition = .recovered → t.value < cfg.resetLevel

/-- How the three clocks of the state stand in what happened. -/
structure Tracks (cfg : MetricAlert) (s : Sampler) : Prop where
  promises : History.Fits (Promise cfg) s.log
  facts : History.Fits (Facts cfg) s.log
  alerted : s.state.alerted = true ↔ Firing s.log
  held : s.state.alerted = true ↔ Held cfg s.log
  fires : ∀ f ∈ s.log, f.transition = .fired → ∃ last ∈ s.state.lastFired, f.now ≤ last
  lastFired : ∀ last ∈ s.state.lastFired, ∃ f ∈ s.log, f.transition = .fired ∧ f.now = last
  streak : ∀ start ∈ s.state.breachStart, Streak cfg start s.log
  quiet : (∀ t ∈ s.log.getLast?, t.value ≤ cfg.threshold) → s.state.breachStart = none
  running : ∀ earlier first rest, Breach cfg s.log earlier first rest →
    (∀ t ∈ first :: rest, t.transition ≠ .fired) → ¬ Firing earlier →
    s.state.breachStart = some first.now

theorem tracks_new : Tracks cfg Sampler.new where
  promises := History.fits_nil
  facts := History.fits_nil
  alerted := iff_of_false (by simp [Sampler.new, AlertState.new]) not_firing_nil
  held := iff_of_false (by simp [Sampler.new, AlertState.new]) History.not_followedBy_nil
  fires _ h := by simp [Sampler.new] at h
  lastFired _ h := by simp [Sampler.new, AlertState.new] at h
  streak _ h := by simp [Sampler.new, AlertState.new] at h
  quiet _ := rfl
  running _ _ _ h := by simpa [Sampler.new] using h.split

theorem breachAt_of_above {breachStart : Option ℕ} {value : ℚ} {now : ℕ}
    (h : cfg.threshold < value) :
    cfg.breachAt breachStart value now = some (breachStart.getD now) := if_pos h

theorem breachAt_of_not_above {breachStart : Option ℕ} {value : ℚ} {now : ℕ}
    (h : value ≤ cfg.threshold) : cfg.breachAt breachStart value now = none := if_neg (not_lt.mpr h)

/-- An alert fires above its threshold only. -/
theorem above_of_shouldFire {breachStart : Option ℕ} {value : ℚ} {now : ℕ}
    (h : cfg.shouldFire (cfg.breachAt breachStart value now) value now = true) :
    cfg.threshold < value := by
  by_contra habove
  rw [breachAt_of_not_above (not_lt.mp habove)] at h
  simp [MetricAlert.shouldFire, habove] at h

variable {s : Sampler} {value : ℚ} {now : ℕ} {r : AlertState × AlertTransition}

theorem Tracks.facts_step (h : Tracks cfg s) (hr : Evaluates cfg s.state value now r) :
    Facts cfg s.log ⟨value, now, r.2⟩ := by
  refine ⟨h.alerted.symm.trans h.held, ?_, ?_⟩
  · intro hfired
    cases hr with
    | fired _ hsustained _ => exact above_of_shouldFire hsustained
    | quiet => simp at hfired
    | recovered => simp at hfired
    | firing => simp at hfired
  · intro hrecovered
    cases hr with
    | fired => simp at hrecovered
    | quiet => simp at hrecovered
    | recovered _ hbelow => exact hbelow
    | firing => simp at hrecovered

theorem Tracks.alerted_step (h : Tracks cfg s) (hr : Evaluates cfg s.state value now r) :
    r.1.alerted = true ↔ Firing (s.log ++ [⟨value, now, r.2⟩]) := by
  have halerted := h.alerted
  rw [firing_concat]
  cases hr with
  | fired => simp
  | quiet hnot _ => simpa [hnot] using halerted
  | recovered => simp
  | firing hyes _ => simpa [hyes] using halerted

theorem Tracks.held_step (h : Tracks cfg s) (hr : Evaluates cfg s.state value now r) :
    r.1.alerted = true ↔ Held cfg (s.log ++ [⟨value, now, r.2⟩]) := by
  have hheld := h.held
  rw [Held, History.followedBy_concat, ← Held]
  cases hr with
  | fired => simp
  | quiet hnot _ => simp [← hheld, hnot]
  | recovered hyes hbelow => simp [hbelow]
  | firing hyes hlevel => simp [← hheld, hyes, hlevel]

/-- The start of the breach is the time of a sample, and no sample since was not above the
threshold. -/
theorem Tracks.streak_breachAt (h : Tracks cfg s) {start : ℕ} {transition : AlertTransition}
    (hstart : start ∈ cfg.breachAt s.state.breachStart value now) :
    Streak cfg start (s.log ++ [⟨value, now, transition⟩]) := by
  by_cases habove : cfg.threshold < value
  · rw [breachAt_of_above habove, Option.mem_some_iff] at hstart
    rw [Streak, History.followedBy_concat]
    cases hbefore : s.state.breachStart with
    | none =>
      rw [hbefore] at hstart
      exact .inl ⟨habove, hstart⟩
    | some start' =>
      rw [hbefore] at hstart
      rw [← hstart]
      exact .inr ⟨h.streak start' hbefore, habove⟩
  · rw [breachAt_of_not_above (not_lt.mp habove)] at hstart
    simp at hstart

theorem Tracks.streak_step (h : Tracks cfg s) (hr : Evaluates cfg s.state value now r) :
    ∀ start ∈ r.1.breachStart, Streak cfg start (s.log ++ [⟨value, now, r.2⟩]) := by
  intro start hstart
  cases hr with
  | fired => exact h.streak_breachAt hstart
  | quiet => exact h.streak_breachAt hstart
  | recovered => simp at hstart
  | firing => exact h.streak_breachAt hstart

theorem Tracks.quiet_step (hr : Evaluates cfg s.state value now r) (hvalue : value ≤ cfg.threshold) :
    r.1.breachStart = none := by
  cases hr with
  | fired => exact breachAt_of_not_above hvalue
  | quiet => exact breachAt_of_not_above hvalue
  | recovered => rfl
  | firing => exact breachAt_of_not_above hvalue

/-- Before an alert fires in a breach, the breach is counted from its first sample. -/
theorem Tracks.breachAt_first (h : Tracks cfg s) {transition : AlertTransition}
    {earlier rest : List Tick} {first : Tick}
    (hbreach : Breach cfg (s.log ++ [⟨value, now, transition⟩]) earlier first rest)
    (hquiet : ∀ t ∈ first :: rest, t.transition ≠ .fired) (hearlier : ¬ Firing earlier) :
    cfg.breachAt s.state.breachStart value now = some first.now ∧ s.state.alerted = false := by
  have habove : cfg.threshold < value := by
    have hlast : (⟨value, now, transition⟩ : Tick) ∈ first :: rest := by
      rcases hbreach.concat with ⟨_, rfl, rfl⟩ | ⟨before, rfl, _⟩
      · simp
      · simp
    exact hbreach.above _ hlast
  rw [breachAt_of_above habove]
  rcases hbreach.concat with ⟨rfl, rfl, rfl⟩ | ⟨before, rfl, hbefore⟩
  · rw [h.quiet hbreach.begins]
    exact ⟨rfl, Bool.eq_false_iff.mpr fun halerted => hearlier (h.alerted.mp halerted)⟩
  · have hnone : ∀ t ∈ first :: before, t.transition ≠ .fired := by
      intro t ht
      apply hquiet
      rw [← List.cons_append]
      exact List.mem_append_left _ ht
    rw [h.running earlier first before hbefore hnone hearlier]
    refine ⟨rfl, Bool.eq_false_iff.mpr fun halerted => ?_⟩
    have hfiring := h.alerted.mp halerted
    rw [hbefore.split] at hfiring
    exact not_firing_append hearlier hnone hfiring

theorem Tracks.running_step (h : Tracks cfg s) (hr : Evaluates cfg s.state value now r)
    {earlier rest : List Tick} {first : Tick}
    (hbreach : Breach cfg (s.log ++ [⟨value, now, r.2⟩]) earlier first rest)
    (hquiet : ∀ t ∈ first :: rest, t.transition ≠ .fired) (hearlier : ¬ Firing earlier) :
    r.1.breachStart = some first.now := by
  have hfirst := h.breachAt_first hbreach hquiet hearlier
  cases hr with
  | fired => exact hfirst.1
  | quiet => exact hfirst.1
  | recovered halerted _ => simp [hfirst.2] at halerted
  | firing => exact hfirst.1

theorem Tracks.fires_step (h : Tracks cfg s) (hnow : ∀ t ∈ s.log, t.now ≤ now)
    (hr : Evaluates cfg s.state value now r) :
    ∀ f ∈ s.log ++ [⟨value, now, r.2⟩], f.transition = .fired →
      ∃ last ∈ r.1.lastFired, f.now ≤ last := by
  intro f hf hfired
  rcases List.mem_append.mp hf with hold | hlast
  · cases hr with
    | fired => exact ⟨now, rfl, hnow f hold⟩
    | quiet => exact h.fires f hold hfired
    | recovered => exact h.fires f hold hfired
    | firing => exact h.fires f hold hfired
  · rw [List.mem_singleton.mp hlast] at hfired ⊢
    cases hr with
    | fired => exact ⟨now, rfl, le_refl now⟩
    | quiet => simp at hfired
    | recovered => simp at hfired
    | firing => simp at hfired

theorem Tracks.lastFired_step (h : Tracks cfg s) (hr : Evaluates cfg s.state value now r) :
    ∀ last ∈ r.1.lastFired, ∃ f ∈ s.log ++ [⟨value, now, r.2⟩],
      f.transition = .fired ∧ f.now = last := by
  intro last hlast
  have hbefore : last ∈ s.state.lastFired → ∃ f ∈ s.log ++ [(⟨value, now, r.2⟩ : Tick)],
      f.transition = .fired ∧ f.now = last := by
    intro hold
    obtain ⟨f, hf, hfired⟩ := h.lastFired last hold
    exact ⟨f, List.mem_append_left _ hf, hfired⟩
  cases hr with
  | fired =>
    rw [Option.mem_some_iff] at hlast
    exact ⟨_, List.mem_append_right _ (List.mem_singleton_self _), rfl, hlast⟩
  | quiet => exact hbefore hlast
  | recovered => exact hbefore hlast
  | firing => exact hbefore hlast

theorem le_secondsSince {secs now earlier : ℕ} (h : earlier ≤ now) :
    secs ≤ secondsSince now earlier ↔ earlier + secs * second ≤ now := by
  rw [secondsSince, Nat.le_div_iff_mul_le (by decide)]
  omega

theorem Tracks.cooldown_step (h : Tracks cfg s) (hnow : ∀ t ∈ s.log, t.now ≤ now)
    (hr : Evaluates cfg s.state value now r) (hfired : r.2 = .fired) :
    ∀ f ∈ s.log, f.transition = .fired → f.now + cfg.cooldownSecs * second ≤ now := by
  intro f hf hf'
  cases hr with
  | fired _ _ hcooled =>
    obtain ⟨last, hlast, hle⟩ := h.fires f hf hf'
    obtain ⟨f', hf', _, rfl⟩ := h.lastFired last hlast
    rw [Option.mem_def.mp hlast] at hcooled
    simp only [MetricAlert.cooldownElapsed, Option.all_some, decide_eq_true_eq] at hcooled
    have hlater := (le_secondsSince (hnow f' hf')).mp hcooled
    omega
  | quiet => simp at hfired
  | recovered => simp at hfired
  | firing => simp at hfired

theorem Streak.start_le {start : ℕ} {log : List Tick} (h : Streak cfg start log)
    (hnow : ∀ t ∈ log, t.now ≤ now) : start ≤ now := by
  obtain ⟨before, first, after, rfl, ⟨_, rfl⟩, _⟩ := h
  exact hnow first (by simp)

theorem Tracks.sustained_step (h : Tracks cfg s) (hnow : ∀ t ∈ s.log, t.now ≤ now)
    (hr : Evaluates cfg s.state value now r) (hon : cfg.sustainedEnabled = true)
    (hfired : r.2 = .fired) : ∃ start, Streak cfg start (s.log ++ [⟨value, now, r.2⟩]) ∧
      start + cfg.sustainedSecs * second ≤ now := by
  cases hr with
  | fired _ hsustained _ =>
    simp only [MetricAlert.shouldFire, hon, if_true, Option.any_eq_true,
      decide_eq_true_eq] at hsustained
    obtain ⟨start, hstart, hlong⟩ := hsustained
    have hstreak : Streak cfg start (s.log ++ [⟨value, now, .fired⟩]) := h.streak_breachAt hstart
    have hall : ∀ t ∈ s.log ++ [(⟨value, now, .fired⟩ : Tick)], t.now ≤ now := by
      intro t ht
      rcases List.mem_append.mp ht with ht | ht
      · exact hnow t ht
      · rw [List.mem_singleton.mp ht]
    exact ⟨start, hstreak, (le_secondsSince (hstreak.start_le hall)).mp hlong⟩
  | quiet => simp at hfired
  | recovered => simp at hfired
  | firing => simp at hfired

/-- A breach that begins while the alert is firing stays above the reset level. -/
theorem resetLevel_le {earlier : List Tick} (hheld : Held cfg earlier)
    (hfires : ∀ t ∈ earlier, t.transition = .fired → cfg.threshold < t.value)
    (hbegins : ∀ t ∈ earlier.getLast?, t.value ≤ cfg.threshold) :
    cfg.resetLevel ≤ cfg.threshold := by
  induction earlier using List.reverseRecOn with
  | nil => exact absurd hheld History.not_followedBy_nil
  | append_singleton earlier last _ =>
    have hlast : last.value ≤ cfg.threshold := hbegins last (by simp)
    rcases History.followedBy_concat.mp hheld with hfired | ⟨_, hlevel⟩
    · have habove := hfires last (by simp) hfired
      exact absurd hlast (not_le.mpr habove)
    · exact hlevel.trans hlast

theorem Tracks.reported_step (h : Tracks cfg s) (hnow : ∀ t ∈ s.log, t.now ≤ now)
    (hr : Evaluates cfg s.state value now r) {earlier rest : List Tick} {first : Tick}
    (hbreach : Breach cfg (s.log ++ [⟨value, now, r.2⟩]) earlier first rest)
    (hsustained : cfg.sustainedEnabled = true → first.now + cfg.sustainedSecs * second ≤ now)
    (hcooled : ∀ f ∈ earlier, f.transition = .fired → f.now + cfg.cooldownSecs * second ≤ now) :
    (∃ x ∈ first :: rest, x.transition = .fired) ∨
      (Firing earlier ∧ ∀ x ∈ first :: rest, x.transition ≠ .recovered) := by
  have hfacts : History.Fits (Facts cfg) (s.log ++ [⟨value, now, r.2⟩]) :=
    h.facts.concat (h.facts_step hr)
  have heach : ∀ x ∈ s.log ++ [(⟨value, now, r.2⟩ : Tick)],
      (x.transition = .fired → cfg.threshold < x.value) ∧
        (x.transition = .recovered → x.value < cfg.resetLevel) := by
    intro x hx
    exact (hfacts.mono fun _ x hx => (⟨hx.above, hx.below⟩ : _ ∧ _)).of_mem hx
  have hsplit := hbreach.split
  by_cases hfiring : Firing earlier
  · right
    refine ⟨hfiring, fun x hx hrecovered => ?_⟩
    have hheld : Held cfg earlier := (hfacts earlier first rest hsplit).firing.mp hfiring
    have hlevel := resetLevel_le hheld (fun t ht => (heach t (by simp [hsplit, ht])).1)
      hbreach.begins
    have hbelow := (heach x (by rw [hsplit]; exact List.mem_append_right _ hx)).2 hrecovered
    have habove := hbreach.above x hx
    exact absurd (hbelow.trans_le hlevel) (not_lt.mpr habove.le)
  · left
    by_contra hnone
    have hquiet : ∀ x ∈ first :: rest, x.transition ≠ .fired :=
      fun x hx hfired => hnone ⟨x, hx, hfired⟩
    obtain ⟨hstart, halerted⟩ := h.breachAt_first hbreach hquiet hfiring
    have hlast : (⟨value, now, r.2⟩ : Tick) ∈ first :: rest := by
      rcases hbreach.concat with ⟨_, rfl, rfl⟩ | ⟨before, rfl, _⟩
      · simp
      · simp
    have hfirst : first.now ≤ now := by
      rcases hbreach.concat with ⟨_, rfl, _⟩ | ⟨before, _, hbefore⟩
      · exact le_refl now
      · exact hnow first (by simp [hbefore.split])
    -- the state counts the breach from its first sample, and it has no later fire to wait for
    have hshould : cfg.shouldFire (cfg.breachAt s.state.breachStart value now) value now = true := by
      rw [hstart, MetricAlert.shouldFire]
      split
      · next hon =>
        rw [Option.any_some, decide_eq_true_eq, le_secondsSince hfirst]
        exact hsustained hon
      · simpa using hbreach.above _ hlast
    have helapsed : cfg.cooldownElapsed s.state.lastFired now = true := by
      cases hfired : s.state.lastFired with
      | none => rfl
      | some last =>
        obtain ⟨f, hf, hf', rfl⟩ := h.lastFired last hfired
        have hmem : f ∈ earlier := by
          have hf'' : f ∈ earlier ++ first :: rest := by
            rw [← hsplit]
            exact List.mem_append_left _ hf
          exact (List.mem_append.mp hf'').resolve_right fun hf'' => hquiet f hf'' hf'
        rw [MetricAlert.cooldownElapsed, Option.all_some, decide_eq_true_eq,
          le_secondsSince (hnow f hf)]
        exact hcooled f hmem hf'
    cases hr with
    | fired => exact hquiet _ hlast rfl
    | quiet _ hnot => exact hnot ⟨hshould, helapsed⟩
    | recovered hyes _ => simp [halerted] at hyes
    | firing hyes _ => simp [halerted] at hyes

theorem Tracks.promise_step (h : Tracks cfg s) (hnow : ∀ t ∈ s.log, t.now ≤ now)
    (hr : Evaluates cfg s.state value now r) : Promise cfg s.log ⟨value, now, r.2⟩ where
  fires hfired := by
    rw [← h.alerted]
    cases hr with
    | fired hnot => simp [hnot]
    | quiet => simp at hfired
    | recovered => simp at hfired
    | firing => simp at hfired
  recovers hrecovered := by
    rw [← h.alerted]
    cases hr with
    | fired => simp at hrecovered
    | quiet => simp at hrecovered
    | recovered hyes => exact hyes
    | firing => simp at hrecovered
  cooldown := h.cooldown_step hnow hr
  sustained := h.sustained_step hnow hr
  recovery := by
    rw [← h.held]
    cases hr with
    | fired hnot => simp [hnot]
    | quiet hnot => simp [hnot]
    | recovered hyes hbelow => simp [hyes, hbelow]
    | firing _ hlevel => simp [hlevel]
  reported _ _ _ hbreach := h.reported_step hnow hr hbreach

/-- A sample that is not earlier than the ones before it keeps the promises. -/
theorem Tracks.sample (h : Tracks cfg s) {x : Sample} (hnow : ∀ t ∈ s.log, t.now ≤ x.now) :
    Tracks cfg (s.sample cfg x) := by
  unfold Sampler.sample tickMetric
  cases hon : cfg.enabled && x.entitled with
  | false => exact tracks_new
  | true =>
    have hr := evaluates cfg s.state x.value x.now
    exact {
      promises := h.promises.concat (h.promise_step hnow hr)
      facts := h.facts.concat (h.facts_step hr)
      alerted := h.alerted_step hr
      held := h.held_step hr
      fires := h.fires_step hnow hr
      lastFired := h.lastFired_step hr
      streak := h.streak_step hr
      quiet := fun hlast => Tracks.quiet_step hr (hlast _ List.getLast?_concat)
      running := fun _ _ _ hbreach hquiet hearlier => h.running_step hr hbreach hquiet hearlier }

theorem now_le_of_sample {x : Sample} {t : Tick} (ht : t ∈ (s.sample cfg x).log) :
    t ∈ s.log ∨ t.now = x.now := by
  unfold Sampler.sample at ht
  cases hon : cfg.enabled && x.entitled with
  | false => simp [hon] at ht
  | true =>
    simp only [hon, if_true, List.mem_append, List.mem_singleton] at ht
    rcases ht with ht | rfl
    · exact .inl ht
    · exact .inr rfl

theorem tracks_run {samples : List Sample} (h : Tracks cfg s)
    (hlog : ∀ t ∈ s.log, ∀ x ∈ samples, t.now ≤ x.now)
    (htimes : samples.Pairwise fun x y => x.now ≤ y.now) :
    Tracks cfg (Machine.run (Sampler.sample cfg) s samples) := by
  induction samples generalizing s with
  | nil => exact h
  | cons x samples ih =>
    rw [List.pairwise_cons] at htimes
    rw [Machine.run_cons]
    apply ih (h.sample fun t ht => hlog t ht x (by simp)) _ htimes.2
    intro t ht y hy
    rcases now_le_of_sample ht with ht | heq
    · exact hlog t ht y (by simp [hy])
    · rw [heq]
      exact htimes.1 y hy

/-- Over every history of samples in the order of time an alert keeps its promises about each of
them. -/
theorem metric_alert_promises (cfg : MetricAlert) (samples : List Sample)
    (htimes : samples.Pairwise fun x y => x.now ≤ y.now) :
    History.Fits (Promise cfg) (Machine.run (Sampler.sample cfg) .new samples).log :=
  (tracks_run tracks_new (by simp [Sampler.new]) htimes).promises

end Invariant

section Incident

private def busyAlert : MetricAlert := ⟨true, 50, true, 20, false, 1, 60, true⟩

private def sampleAt (value : ℚ) (seconds : ℕ) : Sample := ⟨value, seconds * second, true⟩

private def incident : List Sample := [sampleAt 70 0, sampleAt 80 5, sampleAt 39 10, sampleAt 70 20, sampleAt 70 61]

theorem metric_alert_promises_incident :
    History.Fits (Promise busyAlert) (Machine.run (Sampler.sample busyAlert) .new incident).log :=
  metric_alert_promises busyAlert incident (by decide)

end Incident

end MetricAlerts
