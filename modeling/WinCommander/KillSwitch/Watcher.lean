import Mathlib.Data.Nat.Notation
import Mathlib.Logic.Function.Basic
import WinCommander.Library.Run

/-!
# The kill switch of a VPN tunnel

A watcher thread probes the tunnel, blocks the network when it drops and lifts the block when it is
back.  Arming and disarming run beside the watchers, and all of them read and write the flags one
operation at a time.
-/

namespace VpnKillSwitch

section Machine

inductive TunnelState where
  | up
  | down
  | unknown
  deriving DecidableEq

inductive Action where
  | block
  | release
  | none
  deriving DecidableEq

def evaluateTransition : TunnelState → TunnelState → Action
  | .up, .down => .block
  | .down, .up => .release
  | _, _ => .none

/-- The block of the firewall: off, put in place by a watcher, or on before any watcher ran. -/
inductive Block where
  | off
  | watcher
  | already
  deriving DecidableEq

/-- The operation that a watcher comes to next. -/
inductive Phase where
  | epochCheck
  | armedCheck
  | probing
  | blocking
  | marking
  | swapping
  | lifting
  | resting
  | stopped
  deriving DecidableEq

/-- A watcher, and of its past whether it saw the tunnel up and whether its attempt to block in this
round failed. -/
structure Watcher where
  phase : Phase
  prev : TunnelState
  curr : TunnelState
  seenUp : Bool
  attemptFailed : Bool
  deriving DecidableEq

def Watcher.spawned : Watcher := ⟨.epochCheck, .unknown, .unknown, false, false⟩

/-- What is left of a command to arm or disarm. -/
inductive Command where
  | idle
  | arming
  | disarming
  | swapping
  | lifting
  deriving DecidableEq

/-- The flags, the firewall and the watchers, each under its epoch; `liftFailed` says that the last
attempt to lift the block failed since it was put in place. -/
structure World where
  armed : Bool
  epoch : ℕ
  fired : Bool
  block : Block
  liftFailed : Bool
  command : Command
  watchers : ℕ → Option Watcher

def World.start (block : Block) : World := ⟨false, 0, false, block, false, .idle, fun _ => none⟩

/-- A call to the firewall that fails leaves the block as it is. -/
def World.engage (w : World) (succeeds : Bool) : World :=
  if succeeds then
    { w with block := if w.block = .already then .already else .watcher, liftFailed := false }
  else w

def World.lift (w : World) (succeeds : Bool) : World :=
  if succeeds then { w with block := .off } else { w with liftFailed := true }

def World.put (w : World) (k : ℕ) (x : Watcher) : World :=
  { w with watchers := Function.update w.watchers k (some x) }

inductive Step where
  | arm
  | disarm
  /-- The command that runs makes its next operation. -/
  | proceed (succeeds : Bool)
  /-- A watcher makes its next operation. -/
  | watch (k : ℕ) (probe : TunnelState) (succeeds : Bool)

def proceed (w : World) (succeeds : Bool) : World :=
  match w.command with
  | .idle => w
  | .arming =>
      { w with
        epoch := w.epoch + 1
        command := .idle
        watchers := Function.update w.watchers (w.epoch + 1) (some .spawned) }
  | .disarming => { w with epoch := w.epoch + 1, command := .swapping }
  | .swapping =>
      if w.fired then { w with fired := false, command := .lifting } else { w with command := .idle }
  | .lifting => { w.lift succeeds with command := .idle }

/-- What a watcher does after a probe. -/
def phaseAfter : Action → Phase
  | .block => .blocking
  | .release => .swapping
  | .none => .resting

def watch (w : World) (k : ℕ) (x : Watcher) (probe : TunnelState) (succeeds : Bool) : World :=
  match x.phase with
  | .epochCheck => w.put k { x with phase := if w.epoch = k then .armedCheck else .stopped }
  | .armedCheck => w.put k { x with phase := if w.armed then .probing else .stopped }
  | .probing =>
      w.put k { x with
        phase := phaseAfter (evaluateTransition x.prev probe)
        curr := probe
        seenUp := x.seenUp || probe = .up
        attemptFailed := false }
  | .blocking =>
      (w.engage succeeds).put k
        { x with phase := if succeeds then .marking else .resting, attemptFailed := !succeeds }
  | .marking => { w with fired := true }.put k { x with phase := .resting }
  | .swapping =>
      if w.fired then { w with fired := false }.put k { x with phase := .lifting }
      else w.put k { x with phase := .resting }
  | .lifting => (w.lift succeeds).put k { x with phase := .resting }
  | .resting => w.put k { x with phase := .epochCheck, prev := x.curr }
  | .stopped => w

@[grind =] def step (w : World) : Step → World
  | .arm => if w.command = .idle then { w with armed := true, command := .arming } else w
  | .disarm => if w.command = .idle then { w with armed := false, command := .disarming } else w
  | .proceed succeeds => proceed w succeeds
  | .watch k probe succeeds =>
      match w.watchers k with
      | some x => watch w k x probe succeeds
      | none => w

end Machine

section Claims

/-- No leak, no strange block lifted, and no block left behind. -/
structure Safe (w : World) : Prop where
  blocked : ∀ x, w.watchers w.epoch = some x → w.armed = true → x.phase = .resting →
    x.curr = .down → x.seenUp = true → w.block ≠ .off ∨ x.attemptFailed = true
  liftsOwn : (w.command = .lifting ∨ ∃ k x, w.watchers k = some x ∧ x.phase = .lifting) →
    w.block ≠ .already
  leavesNone : w.armed = false → w.command = .idle →
    (∀ k x, w.watchers k = some x → x.phase = .stopped) → w.block = .watcher → w.liftFailed = true

/-- A watcher is at an operation that changes the flags or the firewall. -/
def Phase.acts (phase : Phase) : Prop :=
  phase = .blocking ∨ phase = .marking ∨ phase = .swapping ∨ phase = .lifting

instance (phase : Phase) : Decidable phase.acts :=
  inferInstanceAs (Decidable (phase = .blocking ∨ phase = .marking ∨ phase = .swapping ∨ phase = .lifting))

/-- A drop is seen right after the tunnel was up, or the block is on; a watcher does not block what is
blocked already; and no command comes between the check of a watcher and what it does then. -/
structure Orderly (w : World) (k : ℕ) (x : Watcher) (probe : TunnelState) (succeeds : Bool) : Prop where
  drop : x.phase = .probing → k = w.epoch → w.armed = true → x.seenUp = true → probe = .down →
    x.prev = .up ∨ w.block ≠ .off
  unblocked : x.phase = .blocking → succeeds = true → w.block ≠ .already
  current : x.phase.acts → k = w.epoch

def OrderlyStep (w : World) : Step → Prop
  | .watch k probe succeeds => ∀ x, w.watchers k = some x → Orderly w k x probe succeeds
  | _ => True

end Claims

section Invariant

/-- A watcher is between an operation and the one that completes it. -/
def Phase.pending (phase : Phase) : Prop := phase = .marking ∨ phase = .lifting

/-- What a watcher has when it comes to an operation. -/
structure Duty (w : World) (k : ℕ) (x : Watcher) : Prop where
  own : x.phase.pending → w.block ≠ .already
  lifted : x.phase = .swapping ∨ x.phase = .lifting → x.curr = .up
  marked : k = w.epoch → w.armed = true → x.phase = .marking → w.block ≠ .off
  blocked : k = w.epoch → w.armed = true → x.phase = .resting → x.curr = .down → x.seenUp = true →
    w.block ≠ .off ∨ x.attemptFailed = true

structure Stands (w : World) : Prop where
  known : ∀ k x, w.watchers k = some x → k ≤ w.epoch
  arming : w.command = .arming → w.armed = true
  gone : (w.armed = false ∧ w.command = .idle) ∨ w.command = .swapping ∨ w.command = .lifting →
    w.watchers w.epoch = none
  calm : (w.armed = false ∧ w.command = .idle) ∨ w.command = .lifting → w.fired = false
  own : w.fired = true ∨ w.command = .lifting → w.block ≠ .already
  duty : ∀ k x, w.watchers k = some x → Duty w k x
  kept : w.block = .watcher → w.fired = true ∨ w.liftFailed = true ∨ w.command = .lifting ∨
    ∃ k x, w.watchers k = some x ∧ x.phase.pending

variable {w : World} {k : ℕ} {x y : Watcher}

theorem Stands.safe (h : Stands w) : Safe w where
  blocked := by
    intro x hx harmed
    exact (h.duty w.epoch x hx).blocked rfl harmed
  liftsOwn := by
    rintro (hcommand | ⟨k, x, hx, hphase⟩)
    · exact h.own (Or.inr hcommand)
    · exact (h.duty k x hx).own (Or.inr hphase)
  leavesNone := by
    intro harmed hidle hstopped hblock
    rcases h.kept hblock with hfired | hfailed | hcommand | ⟨k, x, hx, hpending⟩
    · rw [h.calm (Or.inl ⟨harmed, hidle⟩)] at hfired
      cases hfired
    · exact hfailed
    · rw [hidle] at hcommand
      cases hcommand
    · rcases hpending with hphase | hphase
      · rw [hstopped k x hx] at hphase
        cases hphase
      · rw [hstopped k x hx] at hphase
        cases hphase

theorem put_same : (w.put k y).watchers k = some y := Function.update_self ..

theorem put_other {j : ℕ} (hj : j ≠ k) : (w.put k y).watchers j = w.watchers j :=
  Function.update_of_ne hj ..

theorem start_stands {block : Block} (h : block ≠ .watcher) : Stands (.start block) where
  known := fun _ _ hx => by cases hx
  arming := fun hcommand => by cases hcommand
  gone := fun _ => rfl
  calm := fun _ => rfl
  own := by
    rintro (hfired | hcommand)
    · cases hfired
    · cases hcommand
  duty := fun _ _ hx => by cases hx
  kept := fun hblock => absurd hblock h

/-- Another watcher state of one that is not in the middle of something. -/
theorem Stands.put (h : Stands w) (hx : w.watchers k = some x) (hcalm : ¬ x.phase.pending)
    (hduty : Duty w k y) : Stands (w.put k y) where
  known := by
    intro j z hz
    by_cases hj : j = k
    · rw [hj]
      exact h.known k x hx
    · rw [put_other hj] at hz
      exact h.known j z hz
  arming := h.arming
  gone := by
    intro hgone
    have hnone := h.gone hgone
    have hne : w.epoch ≠ k := by
      rintro rfl
      rw [hnone] at hx
      cases hx
    exact (put_other hne).trans hnone
  calm := h.calm
  own := h.own
  duty := by
    intro j z hz
    by_cases hj : j = k
    · rw [hj, put_same] at hz
      rw [hj, ← Option.some.inj hz]
      exact ⟨hduty.own, hduty.lifted, hduty.marked, hduty.blocked⟩
    · rw [put_other hj] at hz
      have hother := h.duty j z hz
      exact ⟨hother.own, hother.lifted, hother.marked, hother.blocked⟩
  kept := by
    intro hblock
    rcases h.kept hblock with hfired | hfailed | hcommand | ⟨j, z, hz, hpending⟩
    · exact Or.inl hfired
    · exact Or.inr (Or.inl hfailed)
    · exact Or.inr (Or.inr (Or.inl hcommand))
    · refine Or.inr (Or.inr (Or.inr ⟨j, z, ?_, hpending⟩))
      have hne : j ≠ k := by
        rintro rfl
        rw [hx] at hz
        rw [← Option.some.inj hz] at hpending
        exact hcalm hpending
      rw [put_other hne]
      exact hz

/-- While there is a watcher of the current epoch no command has passed its change of the epoch. -/
theorem Stands.present (h : Stands w) (hx : w.watchers w.epoch = some x) :
    ¬ ((w.armed = false ∧ w.command = .idle) ∨ w.command = .swapping ∨ w.command = .lifting) := by
  intro hgone
  rw [h.gone hgone] at hx
  cases hx

/-- What the current watcher may do to the flags and the firewall. -/
theorem Stands.acted {fired liftFailed : Bool} {block : Block} (h : Stands w)
    (hx : w.watchers w.epoch = some x) (hown : fired = true → block ≠ .already)
    (hblock : block = .already → w.block = .already)
    (hduty : Duty { w with fired := fired, block := block, liftFailed := liftFailed } w.epoch y)
    (hkept : block = .watcher → fired = true ∨ liftFailed = true ∨ y.phase.pending) :
    Stands ({ w with fired := fired, block := block, liftFailed := liftFailed }.put w.epoch y) where
  known := by
    intro j z hz
    by_cases hj : j = w.epoch
    · exact Nat.le_of_eq hj
    · rw [put_other hj] at hz
      exact h.known j z hz
  arming := h.arming
  gone := fun hgone => absurd hgone (h.present hx)
  calm := by
    rintro (hidle | hlifting)
    · exact absurd (Or.inl hidle) (h.present hx)
    · exact absurd (Or.inr (Or.inr hlifting)) (h.present hx)
  own := by
    rintro (hfired | hlifting)
    · exact hown hfired
    · exact absurd (Or.inr (Or.inr hlifting)) (h.present hx)
  duty := by
    intro j z hz
    by_cases hj : j = w.epoch
    · rw [hj, put_same] at hz
      rw [hj, ← Option.some.inj hz]
      exact ⟨hduty.own, hduty.lifted, hduty.marked, hduty.blocked⟩
    · rw [put_other hj] at hz
      have hother := h.duty j z hz
      refine ⟨?_, hother.lifted, fun hcurrent => absurd hcurrent hj, fun hcurrent => absurd hcurrent hj⟩
      exact fun hpending halready => hother.own hpending (hblock halready)
  kept := by
    intro hwatcher
    rcases hkept hwatcher with hfired | hfailed | hpending
    · exact Or.inl hfired
    · exact Or.inr (Or.inl hfailed)
    · exact Or.inr (Or.inr (Or.inr ⟨w.epoch, y, put_same, hpending⟩))

/-- A watcher that neither changes anything nor stands at such an operation has no duty. -/
theorem duty_of_check (hpending : ¬ y.phase.pending) (hswapping : y.phase ≠ .swapping)
    (hresting : y.phase ≠ .resting) : Duty w k y where
  own := fun h => absurd h hpending
  lifted := by
    rintro (h | h)
    · exact absurd h hswapping
    · exact absurd (Or.inr h) hpending
  marked := fun _ _ h => absurd (Or.inl h) hpending
  blocked := fun _ _ h => absurd h hresting

/-- Of a watcher that is not the current one of an armed switch little is asked. -/
theorem Duty.elsewhere {w' : World} (h : Duty w k x) (hblock : w'.block = .already → w.block = .already)
    (hother : ¬ (k = w'.epoch ∧ w'.armed = true)) : Duty w' k x where
  own := fun hpending halready => h.own hpending (hblock halready)
  lifted := h.lifted
  marked := fun hcurrent harmed => absurd ⟨hcurrent, harmed⟩ hother
  blocked := fun hcurrent harmed => absurd ⟨hcurrent, harmed⟩ hother

/-- At the end of a round only the block is asked for. -/
theorem duty_of_resting (hresting : y.phase = .resting)
    (hblocked : k = w.epoch → w.armed = true → y.curr = .down → y.seenUp = true →
      w.block ≠ .off ∨ y.attemptFailed = true) : Duty w k y where
  own := by
    rw [hresting]
    rintro (h | h)
    · cases h
    · cases h
  lifted := by
    rw [hresting]
    rintro (h | h)
    · cases h
    · cases h
  marked := by
    rw [hresting]
    intro _ _ h
    cases h
  blocked := fun hcurrent harmed _ => hblocked hcurrent harmed

end Invariant

section Steps

variable {w : World} {k : ℕ} {x : Watcher} {probe : TunnelState} {succeeds : Bool}

theorem up_of_release {prev curr : TunnelState}
    (h : phaseAfter (evaluateTransition prev curr) = .swapping) : curr = .up := by
  cases prev <;> cases curr <;> first | rfl | cases h

theorem phaseAfter_calm (action : Action) : ¬ (phaseAfter action).pending := by
  cases action <;> simp [phaseAfter, Phase.pending]

theorem probing_duty (hphase : x.phase = .probing) (horderly : Orderly w k x probe succeeds) :
    Duty w k { x with
      phase := phaseAfter (evaluateTransition x.prev probe)
      curr := probe
      seenUp := x.seenUp || probe = .up
      attemptFailed := false } where
  own := fun hpending => absurd hpending (phaseAfter_calm _)
  lifted := by
    rintro (hswapping | hlifting)
    · exact up_of_release hswapping
    · exact absurd (Or.inr hlifting) (phaseAfter_calm _)
  marked := fun _ _ hmarking => absurd (Or.inl hmarking) (phaseAfter_calm _)
  blocked := by
    intro hcurrent harmed hresting hdown hseen
    have hprobe : probe = .down := hdown
    subst hprobe
    have hbefore : x.seenUp = true := by simpa using hseen
    rcases horderly.drop hphase hcurrent harmed hbefore rfl with hup | hblocked
    · rw [hup] at hresting
      cases hresting
    · exact Or.inl hblocked

theorem watch_stands (h : Stands w) (hx : w.watchers k = some x)
    (horderly : Orderly w k x probe succeeds) : Stands (watch w k x probe succeeds) := by
  have hduty := h.duty k x hx
  cases hphase : x.phase with
  | epochCheck =>
    simp only [watch, hphase]
    refine h.put hx (by simp [Phase.pending, hphase]) ?_
    by_cases hepoch : w.epoch = k
    · exact duty_of_check (by simp [Phase.pending, hepoch]) (by simp [hepoch]) (by simp [hepoch])
    · exact duty_of_check (by simp [Phase.pending, hepoch]) (by simp [hepoch]) (by simp [hepoch])
  | armedCheck =>
    simp only [watch, hphase]
    refine h.put hx (by simp [Phase.pending, hphase]) ?_
    cases harmed : w.armed with
    | true => exact duty_of_check (by simp [Phase.pending]) (by simp) (by simp)
    | false => exact duty_of_check (by simp [Phase.pending]) (by simp) (by simp)
  | probing =>
    simp only [watch, hphase]
    exact h.put hx (by simp [Phase.pending, hphase]) (probing_duty hphase horderly)
  | blocking =>
    have hcurrent := horderly.current (Or.inl hphase)
    subst hcurrent
    cases succeeds with
    | true =>
      have hfree := horderly.unblocked hphase rfl
      simp only [watch, hphase, World.engage, if_true, if_neg hfree]
      refine h.acted hx (fun _ => by decide) (fun hb => by cases hb) ?_
        (fun _ => Or.inr (Or.inr (Or.inl rfl)))
      refine ⟨fun _ => by simp, ?_, fun _ _ _ => by simp, fun _ _ hresting => (by cases hresting)⟩
      rintro (hswapping | hlifting)
      · cases hswapping
      · cases hlifting
    | false =>
      simp only [watch, hphase, World.engage]
      exact h.put hx (by simp [Phase.pending, hphase]) (duty_of_resting rfl fun _ _ _ _ => Or.inr rfl)
  | marking =>
    have hcurrent := horderly.current (Or.inr (Or.inl hphase))
    subst hcurrent
    simp only [watch, hphase]
    refine h.acted hx (fun _ => hduty.own (Or.inl hphase)) (fun hb => hb) ?_ (fun _ => Or.inl rfl)
    exact duty_of_resting rfl fun hcurrent harmed _ _ => Or.inl (hduty.marked hcurrent harmed hphase)
  | swapping =>
    have hcurrent := horderly.current (Or.inr (Or.inr (Or.inl hphase)))
    have hup := hduty.lifted (Or.inl hphase)
    subst hcurrent
    cases hfired : w.fired with
    | true =>
      simp only [watch, hphase, hfired, if_true]
      refine h.acted hx (fun hf => by cases hf) (fun hb => hb) ?_ (fun _ => Or.inr (Or.inr (Or.inr rfl)))
      exact ⟨fun _ => h.own (Or.inl hfired), fun _ => hup, fun _ _ hmarking => (by cases hmarking),
        fun _ _ hresting => (by cases hresting)⟩
    | false =>
      simp only [watch, hphase, hfired]
      refine h.put hx (by simp [Phase.pending, hphase]) (duty_of_resting rfl fun _ _ hdown _ => ?_)
      rw [hup] at hdown
      cases hdown
  | lifting =>
    have hcurrent := horderly.current (Or.inr (Or.inr (Or.inr hphase)))
    have hup := hduty.lifted (Or.inr hphase)
    have howned := hduty.own (Or.inr hphase)
    subst hcurrent
    cases succeeds with
    | true =>
      simp only [watch, hphase, World.lift, if_true]
      refine h.acted hx (fun _ => by decide) (fun hb => by cases hb)
        (duty_of_resting rfl fun _ _ hdown _ => ?_) (fun hb => by cases hb)
      rw [hup] at hdown
      cases hdown
    | false =>
      simp only [watch, hphase, World.lift]
      refine h.acted hx (fun _ => howned) (fun hb => hb) (duty_of_resting rfl fun _ _ hdown _ => ?_)
        (fun _ => Or.inr (Or.inl rfl))
      rw [hup] at hdown
      cases hdown
  | resting =>
    simp only [watch, hphase]
    refine h.put hx (by simp [Phase.pending, hphase]) ?_
    exact duty_of_check (by simp [Phase.pending]) (by simp) (by simp)
  | stopped =>
    simp only [watch, hphase]
    exact h

theorem Stands.not_current (h : Stands w)
    (hgone : (w.armed = false ∧ w.command = .idle) ∨ w.command = .swapping ∨ w.command = .lifting)
    (hx : w.watchers k = some x) : k ≠ w.epoch := by
  rintro rfl
  exact h.present hx hgone

/-- What was kept by another operation than the lifting of the command. -/
theorem Stands.kept_by (h : Stands w) (hcommand : w.command ≠ .lifting) (hblock : w.block = .watcher) :
    w.fired = true ∨ w.liftFailed = true ∨ ∃ k x, w.watchers k = some x ∧ x.phase.pending := by
  rcases h.kept hblock with hfired | hfailed | hlifting | hwatcher
  · exact Or.inl hfired
  · exact Or.inr (Or.inl hfailed)
  · exact absurd hlifting hcommand
  · exact Or.inr (Or.inr hwatcher)

theorem arm_stands (h : Stands w) (hidle : w.command = .idle) :
    Stands { w with armed := true, command := .arming } where
  known := h.known
  arming := fun _ => rfl
  gone := by simp
  calm := by simp
  own := by simpa using fun hfired => h.own (Or.inl hfired)
  duty := by
    intro k x hx
    cases harmed : w.armed with
    | true =>
      have hduty := h.duty k x hx
      exact ⟨hduty.own, hduty.lifted, fun hcurrent _ => hduty.marked hcurrent harmed,
        fun hcurrent _ => hduty.blocked hcurrent harmed⟩
    | false =>
      have hne := h.not_current (Or.inl ⟨harmed, hidle⟩) hx
      exact (h.duty k x hx).elsewhere (fun hb => hb) fun hcurrent => hne hcurrent.1
  kept := by
    intro hblock
    rcases h.kept_by (by simp [hidle]) hblock with hfired | hfailed | hwatcher
    · exact Or.inl hfired
    · exact Or.inr (Or.inl hfailed)
    · exact Or.inr (Or.inr (Or.inr hwatcher))

theorem disarm_stands (h : Stands w) (hidle : w.command = .idle) :
    Stands { w with armed := false, command := .disarming } where
  known := h.known
  arming := by simp
  gone := by simp
  calm := by simp
  own := by simpa using fun hfired => h.own (Or.inl hfired)
  duty := fun k x hx => (h.duty k x hx).elsewhere (fun hb => hb) (by simp)
  kept := by
    intro hblock
    rcases h.kept_by (by simp [hidle]) hblock with hfired | hfailed | hwatcher
    · exact Or.inl hfired
    · exact Or.inr (Or.inl hfailed)
    · exact Or.inr (Or.inr (Or.inr hwatcher))

/-- The next epoch has no watcher yet. -/
theorem Stands.next_none (h : Stands w) : w.watchers (w.epoch + 1) = none := by
  cases hx : w.watchers (w.epoch + 1) with
  | none => rfl
  | some x => exact absurd (h.known _ x hx) (by simp)

theorem spawn_stands (h : Stands w) (hcommand : w.command = .arming) :
    Stands { w with
      epoch := w.epoch + 1
      command := .idle
      watchers := Function.update w.watchers (w.epoch + 1) (some .spawned) } where
  known := by
    intro k x hx
    by_cases hk : k = w.epoch + 1
    · exact Nat.le_of_eq hk
    · have hold : w.watchers k = some x := (Function.update_of_ne hk ..).symm.trans hx
      exact Nat.le_succ_of_le (h.known k x hold)
  arming := by simp
  gone := by simp [h.arming hcommand]
  calm := by simp [h.arming hcommand]
  own := by simpa using fun hfired => h.own (Or.inl hfired)
  duty := by
    intro k x hx
    by_cases hk : k = w.epoch + 1
    · subst hk
      have hspawned : some Watcher.spawned = some x :=
        (Function.update_self (w.epoch + 1) (some Watcher.spawned) w.watchers).symm.trans hx
      rw [← Option.some.inj hspawned]
      exact duty_of_check (by simp [Phase.pending, Watcher.spawned]) (by simp [Watcher.spawned])
        (by simp [Watcher.spawned])
    · have hold : w.watchers k = some x := (Function.update_of_ne hk ..).symm.trans hx
      exact (h.duty k x hold).elsewhere (fun hb => hb) fun hcurrent => hk hcurrent.1
  kept := by
    intro hblock
    rcases h.kept_by (by simp [hcommand]) hblock with hfired | hfailed | ⟨k, x, hx, hpending⟩
    · exact Or.inl hfired
    · exact Or.inr (Or.inl hfailed)
    · have hne : k ≠ w.epoch + 1 := by
        rintro rfl
        rw [h.next_none] at hx
        cases hx
      exact Or.inr (Or.inr (Or.inr ⟨k, x, (Function.update_of_ne hne ..).trans hx, hpending⟩))

theorem retire_stands (h : Stands w) (hcommand : w.command = .disarming) :
    Stands { w with epoch := w.epoch + 1, command := .swapping } where
  known := fun k x hx => Nat.le_succ_of_le (h.known k x hx)
  arming := by simp
  gone := fun _ => h.next_none
  calm := by simp
  own := by simpa using fun hfired => h.own (Or.inl hfired)
  duty := by
    intro k x hx
    refine (h.duty k x hx).elsewhere (fun hb => hb) ?_
    rintro ⟨rfl, _⟩
    rw [h.next_none] at hx
    cases hx
  kept := by
    intro hblock
    rcases h.kept_by (by simp [hcommand]) hblock with hfired | hfailed | hwatcher
    · exact Or.inl hfired
    · exact Or.inr (Or.inl hfailed)
    · exact Or.inr (Or.inr (Or.inr hwatcher))

/-- The disarming takes over the block of the watchers. -/
theorem take_stands (h : Stands w) (hcommand : w.command = .swapping) (hfired : w.fired = true) :
    Stands { w with fired := false, command := .lifting } where
  known := h.known
  arming := by simp
  gone := fun _ => h.gone (Or.inr (Or.inl hcommand))
  calm := fun _ => rfl
  own := fun _ => h.own (Or.inl hfired)
  duty := by
    intro k x hx
    have hduty := h.duty k x hx
    exact ⟨hduty.own, hduty.lifted, hduty.marked, hduty.blocked⟩
  kept := fun _ => Or.inr (Or.inr (Or.inl rfl))

theorem finish_stands (h : Stands w) (hcommand : w.command = .swapping) (hfired : w.fired = false) :
    Stands { w with command := .idle } where
  known := h.known
  arming := by simp
  gone := fun _ => h.gone (Or.inr (Or.inl hcommand))
  calm := fun _ => hfired
  own := by simp [hfired]
  duty := by
    intro k x hx
    have hduty := h.duty k x hx
    exact ⟨hduty.own, hduty.lifted, hduty.marked, hduty.blocked⟩
  kept := by
    intro hblock
    rcases h.kept_by (by simp [hcommand]) hblock with hf | hfailed | hwatcher
    · exact Or.inl hf
    · exact Or.inr (Or.inl hfailed)
    · exact Or.inr (Or.inr (Or.inr hwatcher))

theorem lift_stands (h : Stands w) (hcommand : w.command = .lifting) :
    Stands { w.lift succeeds with command := .idle } := by
  have hcalm := h.calm (Or.inr hcommand)
  have hgone := h.gone (Or.inr (Or.inr hcommand))
  have hduty : ∀ k x, w.watchers k = some x → ∀ w' : World, w'.epoch = w.epoch →
      (w'.block = .already → w.block = .already) → Duty w' k x := by
    intro k x hx w' hepoch hblock
    refine (h.duty k x hx).elsewhere hblock fun hcurrent => ?_
    rw [hcurrent.1, hepoch, hgone] at hx
    cases hx
  cases succeeds with
  | true =>
    simp only [World.lift, if_true]
    exact ⟨h.known, by simp, fun _ => hgone, fun _ => hcalm, by simp,
      fun k x hx => hduty k x hx _ rfl (by simp), fun hb => by cases hb⟩
  | false =>
    simp only [World.lift]
    exact ⟨h.known, by simp, fun _ => hgone, fun _ => hcalm, by simp [hcalm],
      fun k x hx => hduty k x hx _ rfl (fun hb => hb), fun _ => Or.inr (Or.inl rfl)⟩

theorem proceed_stands (h : Stands w) : Stands (proceed w succeeds) := by
  cases hcommand : w.command with
  | idle =>
    simp only [proceed, hcommand]
    exact h
  | arming =>
    simp only [proceed, hcommand]
    exact spawn_stands h hcommand
  | disarming =>
    simp only [proceed, hcommand]
    exact retire_stands h hcommand
  | swapping =>
    cases hfired : w.fired with
    | true =>
      simp only [proceed, hcommand, hfired, if_true]
      exact take_stands h hcommand hfired
    | false =>
      have hkeeps : proceed w succeeds = { w with command := .idle } := by
        simp [proceed, hcommand, hfired]
      rw [hkeeps]
      exact finish_stands h hcommand hfired
  | lifting =>
    simp only [proceed, hcommand]
    exact lift_stands h hcommand

theorem step_stands (s : Step) (h : Stands w) (horderly : OrderlyStep w s) : Stands (step w s) := by
  cases s with
  | arm =>
    by_cases hidle : w.command = .idle
    · simp only [step, if_pos hidle]
      exact arm_stands h hidle
    · simp only [step, if_neg hidle]
      exact h
  | disarm =>
    by_cases hidle : w.command = .idle
    · simp only [step, if_pos hidle]
      exact disarm_stands h hidle
    · simp only [step, if_neg hidle]
      exact h
  | proceed succeeds => exact proceed_stands h
  | watch k probe succeeds =>
    simp only [step]
    cases hx : w.watchers k with
    | none => exact h
    | some x => exact watch_stands h hx (horderly x hx)

/-- A drop that is blocked, and lifted again when the tunnel is back. -/
def droppedRun : List Step :=
  [.arm, .proceed true, .watch 1 .unknown true, .watch 1 .unknown true, .watch 1 .up true,
    .watch 1 .up true, .watch 1 .up true, .watch 1 .up true, .watch 1 .down true, .watch 1 .down true,
    .watch 1 .down true]

end Steps
end VpnKillSwitch
