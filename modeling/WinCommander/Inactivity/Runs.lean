import Mathlib.Tactic.Linarith
import WinCommander.Inactivity.Timer
import WinCommander.Library.Run

/-!
# The lockdown over runs

While no save brings old times with it and no call writes over what others have done since its read,
the lockdown is dispatched only when it is due, once between two clears, and saves keep what resets
and clears have done.
-/

namespace InactivityTimer

open Machine

variable {iso : Iso} {w : World}

section Statements

/-- A record whose baseline is not before a reset. -/
def NotBefore (iso : Iso) (config : DeadMansSwitchConfig) (reset : Option ℤ) : Prop :=
  ∀ r ∈ reset, ∃ t ∈ iso.parse config.lastActivityAt, r ≤ t

/-- The lockdown is dispatched in this step. -/
def Dispatches (w : World) : Event → Prop
  | .fireWrite .ok => ∃ trip config, w.watchdog = .firing trip config
  | _ => False

/-- A save is written in this step. -/
def Saves (w : World) : Event → Prop
  | .write id ending => ending.commits = true ∧
    ∃ p ∈ w.pending id, ∃ config paid, p.op = .save config paid
  | _ => False

/-- A step that is safe: a lockdown is dispatched only from an enabled switch whose threshold has
passed since the latest reset or clear, and only once since the latest clear; and a save keeps the
baseline and the fired flag. -/
structure Safe (iso : Iso) (w : World) (event : Event) : Prop where
  enabled : Dispatches w event → w.config.enabled = true
  due : Dispatches w event → ∀ r ∈ w.lastReset, w.config.thresholdDays * day ≤ w.clock - r
  once : Dispatches w event → w.dispatched = 0
  baseline : Saves w event → NotBefore iso (step iso w event).config (step iso w event).lastReset
  flag : Saves w event →
    (step iso w event).config.lastFiredAt.isSome = w.config.lastFiredAt.isSome

/-- A save whose values do not undo anything at the time of its read: it brings no fired flag of its
own and no baseline from before the latest reset, and it does not take a failed read for defaults. -/
structure Fresh (iso : Iso) (w : World) (config : DeadMansSwitchConfig) (readable : Bool) :
    Prop where
  fired : config.lastFiredAt.isSome = true → w.config.lastFiredAt.isSome = true
  activity : config.lastActivityAt ≠ "" → ∀ r ∈ w.lastReset,
    ∃ t ∈ iso.parse config.lastActivityAt, r ≤ t
  read : readable = false → (w.config.lastFiredAt.isSome = true → config.lastFiredAt.isSome = true) ∧
    (config.lastActivityAt = "" → config.enabled = false → w.lastReset = none)

/-- A write that is not overtaken: since the call's read no reset with a later time was finished,
and the fired flag is not one that the call does not know of. -/
def Current (w : World) (p : Pending) (ending : Ending) : Prop :=
  match p.op with
  | .reset => (∀ r ∈ w.lastReset, r ≤ p.now) ∧
    (w.config.lastFiredAt.isSome = true → p.seenFired = true)
  | .save _ _ => w.lastReset = p.seenReset ∧ w.config.lastFiredAt.isSome = p.seenFired
  | .clear => (∀ r ∈ w.lastReset, r ≤ p.now) ∧
    (ending = .lost → w.config.lastFiredAt.isSome = false)

/-- A fire that is not overtaken: since the check's read nothing was reset, the switch was not
turned off, the threshold was not raised and nothing was fired. -/
structure Trip.Current (trip : Trip) (w : World) : Prop where
  reset : w.lastReset = trip.seenReset
  enabled : w.config.enabled = true
  threshold : w.config.thresholdDays ≤ trip.thresholdDays
  fired : w.config.lastFiredAt.isSome = false

def Condition (iso : Iso) (w : World) : Event → Prop
  | .tick _ _ _ | .fireRead _ => True
  | .fireWrite ending => ending.commits = true →
    ∀ trip config, w.watchdog = .firing trip config → trip.Current w
  | .read _ op _ readable =>
    match op with
    | .save config true => Fresh iso w config readable
    | _ => True
  | .write id ending => ending.commits = true → ∀ p ∈ w.pending id, Current w p ending

/-- The clock does not go back. -/
def Monotone (w : World) : Event → Prop
  | .tick now _ _ | .read _ _ now _ => w.clock ≤ now
  | _ => True

end Statements

section Invariant

/-- What a check has seen when it decided to fire. -/
structure Trip.Due (trip : Trip) (clock : ℤ) (lastReset : Option ℤ) : Prop where
  now_le : trip.now ≤ clock
  due : ∀ r ∈ trip.seenReset, trip.thresholdDays * day ≤ trip.now - r
  seen : ∀ r ∈ trip.seenReset, ∃ r' ∈ lastReset, r ≤ r'

/-- What a call is going to write. -/
def Pending.Prepared (iso : Iso) (p : Pending) : Prop :=
  match p.op with
  | .reset => iso.parse p.config.lastActivityAt = some p.now ∧
    p.config.lastFiredAt.isSome = p.seenFired
  | .save _ _ => NotBefore iso p.config p.seenReset ∧ p.config.lastFiredAt.isSome = p.seenFired
  | .clear => iso.parse p.config.lastActivityAt = some p.now

structure Inv (iso : Iso) (w : World) : Prop where
  baseline : NotBefore iso w.config w.lastReset
  reset_le : ∀ r ∈ w.lastReset, r ≤ w.clock
  dispatched : 0 < w.dispatched → w.config.lastFiredAt.isSome = true
  tripped : ∀ trip, w.watchdog = .tripped trip → trip.Due w.clock w.lastReset
  firing : ∀ trip config, w.watchdog = .firing trip config →
    trip.Due w.clock w.lastReset ∧ config.lastFiredAt.isSome = true ∧ NotBefore iso config trip.seenReset
  pending : ∀ id, ∀ p ∈ w.pending id, p.Prepared iso ∧ p.now ≤ w.clock

theorem inv_start (stored : Option DeadMansSwitchConfig) (clock : ℤ) :
    Inv iso (World.start stored clock) :=
  ⟨by simp [World.start, NotBefore], by simp [World.start], by simp [World.start],
    by simp [World.start], by simp [World.start], by simp [World.start]⟩

/-- Time passes, and nothing else changes. -/
theorem Inv.advance (h : Inv iso w) {now : ℤ} (hnow : w.clock ≤ now) :
    Inv iso { w with clock := now } := by
  have hdue : ∀ trip : Trip, trip.Due w.clock w.lastReset → trip.Due now w.lastReset :=
    fun trip htrip => ⟨htrip.now_le.trans hnow, htrip.due, htrip.seen⟩
  refine ⟨h.baseline, fun r hr => (h.reset_le r hr).trans hnow, h.dispatched, ?_, ?_, ?_⟩
  · exact fun trip htrip => hdue trip (h.tripped trip htrip)
  · intro trip config hfiring
    obtain ⟨htrip, hconfig⟩ := h.firing trip config hfiring
    exact ⟨hdue trip htrip, hconfig⟩
  · intro id p hp
    obtain ⟨hprepared, hle⟩ := h.pending id p hp
    exact ⟨hprepared, hle.trans hnow⟩

/-- A check that fires has seen that the threshold has passed since the latest reset. -/
theorem due_of_trips (h : Inv iso w) {available : Bool} {now : ℤ}
    (htrips : trips iso w.config available now = true) :
    ∀ r ∈ w.lastReset, w.config.thresholdDays * day ≤ now - r := by
  intro r hr
  obtain ⟨t, ht, hle⟩ := h.baseline r hr
  rw [Option.mem_def] at ht
  unfold trips at htrips
  simp only [ht, Bool.and_eq_true, Bool.not_eq_true', decide_eq_false_iff_not, not_lt] at htrips
  linarith [htrips.2]

theorem tick_cases (w : World) (now : ℤ) (readable available : Bool) :
    w.tick iso now readable available = { w with clock := now } ∨
      (trips iso w.config available now = true ∧ w.tick iso now readable available = { w with
        clock := now, watchdog := .tripped ⟨now, w.config.thresholdDays, w.lastReset⟩ }) := by
  unfold World.tick
  split
  · by_cases htrips : (readable && trips iso w.config available now) = true
    · rw [if_pos htrips]
      rw [Bool.and_eq_true] at htrips
      exact Or.inr ⟨htrips.2, rfl⟩
    · rw [if_neg htrips]
      exact Or.inl rfl
  · exact Or.inl rfl

theorem inv_tick (h : Inv iso w) {now : ℤ} (hnow : w.clock ≤ now) (readable available : Bool) :
    Inv iso (w.tick iso now readable available) := by
  have hadvance := h.advance hnow
  rcases tick_cases w now readable available with htick | ⟨htrips, htick⟩
  · rw [htick]
    exact hadvance
  · rw [htick]
    refine ⟨hadvance.baseline, hadvance.reset_le, hadvance.dispatched, ?_, by simp,
      hadvance.pending⟩
    rintro trip htrip
    obtain rfl := Watchdog.tripped.inj htrip
    exact ⟨le_rfl, due_of_trips h htrips, fun r hr => ⟨r, hr, le_rfl⟩⟩

theorem inv_fireRead (h : Inv iso w) (readable : Bool) : Inv iso (w.fireRead iso readable) := by
  unfold World.fireRead
  cases hwatchdog : w.watchdog with
  | tripped trip =>
    have htrip := h.tripped trip hwatchdog
    cases readable with
    | false => exact ⟨h.baseline, h.reset_le, h.dispatched, by simp, by simp, h.pending⟩
    | true =>
      refine ⟨h.baseline, h.reset_le, h.dispatched, by simp, ?_, h.pending⟩
      rintro trip' config hfiring
      obtain ⟨rfl, rfl⟩ := Watchdog.firing.inj hfiring
      refine ⟨htrip, rfl, ?_⟩
      intro r hr
      obtain ⟨r', hr', hle⟩ := htrip.seen r hr
      obtain ⟨t, ht, hle'⟩ := h.baseline r' hr'
      exact ⟨t, ht, hle.trans hle'⟩
  | idle => exact h
  | firing trip config => exact h

theorem inv_fireWrite (h : Inv iso w) {ending : Ending}
    (hcurrent : ending.commits = true → ∀ trip config, w.watchdog = .firing trip config →
      trip.Current w) : Inv iso (w.fireWrite ending) := by
  unfold World.fireWrite
  cases hwatchdog : w.watchdog with
  | firing trip config =>
    obtain ⟨hdue, hfired, hbefore⟩ := h.firing trip config hwatchdog
    have hbaseline : ending.commits = true → NotBefore iso config w.lastReset := by
      intro hcommits
      rw [(hcurrent hcommits trip config hwatchdog).reset]
      exact hbefore
    cases ending with
    | ok => exact ⟨hbaseline rfl, h.reset_le, fun _ => hfired, by simp, by simp, h.pending⟩
    | failed => exact ⟨h.baseline, h.reset_le, h.dispatched, by simp, by simp, h.pending⟩
    | lost => exact ⟨hbaseline rfl, h.reset_le, fun _ => hfired, by simp, by simp, h.pending⟩
  | idle => exact h
  | tripped trip => exact h

/-- What a fresh save is going to write is not before the latest reset, and has the fired flag that
is stored. -/
theorem saved_prepared (h : Inv iso w) {config : DeadMansSwitchConfig} {now : ℤ} {readable : Bool}
    (hnow : w.clock ≤ now) (hfresh : Fresh iso w config readable) {existing : DeadMansSwitchConfig}
    (hexisting : existing = (if readable = true then some w.config else none).getD .initial) :
    NotBefore iso (saved iso config existing now) w.lastReset ∧
      (saved iso config existing now).lastFiredAt.isSome = w.config.lastFiredAt.isSome := by
  refine ⟨?_, ?_⟩
  · intro r hr
    by_cases hactivity : config.lastActivityAt = ""
    · cases readable with
      | true =>
        obtain ⟨t, ht, hle⟩ := h.baseline r hr
        have hne : w.config.lastActivityAt ≠ "" := by
          intro hempty
          rw [hempty, iso.parse_empty] at ht
          cases ht
        refine ⟨t, ?_, hle⟩
        have hsame : (saved iso config existing now).lastActivityAt = w.config.lastActivityAt := by
          simp [saved, hexisting, hactivity, hne]
        rw [hsame]
        exact ht
      | false =>
        have henabled : config.enabled = true := by
          by_contra hdisabled
          have hnone := (hfresh.read rfl).2 hactivity (by simpa using hdisabled)
          rw [hnone] at hr
          cases hr
        have hstamp : (saved iso config existing now).lastActivityAt = iso.toRfc3339 now := by
          simp [saved, hexisting, hactivity, henabled, DeadMansSwitchConfig.initial]
        refine ⟨now, ?_, (h.reset_le r hr).trans hnow⟩
        rw [hstamp]
        exact iso.parse_toRfc3339 now
    · have hsame : (saved iso config existing now).lastActivityAt = config.lastActivityAt := by
        simp [saved, hactivity]
      rw [hsame]
      exact hfresh.activity hactivity r hr
  · have hfired := hfresh.fired
    cases readable with
    | true =>
      simp only [if_true, Option.getD_some] at hexisting
      subst hexisting
      cases hconfig : config.lastFiredAt <;> cases hstored : w.config.lastFiredAt <;>
        simp_all [saved]
    | false =>
      have hread := (hfresh.read rfl).1
      simp only [Bool.false_eq_true, if_false, Option.getD_none] at hexisting
      subst hexisting
      cases hconfig : config.lastFiredAt <;> cases hstored : w.config.lastFiredAt <;>
        simp_all [saved, DeadMansSwitchConfig.initial]

theorem prepared_of_prepare (h : Inv iso w) {op : Op} {now : ℤ} {readable : Bool}
    (hnow : w.clock ≤ now) (hcondition : ∀ config, op = .save config true →
      Fresh iso w config readable) {config : DeadMansSwitchConfig}
    (hprepare : prepare iso op (if readable = true then some w.config else none) now = some config) :
    (Pending.mk op config now w.lastReset w.config.lastFiredAt.isSome).Prepared iso := by
  cases op with
  | reset =>
    cases readable with
    | false => cases hprepare
    | true =>
      obtain rfl := Option.some.inj hprepare
      exact ⟨iso.parse_toRfc3339 now, rfl⟩
  | save wanted paid =>
    cases paid with
    | false => cases hprepare
    | true =>
      obtain rfl := Option.some.inj hprepare
      exact saved_prepared h hnow (hcondition wanted rfl) rfl
  | clear =>
    cases readable with
    | false => cases hprepare
    | true =>
      obtain rfl := Option.some.inj hprepare
      exact iso.parse_toRfc3339 now

theorem inv_read (h : Inv iso w) {id : ℕ} {op : Op} {now : ℤ} {readable : Bool}
    (hnow : w.clock ≤ now) (hcondition : ∀ config, op = .save config true →
      Fresh iso w config readable) : Inv iso (w.read iso id op now readable) := by
  have hadvance := h.advance hnow
  unfold World.read
  cases hbusy : w.pending id with
  | some p => exact hadvance
  | none =>
    refine ⟨hadvance.baseline, hadvance.reset_le, hadvance.dispatched, hadvance.tripped,
      hadvance.firing, ?_⟩
    intro other p hp
    by_cases hother : other = id
    · subst hother
      simp only [Function.update_self, Option.mem_def, Option.map_eq_some_iff] at hp
      obtain ⟨config, hprepare, rfl⟩ := hp
      exact ⟨prepared_of_prepare h hnow hcondition hprepare, le_rfl⟩
    · simp only [Function.update_of_ne hother] at hp
      exact hadvance.pending other p hp

/-- A call is over; what it was going to write is forgotten. -/
theorem Inv.forget (h : Inv iso w) (id : ℕ) :
    Inv iso { w with pending := Function.update w.pending id none } := by
  refine ⟨h.baseline, h.reset_le, h.dispatched, h.tripped, h.firing, ?_⟩
  intro other p hp
  by_cases hother : other = id
  · subst hother
    simp only [Function.update_self, Option.not_mem_none] at hp
  · simp only [Function.update_of_ne hother] at hp
    exact h.pending other p hp

/-- A record is stored that is not before the latest reset, and that has the fired flag if the
lockdown was dispatched. -/
theorem Inv.store (h : Inv iso w) {config : DeadMansSwitchConfig}
    (hbaseline : NotBefore iso config w.lastReset)
    (hfired : 0 < w.dispatched → config.lastFiredAt.isSome = true) :
    Inv iso { w with stored := some config } :=
  ⟨hbaseline, h.reset_le, hfired, h.tripped, h.firing, h.pending⟩

/-- A reset is finished whose time is in the record, and not before the latest one. -/
theorem Inv.finish (h : Inv iso w) {now : ℤ} (hstored : iso.parse w.config.lastActivityAt = some now)
    (hlatest : ∀ r ∈ w.lastReset, r ≤ now) (hnow : now ≤ w.clock) :
    Inv iso { w with lastReset := some now } := by
  have hdue : ∀ trip : Trip, trip.Due w.clock w.lastReset → trip.Due w.clock (some now) := by
    intro trip htrip
    refine ⟨htrip.now_le, htrip.due, ?_⟩
    intro r hr
    obtain ⟨r', hr', hle⟩ := htrip.seen r hr
    exact ⟨now, rfl, hle.trans (hlatest r' hr')⟩
  refine ⟨?_, ?_, h.dispatched, fun trip htrip => hdue trip (h.tripped trip htrip), ?_, h.pending⟩
  · rintro r hr
    obtain rfl := Option.some.inj hr
    exact ⟨now, hstored, le_rfl⟩
  · rintro r hr
    obtain rfl := Option.some.inj hr
    exact hnow
  · intro trip config hfiring
    obtain ⟨htrip, hconfig⟩ := h.firing trip config hfiring
    exact ⟨hdue trip htrip, hconfig⟩

theorem Inv.cleared (h : Inv iso w) : Inv iso { w with dispatched := 0 } :=
  ⟨h.baseline, h.reset_le, by simp, h.tripped, h.firing, h.pending⟩

theorem inv_write (h : Inv iso w) {id : ℕ} {ending : Ending}
    (hcurrent : ending.commits = true → ∀ p ∈ w.pending id, Current w p ending) :
    Inv iso (w.write id ending) := by
  unfold World.write
  cases hpending : w.pending id with
  | none => exact h
  | some p =>
    obtain ⟨hprepared, hnow⟩ := h.pending id p hpending
    have hforgotten := h.forget id
    by_cases hcommits : ending.commits = true
    · have hcurrent := hcurrent hcommits p hpending
      obtain ⟨op, config, now, seenReset, seenFired⟩ := p
      cases op with
      | reset =>
        obtain ⟨hstamp, hflag⟩ := hprepared
        obtain ⟨hlatest, hfired⟩ := hcurrent
        have hstored := hforgotten.store (fun r hr => ⟨now, hstamp, hlatest r hr⟩)
          (fun hdispatched => hflag.trans (hfired (h.dispatched hdispatched)))
        cases ending with
        | ok => exact hstored.finish hstamp hlatest hnow
        | failed => cases hcommits
        | lost => exact hstored
      | save wanted paid =>
        obtain ⟨hbefore, hflag⟩ := hprepared
        obtain ⟨hreset, hfired⟩ := hcurrent
        have hstored := hforgotten.store (hreset ▸ hbefore)
          (fun hdispatched => by rw [hflag, ← hfired]; exact h.dispatched hdispatched)
        cases ending with
        | ok => exact hstored
        | failed => cases hcommits
        | lost => exact hstored
      | clear =>
        obtain ⟨hlatest, hlost⟩ := hcurrent
        cases ending with
        | ok =>
          have hstored := hforgotten.cleared.store (fun r hr => ⟨now, hprepared, hlatest r hr⟩)
            (fun hdispatched => absurd hdispatched (Nat.lt_irrefl 0))
          exact hstored.finish hprepared hlatest hnow
        | failed => cases hcommits
        | lost =>
          apply hforgotten.store (fun r hr => ⟨now, hprepared, hlatest r hr⟩)
          intro hdispatched
          have hset := h.dispatched hdispatched
          rw [hlost rfl] at hset
          cases hset
    · cases ending with
      | failed => exact hforgotten
      | ok => exact absurd rfl hcommits
      | lost => exact absurd rfl hcommits

/-- What one step keeps. -/
theorem inv_step (h : Inv iso w) {event : Event} (hmonotone : Monotone w event)
    (hcondition : Condition iso w event) : Inv iso (step iso w event) := by
  cases event with
  | tick now readable available => exact inv_tick h hmonotone readable available
  | fireRead readable => exact inv_fireRead h readable
  | fireWrite ending => exact inv_fireWrite h hcondition
  | read id op now readable =>
    apply inv_read h hmonotone
    rintro config rfl
    exact hcondition
  | write id ending => exact inv_write h hcondition

end Invariant

section Safety

/-- A save that is written keeps the fired flag. -/
theorem flag_of_saves (h : Inv iso w) {id : ℕ} {ending : Ending} (hsaves : Saves w (.write id ending))
    (hcurrent : ending.commits = true → ∀ p ∈ w.pending id, Current w p ending) :
    (w.write id ending).config.lastFiredAt.isSome = w.config.lastFiredAt.isSome := by
  obtain ⟨hcommits, p, hpending, wanted, paid, hop⟩ := hsaves
  have hprepared := (h.pending id p hpending).1
  have hcurrent := hcurrent hcommits p hpending
  rw [Option.mem_def] at hpending
  obtain ⟨op, config, now, seenReset, seenFired⟩ := p
  simp only at hop
  subst hop
  have hconfig : (w.write id ending).config = config := by
    unfold World.write
    rw [hpending]
    cases ending with
    | ok => rfl
    | failed => cases hcommits
    | lost => rfl
  rw [hconfig, hcurrent.2]
  exact hprepared.2

/-- A lockdown that is dispatched is due. -/
theorem due_of_current (h : Inv iso w) {trip : Trip} {config : DeadMansSwitchConfig}
    (hfiring : w.watchdog = .firing trip config) (hcurrent : trip.Current w) :
    ∀ r ∈ w.lastReset, w.config.thresholdDays * day ≤ w.clock - r := by
  intro r hr
  obtain ⟨hdue, _⟩ := h.firing trip config hfiring
  rw [hcurrent.reset] at hr
  have hpassed := hdue.due r hr
  have hthreshold : (w.config.thresholdDays : ℤ) * day ≤ trip.thresholdDays * day := by
    apply mul_le_mul_of_nonneg_right _ (by decide)
    exact_mod_cast hcurrent.threshold
  linarith [hdue.now_le]

theorem safe_step (h : Inv iso w) {event : Event} (hmonotone : Monotone w event)
    (hcondition : Condition iso w event) : Safe iso w event := by
  have hdispatch : Dispatches w event → ∃ trip config, w.watchdog = .firing trip config ∧
      trip.Current w := by
    intro hdispatches
    cases event with
    | fireWrite ending =>
      cases ending with
      | ok =>
        obtain ⟨trip, config, hfiring⟩ := hdispatches
        exact ⟨trip, config, hfiring, hcondition rfl trip config hfiring⟩
      | failed => cases hdispatches
      | lost => cases hdispatches
    | tick => cases hdispatches
    | fireRead => cases hdispatches
    | read => cases hdispatches
    | write => cases hdispatches
  refine ⟨?_, ?_, ?_, ?_, ?_⟩
  · intro hdispatches
    obtain ⟨trip, config, _, hcurrent⟩ := hdispatch hdispatches
    exact hcurrent.enabled
  · intro hdispatches
    obtain ⟨trip, config, hfiring, hcurrent⟩ := hdispatch hdispatches
    exact due_of_current h hfiring hcurrent
  · intro hdispatches
    obtain ⟨trip, config, _, hcurrent⟩ := hdispatch hdispatches
    by_contra hsome
    have hset := h.dispatched (Nat.pos_of_ne_zero hsome)
    rw [hcurrent.fired] at hset
    cases hset
  · intro _
    exact (inv_step h hmonotone hcondition).baseline
  · intro hsaves
    cases event with
    | write id ending => exact flag_of_saves h hsaves hcondition
    | tick => cases hsaves
    | fireRead => cases hsaves
    | fireWrite => cases hsaves
    | read => cases hsaves

/-- Points in time as a sign and one mark for each nanosecond. -/
def unaryIso : Iso where
  parse text :=
    match text.toList with
    | '+' :: marks => some marks.length
    | '-' :: marks => some (-marks.length)
    | _ => none
  toRfc3339 t := String.ofList ((if t < 0 then '-' else '+') :: List.replicate t.natAbs '.')
  parse_toRfc3339 t := by
    rw [String.toList_ofList]
    by_cases ht : t < 0
    · simp only [ht, if_true, List.length_replicate]
      congr 1
      omega
    · simp only [ht, if_false, List.length_replicate]
      congr 1
      omega
  parse_empty := rfl

/-- An enabled switch with what the caller knows of its last activity. -/
def enabledSince (activity : String) : DeadMansSwitchConfig := ⟨true, 14, none, activity, none⟩

end Safety

end InactivityTimer
