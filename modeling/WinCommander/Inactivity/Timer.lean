import Mathlib.Logic.Function.Basic
import Mathlib.Data.Int.Notation
import Mathlib.Data.Nat.Notation

/-!
# The inactivity timer

A watchdog requests the lockdown when the saved activity baseline is older than a threshold.
Resets, saves and clears rewrite the same record: each reads it first and writes it later, and the
steps of different calls come in any order.
-/

namespace InactivityTimer

section Config

structure DeadMansSwitchConfig where
  enabled : Bool
  thresholdDays : ℕ
  flowIdToFire : Option String
  lastActivityAt : String
  lastFiredAt : Option String
  deriving DecidableEq

/-- A switch that is off, with the default threshold. -/
def DeadMansSwitchConfig.initial : DeadMansSwitchConfig := ⟨false, 14, none, "", none⟩

/-- The text form of points in time, in nanoseconds. -/
structure Iso where
  parse : String → Option ℤ
  toRfc3339 : ℤ → String
  parse_toRfc3339 : ∀ t, parse (toRfc3339 t) = some t
  parse_empty : parse "" = none

/-- One day in nanoseconds. -/
def day : ℤ := 24 * 60 * 60 * 1000000000

def minThresholdDays : ℕ := 1

def maxThresholdDays : ℕ := 365

variable (iso : Iso)

/-- Whether a check of the watchdog ends in a fire. -/
def trips (config : DeadMansSwitchConfig) (available : Bool) (now : ℤ) : Bool :=
  config.enabled && available && config.lastFiredAt.isNone &&
    match iso.parse config.lastActivityAt with
    | none => false
    | some last => !(decide (now - last < config.thresholdDays * day))

/-- The calls that rewrite the record; a save carries what the caller wants stored. -/
inductive Op where
  | reset
  | save (config : DeadMansSwitchConfig) (paid : Bool)
  | clear

/-- What a save stores: the caller's values, with the stored times where the caller has none. -/
def saved (config existing : DeadMansSwitchConfig) (now : ℤ) : DeadMansSwitchConfig :=
  let thresholdDays := min (max config.thresholdDays minThresholdDays) maxThresholdDays
  let activity :=
    if config.lastActivityAt = "" then existing.lastActivityAt else config.lastActivityAt
  let fired :=
    if config.lastFiredAt.isNone && existing.lastFiredAt.isSome then existing.lastFiredAt
    else config.lastFiredAt
  let baseline := if config.enabled && activity = "" then iso.toRfc3339 now else activity
  ⟨config.enabled, thresholdDays, config.flowIdToFire, baseline, fired⟩

/-- What a call is going to write after its read, unless it ends there. -/
def prepare (op : Op) (read : Option DeadMansSwitchConfig) (now : ℤ) : Option DeadMansSwitchConfig :=
  match op with
  | .reset => read.map fun config => { config with lastActivityAt := iso.toRfc3339 now }
  | .save config paid => if paid then some (saved iso config (read.getD .initial) now) else none
  | .clear => read.map fun config =>
    { config with lastFiredAt := none, lastActivityAt := iso.toRfc3339 now }

end Config

section World

/-- How a write ends.  A write that fails may have reached the store. -/
inductive Ending where
  | ok
  | failed
  | lost
  deriving DecidableEq

def Ending.commits : Ending → Bool
  | .failed => false
  | _ => true

/-- A check that has decided to fire: when it was, the threshold it read, and the latest reset then. -/
structure Trip where
  now : ℤ
  thresholdDays : ℕ
  seenReset : Option ℤ

inductive Watchdog where
  | idle
  | tripped (trip : Trip)
  | firing (trip : Trip) (config : DeadMansSwitchConfig)

/-- A call between its read and its write, with what was stored when it read. -/
structure Pending where
  op : Op
  config : DeadMansSwitchConfig
  now : ℤ
  seenReset : Option ℤ
  seenFired : Bool

/-- The stored record and the calls in progress.  What follows `pending` is not kept by the code:
the last reading of the clock, the time of the latest successful reset or clear, and how often the
lockdown was dispatched since the latest successful clear. -/
structure World where
  stored : Option DeadMansSwitchConfig
  watchdog : Watchdog
  pending : ℕ → Option Pending
  clock : ℤ
  lastReset : Option ℤ
  dispatched : ℕ

def World.config (w : World) : DeadMansSwitchConfig := w.stored.getD .initial

/-- A machine at its start: any record may be stored. -/
def World.start (stored : Option DeadMansSwitchConfig) (clock : ℤ) : World where
  stored
  watchdog := .idle
  pending := fun _ => none
  clock
  lastReset := none
  dispatched := 0

inductive Event where
  | tick (now : ℤ) (readable available : Bool)
  | fireRead (readable : Bool)
  | fireWrite (ending : Ending)
  | read (id : ℕ) (op : Op) (now : ℤ) (readable : Bool)
  | write (id : ℕ) (ending : Ending)

variable (iso : Iso)

/-- The first read of a check. -/
def World.tick (w : World) (now : ℤ) (readable available : Bool) : World :=
  match w.watchdog with
  | .idle =>
    if readable && trips iso w.config available now then
      { w with clock := now, watchdog := .tripped ⟨now, w.config.thresholdDays, w.lastReset⟩ }
    else { w with clock := now }
  | _ => { w with clock := now }

/-- Recording the fire reads the record once more. -/
def World.fireRead (w : World) (readable : Bool) : World :=
  match w.watchdog with
  | .tripped trip =>
    if readable then
      { w with watchdog :=
          .firing trip { w.config with lastFiredAt := some (iso.toRfc3339 trip.now) } }
    else { w with watchdog := .idle }
  | _ => w

/-- The fire is recorded, and then the lockdown is dispatched. -/
def World.fireWrite (w : World) (ending : Ending) : World :=
  match w.watchdog with
  | .firing _ config =>
    match ending with
    | .ok => { w with
        watchdog := .idle, stored := some config, dispatched := w.dispatched + 1 }
    | .failed => { w with watchdog := .idle }
    | .lost => { w with watchdog := .idle, stored := some config }
  | _ => w

def World.read (w : World) (id : ℕ) (op : Op) (now : ℤ) (readable : Bool) : World :=
  match w.pending id with
  | some _ => { w with clock := now }
  | none =>
    let pending := (prepare iso op (if readable then some w.config else none) now).map
      fun config => Pending.mk op config now w.lastReset w.config.lastFiredAt.isSome
    { w with clock := now, pending := Function.update w.pending id pending }

/-- What the successful end of a call counts as. -/
def World.credit (w : World) (p : Pending) : World :=
  match p.op with
  | .reset => { w with lastReset := some p.now }
  | .save _ _ => w
  | .clear => { w with lastReset := some p.now, dispatched := 0 }

def World.write (w : World) (id : ℕ) (ending : Ending) : World :=
  match w.pending id with
  | none => w
  | some p =>
    let w' := { w with pending := Function.update w.pending id none }
    match ending with
    | .ok => World.credit { w' with stored := some p.config } p
    | .failed => w'
    | .lost => { w' with stored := some p.config }

@[grind =] def step (w : World) : Event → World
  | .tick now readable available => w.tick iso now readable available
  | .fireRead readable => w.fireRead iso readable
  | .fireWrite ending => w.fireWrite ending
  | .read id op now readable => w.read iso id op now readable
  | .write id ending => w.write id ending

end World

end InactivityTimer
