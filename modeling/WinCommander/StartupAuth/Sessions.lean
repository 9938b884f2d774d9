import Mathlib
import WinCommander.Library.History
import WinCommander.Library.Run
import WinCommander.StartupAuth.Pins

/-!
# The sessions that change the startup PINs

The PINs are stored once for the machine.  Every session of the application keeps a copy of the
settings, and a call changes a snapshot of that copy and writes the whole of it back.
-/

namespace StartupAuth

open Outcome Machine

/-- The settings as a session read them.  Of the settings only the PINs matter here. -/
structure Snapshot where
  pins : StartupPinSettings
  revision : ℕ
  deriving DecidableEq

/-- The calls that read a snapshot and write it back later. -/
inductive Command where
  | register (mode plaintext : String)
  | clear (mode : String)

inductive Change where
  | register (mode : PinMode) (plaintext : String)
  | clear (mode : PinMode)
  deriving DecidableEq

def Change.mode : Change → PinMode
  | .register mode _ => mode
  | .clear mode => mode

/-- What persisting the settings comes to.  A failure does not say that nothing was stored. -/
inductive Persisted where
  | saved
  | failed (error : String) (committed : Bool)

/-- What a call holds between its read and its write. -/
structure Draft where
  session : ℕ
  change : Change
  updated : StartupPinSettings
  revision : ℕ
  deriving DecidableEq

inductive Phase where
  | idle
  | writing (draft : Draft)
  | done (result : Except String Unit)

/-- A change of a PIN that reached the store, and whether its call returned `Ok`. -/
structure Event where
  change : Change
  ok : Bool
  deriving DecidableEq

/-- The machine store, the copies of the sessions and the calls.  A fresh revision is the next
number; the log is kept for the statements only. -/
structure World where
  stored : StartupPinSettings
  cache : ℕ → Option Snapshot
  calls : ℕ → Phase
  issued : ℕ
  log : List Event

namespace World

def start (stored : StartupPinSettings) : World where
  stored := stored
  cache := fun _ => none
  calls := fun _ => .idle
  issued := 0
  log := []

def settle (w : World) (call : ℕ) (phase : Phase) : World :=
  { w with calls := Function.update w.calls call phase }

/-- The copy of a session, or what it loads from the store and keeps. -/
def readSettings (w : World) (session : ℕ) (loading : Except String Unit) :
    Except String Snapshot × World :=
  match w.cache session with
  | some cached => (.ok cached, w)
  | none =>
    match loading with
    | .error e => (.error e, w)
    | .ok () =>
      let loaded : Snapshot := ⟨w.stored, w.issued⟩
      (.ok loaded,
        { w with cache := Function.update w.cache session (some loaded), issued := w.issued + 1 })

/-- The PINs that a session has at hand go to the store, whatever is stored there. -/
def commit (w : World) (session : ℕ) (change : Option Change) (pins : StartupPinSettings) :
    Persisted → Except String Unit × World
  | .saved =>
    (.ok (),
      { w with
        stored := pins
        cache := Function.update w.cache session (some ⟨pins, w.issued⟩)
        issued := w.issued + 1
        log := w.log ++ (change.map fun c => ⟨c, true⟩).toList })
  | .failed error true =>
    (.error error,
      { w with
        stored := pins
        cache := Function.update w.cache session none
        log := w.log ++ (change.map fun c => ⟨c, false⟩).toList })
  | .failed error false => (.error error, { w with cache := Function.update w.cache session none })

/-- A snapshot is written where the session's copy is still the one it was taken from. -/
def writeSettings (w : World) (draft : Draft) (decoy : Bool) (persisted : Persisted) :
    Except String Unit × World :=
  if decoy then (.error "Settings are read-only in decoy mode.", w)
  else
    match w.cache draft.session with
    | none => (.error "Settings changed; reload before saving", w)
    | some current =>
      if draft.revision ≠ current.revision then (.error "Settings changed; reload before saving", w)
      else w.commit draft.session (some draft.change) draft.updated persisted

/-- One transaction from the read to the write. -/
def mutateSettings (w : World) (session : ℕ)
    (prepare : StartupPinSettings → Except String StartupPinSettings) (decoy : Bool)
    (loading : Except String Unit) (persisted : Persisted) : Except String Unit × World :=
  if decoy then (.error "Settings are read-only in decoy mode.", w)
  else
    match w.cache session, loading with
    | none, .error e => (.error e, w)
    | cached, _ =>
      match prepare ((cached.map Snapshot.pins).getD w.stored) with
      | .error e => (.error e, w)
      | .ok updated => w.commit session none updated persisted

end World

section Calls

variable (argon : String → String)

def Command.allowed (paid : Except String Unit) : Command → Except String Unit
  | .register _ plaintext => do
    paid
    validatePinEnterable plaintext
  | .clear _ => .ok ()

/-- The change that a call makes to the PINs of its snapshot. -/
def Command.prepare (sp : StartupPinSettings) :
    Command → Except String (Change × StartupPinSettings)
  | .register mode plaintext =>
    (registered argon mode plaintext sp).map fun made => (.register made.1 plaintext, made.2)
  | .clear mode => (cleared mode sp).map fun made => (.clear made.1, made.2)

/-- The first half of `register_startup_pin` and of `clear_startup_pin`. -/
def World.read (w : World) (call session : ℕ) (command : Command)
    (paid loading : Except String Unit) : World :=
  match command.allowed paid with
  | .error e => w.settle call (.done (.error e))
  | .ok () =>
    match w.readSettings session loading with
    | (.error e, w) => w.settle call (.done (.error ("read settings: " ++ e)))
    | (.ok snapshot, w) =>
      match command.prepare argon snapshot.pins with
      | .error e => w.settle call (.done (.error e))
      | .ok (change, updated) =>
        w.settle call (.writing ⟨session, change, updated, snapshot.revision⟩)

/-- Their second half. -/
def World.write (w : World) (call : ℕ) (draft : Draft) (decoy : Bool) (persisted : Persisted) :
    World :=
  let result := w.writeSettings draft decoy persisted
  result.2.settle call (.done (result.1.mapError ("write settings: " ++ ·)))

def setStartupPinEnabled (w : World) (session : ℕ) (enabled : Bool)
    (paid : Except String Unit) (decoy : Bool) (loading : Except String Unit)
    (persisted : Persisted) : Except String Unit × World :=
  match if enabled then paid else .ok () with
  | .error e => (.error e, w)
  | .ok () =>
    let result := w.mutateSettings session (prepareCalculatorLock · enabled) decoy loading persisted
    (result.1.mapError ("write settings: " ++ ·), result.2)

def startupPinIsConfigured (w : World) (session : ℕ) (loading : Except String Unit) :
    Except String Bool × World :=
  let result := w.readSettings session loading
  ((result.1.map fun snapshot => gateEnabled snapshot.pins).mapError ("read settings: " ++ ·),
    result.2)

/-- The halves of the calls of all sessions in any order, and what else happens to the settings: a
session saves others of them, or drops its copy. -/
inductive Action where
  | read (call session : ℕ) (command : Command) (paid loading : Except String Unit)
  | write (call : ℕ) (decoy : Bool) (persisted : Persisted)
  | setEnabled (session : ℕ) (enabled : Bool) (paid : Except String Unit) (decoy : Bool)
    (loading : Except String Unit) (persisted : Persisted)
  | isConfigured (session : ℕ) (loading : Except String Unit)
  | saveOthers (session : ℕ) (decoy : Bool) (loading : Except String Unit) (persisted : Persisted)
  | forget (session : ℕ)

@[grind =] def step (w : World) : Action → World
  | .read call session command paid loading =>
    match w.calls call with
    | .idle => w.read argon call session command paid loading
    | _ => w
  | .write call decoy persisted =>
    match w.calls call with
    | .writing draft => w.write call draft decoy persisted
    | _ => w
  | .setEnabled session enabled paid decoy loading persisted =>
    (setStartupPinEnabled w session enabled paid decoy loading persisted).2
  | .isConfigured session loading => (startupPinIsConfigured w session loading).2
  | .saveOthers session decoy loading persisted =>
    (w.mutateSettings session .ok decoy loading persisted).2
  | .forget session => { w with cache := Function.update w.cache session none }

end Calls

/-- The copy that a session keeps, if it keeps one, has the PINs of the store. -/
def World.Current (w : World) (session : ℕ) : Prop :=
  ∀ cached, w.cache session = some cached → cached.pins = w.stored

/-- The session whose copy a step may write to the store. -/
def World.writer (w : World) : Action → Option ℕ
  | .write call _ _ =>
    match w.calls call with
    | .writing draft => some draft.session
    | _ => none
  | .setEnabled session _ _ _ _ _ => some session
  | .saveOthers session _ _ _ => some session
  | _ => none

/-- No other session changed the PINs since the one that writes read its settings. -/
def WritesCurrent (w : World) (a : Action) : Prop :=
  ∀ session, w.writer a = some session → w.Current session

section Invariant

variable (argon : String → String)

/-- The change leads from one to the other PINs. -/
def Change.Makes (sp sp' : StartupPinSettings) : Change → Prop
  | .register mode plaintext =>
    duplicateMode mode (hashPin argon plaintext) sp = none ∧
      sp' = sp.register mode (hashPin argon plaintext)
  | .clear mode => sp' = sp.clear mode

/-- The last change of a mode that reached the store is a registration that returned `Ok`. -/
def Registered (m : PinMode) (plaintext : String) (log : List Event) : Prop :=
  History.FollowedBy (fun e => e = ⟨.register m plaintext, true⟩) (fun e => e.change.mode ≠ m) log

structure World.Sound (w : World) : Prop where
  distinct : w.stored.Distinct
  old : ∀ session cached, w.cache session = some cached → cached.revision < w.issued
  draftOld : ∀ call draft, w.calls call = .writing draft → draft.revision < w.issued
  draft : ∀ call draft, w.calls call = .writing draft → ∀ cached,
    w.cache draft.session = some cached → cached.revision = draft.revision →
      draft.change.Makes argon cached.pins draft.updated
  registered : ∀ m plaintext, Registered m plaintext w.log →
    w.stored.hashOf m = some (hashPin argon plaintext)

variable {argon} {w : World} {sp sp' : StartupPinSettings} {change : Change}

theorem Change.Makes.distinct (h : change.Makes argon sp sp') (hsp : sp.Distinct) :
    sp'.Distinct := by
  cases change with
  | register mode plaintext =>
    rw [h.2]
    exact Distinct.register hsp h.1
  | clear mode =>
    have hclear : sp' = sp.clear mode := h
    rw [hclear]
    exact Distinct.clear hsp

theorem Change.Makes.hashOf_of_ne (h : change.Makes argon sp sp') {m : PinMode}
    (hm : change.mode ≠ m) : sp'.hashOf m = sp.hashOf m := by
  cases change with
  | register mode plaintext =>
    rw [h.2]
    exact hashOf_register_of_ne (Ne.symm hm)
  | clear mode =>
    have hclear : sp' = sp.clear mode := h
    rw [hclear]
    exact hashOf_clear_of_ne (Ne.symm hm)

theorem Change.Makes.hashOf_register {m : PinMode} {plaintext : String}
    (h : (Change.register m plaintext).Makes argon sp sp') :
    sp'.hashOf m = some (hashPin argon plaintext) := by
  rw [h.2]
  exact hashOf_register_self

theorem Command.prepare_ok {command : Command} (h : command.prepare argon sp = .ok (change, sp')) :
    change.Makes argon sp sp' := by
  cases command with
  | register mode plaintext =>
    obtain ⟨⟨m, made⟩, hmade, heq⟩ := map_eq_ok.mp h
    obtain ⟨-, hnew, hregister⟩ := registered_ok hmade
    obtain ⟨rfl, rfl⟩ := Prod.mk.inj heq
    exact ⟨hnew, hregister⟩
  | clear mode =>
    obtain ⟨⟨m, made⟩, hmade, heq⟩ := map_eq_ok.mp h
    obtain ⟨-, hclear⟩ := cleared_ok hmade
    obtain ⟨rfl, rfl⟩ := Prod.mk.inj heq
    exact hclear

end Invariant

section Steps

variable {argon : String → String} {w : World} {pins : StartupPinSettings}

namespace World

theorem Sound.start (h : pins.Distinct) : (World.start pins).Sound argon where
  distinct := h
  old := fun _ _ hcached => by simp [World.start] at hcached
  draftOld := fun _ _ hdraft => by simp [World.start] at hdraft
  draft := fun _ _ hdraft => by simp [World.start] at hdraft
  registered := fun _ _ hlog => absurd hlog History.not_followedBy_nil

/-- A session may drop its copy, or take one of a revision that no draft has. -/
theorem Sound.keep (h : w.Sound argon) (session : ℕ) {copy : Option Snapshot} {n : ℕ}
    (hn : w.issued ≤ n)
    (hcopy : ∀ cached, copy = some cached → w.issued ≤ cached.revision ∧ cached.revision < n) :
    ({ w with cache := Function.update w.cache session copy, issued := n } : World).Sound
      argon where
  distinct := h.distinct
  registered := h.registered
  old := by
    intro s cached hcached
    by_cases hs : s = session
    · rw [hs] at hcached
      simp only [Function.update_self] at hcached
      exact (hcopy cached hcached).2
    · simp only [Function.update_of_ne hs] at hcached
      have hold := h.old s cached hcached
      exact hold.trans_le hn
  draftOld := fun call draft hdraft => (h.draftOld call draft hdraft).trans_le hn
  draft := by
    intro call draft hdraft cached hcached hrevision
    by_cases hs : draft.session = session
    · rw [hs] at hcached
      simp only [Function.update_self] at hcached
      have hnew := (hcopy cached hcached).1
      have hold := h.draftOld call draft hdraft
      omega
    · simp only [Function.update_of_ne hs] at hcached
      exact h.draft call draft hdraft cached hcached hrevision

theorem Sound.settle (h : w.Sound argon) (call : ℕ) {phase : Phase}
    (hphase : ∀ draft, phase = .writing draft → draft.revision < w.issued ∧ ∀ cached,
      w.cache draft.session = some cached → cached.revision = draft.revision →
        draft.change.Makes argon cached.pins draft.updated) :
    (w.settle call phase).Sound argon where
  distinct := h.distinct
  old := h.old
  registered := h.registered
  draftOld := by
    intro c draft hdraft
    by_cases hc : c = call
    · rw [hc] at hdraft
      simp only [World.settle, Function.update_self] at hdraft
      exact (hphase draft hdraft).1
    · simp only [World.settle, Function.update_of_ne hc] at hdraft
      exact h.draftOld c draft hdraft
  draft := by
    intro c draft hdraft
    by_cases hc : c = call
    · rw [hc] at hdraft
      simp only [World.settle, Function.update_self] at hdraft
      exact (hphase draft hdraft).2
    · simp only [World.settle, Function.update_of_ne hc] at hdraft
      exact h.draft c draft hdraft

theorem Sound.done (h : w.Sound argon) (call : ℕ) (result : Except String Unit) :
    (w.settle call (.done result)).Sound argon :=
  h.settle call fun _ hdraft => by cases hdraft

theorem Sound.readSettings (h : w.Sound argon) (session : ℕ) (loading : Except String Unit) :
    (w.readSettings session loading).2.Sound argon := by
  unfold World.readSettings
  split
  · exact h
  · split
    · exact h
    · apply h.keep session (Nat.le_succ _)
      intro cached hcached
      rw [← Option.some.inj hcached]
      exact ⟨Nat.le_refl _, Nat.lt_succ_self _⟩

theorem readSettings_ok {session : ℕ} {loading : Except String Unit} {snapshot : Snapshot}
    (h : (w.readSettings session loading).1 = .ok snapshot) :
    (w.readSettings session loading).2.cache session = some snapshot := by
  unfold World.readSettings at h ⊢
  split
  · next cached hcached =>
    simp only [hcached] at h
    rw [← Except.ok.inj h]
    exact hcached
  · next hcached =>
    simp only [hcached] at h
    split at h
    · exact absurd h (by simp)
    · rw [← Except.ok.inj h]
      exact Function.update_self _ _ _

/-- PINs in which no two modes have one hash may be stored, when they differ from those of the
store by the change that is logged. -/
theorem Sound.store {change : Option Change} (h : w.Sound argon) (ok : Bool) (hpins : pins.Distinct)
    (hkeep : ∀ m, (∀ c, change = some c → c.mode ≠ m) → pins.hashOf m = w.stored.hashOf m)
    (hnew : ∀ m plaintext, change = some (.register m plaintext) →
      pins.hashOf m = some (hashPin argon plaintext)) :
    ({ w with stored := pins, log := w.log ++ (change.map fun c => ⟨c, ok⟩).toList } : World).Sound
      argon where
  distinct := hpins
  old := h.old
  draftOld := h.draftOld
  draft := h.draft
  registered := by
    intro m plaintext hlog
    cases change with
    | none =>
      simp only [Option.map_none, Option.toList_none, List.append_nil] at hlog
      rw [hkeep m (by simp)]
      exact h.registered m plaintext hlog
    | some c =>
      rcases History.followedBy_concat.mp hlog with hself | ⟨hbefore, hother⟩
      · apply hnew
        rw [(Event.mk.inj hself).1]
      · rw [hkeep m fun c' hc' => Option.some.inj hc' ▸ hother]
        exact h.registered m plaintext hbefore

theorem Sound.commit {change : Option Change} (h : w.Sound argon) (session : ℕ)
    (persisted : Persisted) (hpins : pins.Distinct)
    (hkeep : ∀ m, (∀ c, change = some c → c.mode ≠ m) → pins.hashOf m = w.stored.hashOf m)
    (hnew : ∀ m plaintext, change = some (.register m plaintext) →
      pins.hashOf m = some (hashPin argon plaintext)) :
    (w.commit session change pins persisted).2.Sound argon := by
  unfold World.commit
  split
  · apply (h.store true hpins hkeep hnew).keep session (Nat.le_succ _)
    intro cached hcached
    rw [← Option.some.inj hcached]
    exact ⟨Nat.le_refl _, Nat.lt_succ_self _⟩
  · exact (h.store false hpins hkeep hnew).keep session (Nat.le_refl _) (by simp)
  · exact h.keep session (Nat.le_refl _) (by simp)

theorem Sound.writeSettings {call : ℕ} {draft : Draft} (h : w.Sound argon)
    (hdraft : w.calls call = .writing draft) (hcurrent : w.Current draft.session) (decoy : Bool)
    (persisted : Persisted) : (w.writeSettings draft decoy persisted).2.Sound argon := by
  unfold World.writeSettings
  split
  · exact h
  · split
    · exact h
    · next current hcache =>
      split
      · exact h
      · next hrevision =>
        have hmakes := h.draft call draft hdraft current hcache (not_not.mp hrevision).symm
        rw [hcurrent current hcache] at hmakes
        apply h.commit draft.session persisted (hmakes.distinct h.distinct)
        · intro m hm
          exact hmakes.hashOf_of_ne (hm _ rfl)
        · intro m plaintext hchange
          rw [Option.some.inj hchange] at hmakes
          exact hmakes.hashOf_register

/-- What a session has at hand for a transaction. -/
theorem Current.at_hand {session : ℕ} (h : w.Current session) :
    ((w.cache session).map Snapshot.pins).getD w.stored = w.stored := by
  cases hcache : w.cache session with
  | none => rfl
  | some cached => exact h cached hcache

theorem Sound.mutateSettings {session : ℕ}
    {prepare : StartupPinSettings → Except String StartupPinSettings} (h : w.Sound argon)
    (hcurrent : w.Current session)
    (hprepare : ∀ sp sp', prepare sp = .ok sp' → ∀ m, sp'.hashOf m = sp.hashOf m) (decoy : Bool)
    (loading : Except String Unit) (persisted : Persisted) :
    (w.mutateSettings session prepare decoy loading persisted).2.Sound argon := by
  unfold World.mutateSettings
  split
  · exact h
  · split
    · exact h
    · rw [hcurrent.at_hand]
      split
      · exact h
      · next updated hupdated =>
        have hsame := hprepare _ _ hupdated
        apply h.commit session persisted
        · apply Distinct.of_hashOf h.distinct
          intro m hash hhash
          rwa [← hsame m]
        · exact fun m _ => hsame m
        · simp

end World

theorem World.Sound.read (h : w.Sound argon) (call session : ℕ) (command : Command)
    (paid loading : Except String Unit) :
    (w.read argon call session command paid loading).Sound argon := by
  unfold World.read
  split
  · exact h.done call _
  · have hread := h.readSettings session loading
    split
    · next hresult =>
      rw [hresult] at hread
      exact hread.done call _
    · next snapshot w' hresult =>
      have hcache := World.readSettings_ok (congrArg Prod.fst hresult)
      rw [hresult] at hread hcache
      split
      · exact hread.done call _
      · next change updated hprepare =>
        apply hread.settle call
        intro draft hdraft
        rw [← Phase.writing.inj hdraft]
        refine ⟨hread.old session snapshot hcache, ?_⟩
        intro cached hcached _
        have hsame := hcache.symm.trans hcached
        rw [← Option.some.inj hsame]
        exact Command.prepare_ok hprepare

/-- Every step keeps the PINs apart, when the session that writes has those of the store. -/
theorem World.Sound.step {a : Action} (h : w.Sound argon) (hwrites : WritesCurrent w a) :
    (StartupAuth.step argon w a).Sound argon := by
  cases a with
  | read call session command paid loading =>
    simp only [StartupAuth.step]
    split
    · exact h.read call session command paid loading
    · exact h
  | write call decoy persisted =>
    simp only [StartupAuth.step]
    split
    · next draft hdraft =>
      have hcurrent : w.Current draft.session := hwrites _ (by simp [World.writer, hdraft])
      exact (h.writeSettings hdraft hcurrent decoy persisted).done call _
    · exact h
  | setEnabled session enabled paid decoy loading persisted =>
    simp only [StartupAuth.step, setStartupPinEnabled]
    split
    · exact h
    · apply h.mutateSettings (hwrites session rfl)
      intro sp sp' hprepare m
      rw [(prepareCalculatorLock_ok hprepare).2]
      cases m <;> rfl
  | isConfigured session loading => exact h.readSettings session loading
  | saveOthers session decoy loading persisted =>
    apply h.mutateSettings (hwrites session rfl)
    intro sp sp' hprepare m
    rw [Except.ok.inj hprepare]
  | forget session => exact h.keep session (Nat.le_refl _) (by simp)

theorem World.Sound.run {acts : List Action} (h : w.Sound argon)
    (hwrites : Throughout (StartupAuth.step argon) WritesCurrent w acts) :
    (Machine.run (StartupAuth.step argon) w acts).Sound argon :=
  run_invariant (fun _ _ hs hp => World.Sound.step hs hp) h hwrites

/-- A session with the PINs of the store engages the gate for a real PIN that is enabled. -/
theorem startupPinIsConfigured_current {session : ℕ} {loading : Except String Unit}
    (hcurrent : w.Current session) (h : (startupPinIsConfigured w session loading).1 = .ok true) :
    w.stored.realHash ≠ none ∧ w.stored.enabled ≠ some false := by
  unfold startupPinIsConfigured at h
  rw [mapError_ok, map_eq_ok] at h
  obtain ⟨snapshot, hread, hgate⟩ := h
  have hpins : snapshot.pins = w.stored := by
    unfold World.readSettings at hread
    split at hread
    · next cached hcached =>
      rw [← Except.ok.inj hread]
      exact hcurrent cached hcached
    · split at hread
      · exact absurd hread (by simp)
      · rw [← Except.ok.inj hread]
  rw [hpins, gateEnabled, Bool.and_eq_true] at hgate
  constructor
  · intro hnone
    simp [hnone] at hgate
  · intro hoff
    simp [hoff] at hgate

end Steps

section OneSession

variable {argon : String → String} {w : World} {session : ℕ}

/-- What a step of one session is. -/
def Action.Of (session : ℕ) : Action → Prop
  | .read _ s _ _ _ => s = session
  | .write _ _ _ => True
  | .setEnabled s _ _ _ _ _ => s = session
  | .isConfigured s _ => s = session
  | .saveOthers s _ _ _ => s = session
  | .forget s => s = session

/-- The copy of the session is current, and every draft is its own. -/
structure World.Alone (session : ℕ) (w : World) : Prop where
  current : w.Current session
  own : ∀ call draft, w.calls call = .writing draft → draft.session = session

theorem World.current_commit {change : Option Change} {pins : StartupPinSettings}
    (persisted : Persisted) :
    (w.commit session change pins persisted).2.Current session := by
  intro cached hcached
  unfold World.commit at hcached ⊢
  split at hcached <;> simp only [Function.update_self] at hcached
  · rw [← Option.some.inj hcached]
  · exact absurd hcached (by simp)
  · exact absurd hcached (by simp)

theorem World.commit_calls {change : Option Change} {pins : StartupPinSettings}
    (persisted : Persisted) : (w.commit session change pins persisted).2.calls = w.calls := by
  unfold World.commit
  split <;> rfl

theorem World.Alone.commit {change : Option Change} {pins : StartupPinSettings}
    (h : w.Alone session) (persisted : Persisted) :
    (w.commit session change pins persisted).2.Alone session where
  current := World.current_commit persisted
  own := by
    rw [World.commit_calls]
    exact h.own

theorem World.Alone.readSettings (h : w.Alone session) (loading : Except String Unit) :
    (w.readSettings session loading).2.Alone session := by
  unfold World.readSettings
  split
  · exact h
  · split
    · exact h
    · refine ⟨?_, h.own⟩
      intro cached hcached
      simp only [Function.update_self] at hcached
      rw [← Option.some.inj hcached]

theorem World.Alone.settle (h : w.Alone session) (call : ℕ) {phase : Phase}
    (hphase : ∀ draft, phase = .writing draft → draft.session = session) :
    (w.settle call phase).Alone session where
  current := h.current
  own := by
    intro c draft hdraft
    by_cases hc : c = call
    · rw [hc] at hdraft
      simp only [World.settle, Function.update_self] at hdraft
      exact hphase draft hdraft
    · simp only [World.settle, Function.update_of_ne hc] at hdraft
      exact h.own c draft hdraft

theorem World.Alone.mutateSettings (h : w.Alone session)
    (prepare : StartupPinSettings → Except String StartupPinSettings) (decoy : Bool)
    (loading : Except String Unit) (persisted : Persisted) :
    (w.mutateSettings session prepare decoy loading persisted).2.Alone session := by
  unfold World.mutateSettings
  split
  · exact h
  · split
    · exact h
    · split
      · exact h
      · exact h.commit persisted

theorem World.Alone.read (h : w.Alone session) (call : ℕ) (command : Command)
    (paid loading : Except String Unit) :
    (w.read argon call session command paid loading).Alone session := by
  unfold World.read
  split
  · exact h.settle call (by simp)
  · have hread := h.readSettings loading
    split
    · next hresult =>
      rw [hresult] at hread
      exact hread.settle call (by simp)
    · next hresult =>
      rw [hresult] at hread
      split
      · exact hread.settle call (by simp)
      · apply hread.settle call
        intro draft hdraft
        rw [← Phase.writing.inj hdraft]

theorem World.Alone.writeSettings {draft : Draft} (h : w.Alone session)
    (hdraft : draft.session = session) (decoy : Bool) (persisted : Persisted) :
    (w.writeSettings draft decoy persisted).2.Alone session := by
  unfold World.writeSettings
  split
  · exact h
  · split
    · exact h
    · split
      · exact h
      · rw [hdraft]
        exact h.commit persisted

theorem World.Alone.step {a : Action} (h : w.Alone session) (ha : a.Of session) :
    (StartupAuth.step argon w a).Alone session := by
  cases a with
  | read call s command paid loading =>
    have hs : s = session := ha
    rw [hs]
    simp only [StartupAuth.step]
    split
    · exact h.read call command paid loading
    · exact h
  | write call decoy persisted =>
    simp only [StartupAuth.step]
    split
    · next draft hdraft =>
      exact (h.writeSettings (h.own call draft hdraft) decoy persisted).settle call (by simp)
    · exact h
  | setEnabled s enabled paid decoy loading persisted =>
    have hs : s = session := ha
    rw [hs]
    simp only [StartupAuth.step, setStartupPinEnabled]
    split
    · exact h
    · exact h.mutateSettings _ decoy loading persisted
  | isConfigured s loading =>
    have hs : s = session := ha
    rw [hs]
    exact h.readSettings loading
  | saveOthers s decoy loading persisted =>
    have hs : s = session := ha
    rw [hs]
    exact h.mutateSettings _ decoy loading persisted
  | forget s =>
    have hs : s = session := ha
    rw [hs]
    refine ⟨?_, h.own⟩
    intro cached hcached
    simp [StartupAuth.step] at hcached

theorem World.Alone.writesCurrent {a : Action} (h : w.Alone session) (ha : a.Of session) :
    WritesCurrent w a := by
  intro s hs
  have heq : s = session := by
    cases a with
    | write call decoy persisted =>
      simp only [World.writer] at hs
      split at hs
      · next draft hdraft => exact (Option.some.inj hs).symm.trans (h.own call draft hdraft)
      · exact absurd hs (by simp)
    | setEnabled => exact (Option.some.inj hs).symm.trans ha
    | saveOthers => exact (Option.some.inj hs).symm.trans ha
    | _ => exact absurd hs (by simp [World.writer])
  rw [heq]
  exact h.current

/-- While one session runs alone, whatever its calls are and however they interleave, it writes
what it has from the store. -/
theorem writesCurrent_of_one_session (stored : StartupPinSettings) {acts : List Action}
    (hacts : ∀ a ∈ acts, a.Of session) :
    Throughout (step argon) WritesCurrent (World.start stored) acts := by
  have hstart : (World.start stored).Alone session := by
    constructor
    · intro cached hcached
      simp [World.start] at hcached
    · intro call draft hdraft
      simp [World.start] at hdraft
  generalize World.start stored = w at hstart
  induction acts generalizing w with
  | nil => trivial
  | cons a acts ih =>
    rw [List.forall_mem_cons] at hacts
    exact ⟨hstart.writesCurrent hacts.1, ih hacts.2 _ (hstart.step hacts.1)⟩

end OneSession

end StartupAuth
