import Mathlib.Data.Nat.Notation
import Mathlib.Logic.Function.Basic
import WinCommander.Library.Run

/-!
# Delayed USB triggers

A trigger with a delay arms a fire at each event of its own direction.  The opposite event of the
device is to cancel the fire if it arrives before the delay runs out.
-/

namespace Flows

structure UsbTrigger where
  flowId : String
  mode : String
  delaySeconds : UInt64

section Lines

/-- The first `n - 1` fields of a text, and the rest of it. -/
def splitn (separator : Char) : ℕ → List Char → List (List Char)
  | 0, _ => []
  | 1, text => [text]
  | n + 2, text =>
    match text.dropWhile (· ≠ separator) with
    | [] => [text]
    | _ :: rest => text.takeWhile (· ≠ separator) :: splitn separator (n + 1) rest

def field (parts : List (List Char)) (i : ℕ) : String := String.ofList (parts.getD i [])

/-- The kind of the event, the device and its name. -/
def parseUsbTriggerLine (line : String) (delaySeconds : UInt64) (mode : String) :
    Option (String × String × String) :=
  if !"FLOW_TRIGGER|".toList.isPrefixOf line.toList then none
  else if delaySeconds > 0 then
    let parts := splitn '|' 4 line.toList
    some (field parts 1, field parts 2, field parts 3)
  else
    let parts := splitn '|' 3 line.toList
    some (mode, field parts 1, field parts 2)

def usbDeviceKey (deviceId deviceName : String) : String :=
  if deviceId = "" then deviceName else deviceId

/-- A device is known by its instance, or else by its name. -/
inductive UsbDevice where
  | identified (deviceId : String)
  | named (deviceName : String)
  deriving DecidableEq

def usbDevice (deviceId deviceName : String) : UsbDevice :=
  if deviceId = "" then .named deviceName else .identified deviceId

end Lines

section Listener

structure TriggerEvent where
  flowId : String
  triggerType : String
  detail : Option String
  deriving DecidableEq

/-- An event on the queue, with the arming it comes from. -/
structure Queued where
  arming : Option ℕ
  event : TriggerEvent
  deriving DecidableEq

/-- A future that waits for its delay and for its notification. -/
structure PendingFire where
  deviceId : String
  deviceName : String
  notified : Bool
  deriving DecidableEq

/-- The armings are numbered; each makes a notification and a future. -/
structure Listener where
  pendingNotify : String → Option ℕ
  pendingFires : ℕ → Option PendingFire
  armed : ℕ
  stdoutOpen : Bool
  queue : List Queued

def Listener.new : Listener where
  pendingNotify := fun _ => none
  pendingFires := fun _ => none
  armed := 0
  stdoutOpen := true
  queue := []

/-- The loop is left once the watcher has closed its output and no fire is pending. -/
def Listener.Ended (l : Listener) : Prop :=
  l.stdoutOpen = false ∧ ∀ k < l.armed, l.pendingFires k = none

def queueTriggerEvent (c : UsbTrigger) (arming : Option ℕ) (detail : String) (l : Listener) :
    Listener :=
  { l with queue := l.queue ++ [⟨arming, c.flowId, "USBTrigger", some detail⟩] }

def usbDetail (c : UsbTrigger) (deviceId deviceName : String) : String :=
  s!"mode='{c.mode}' deviceId='{deviceId}' deviceName='{deviceName}' delay={c.delaySeconds.toNat}s"

/-- A new notification takes the place of an older one of the device. -/
def Listener.arm (deviceId deviceName : String) (l : Listener) : Listener :=
  { l with
    pendingNotify := Function.update l.pendingNotify (usbDeviceKey deviceId deviceName)
      (some l.armed)
    pendingFires := Function.update l.pendingFires l.armed (some ⟨deviceId, deviceName, false⟩)
    armed := l.armed + 1 }

def Listener.notifyOne (k : ℕ) (l : Listener) : Listener :=
  { l with
    pendingFires := Function.update l.pendingFires k
      ((l.pendingFires k).map fun fire => { fire with notified := true }) }

def Listener.cancel (deviceKey : String) (l : Listener) : Listener :=
  match l.pendingNotify deviceKey with
  | some k => { l with pendingNotify := Function.update l.pendingNotify deviceKey none }.notifyOne k
  | none => l

def Listener.line (c : UsbTrigger) (text : String) (l : Listener) : Listener :=
  match parseUsbTriggerLine text c.delaySeconds c.mode with
  | none => l
  | some (kind, deviceId, deviceName) =>
      if c.delaySeconds = 0 then
        queueTriggerEvent c none (usbDetail c deviceId deviceName) l
      else if kind = c.mode then l.arm deviceId deviceName
      else l.cancel (usbDeviceKey deviceId deviceName)

/-- A future that is ready is taken out.  If both its delay has run out and its notification has
come it is the runtime that chooses between them. -/
def Listener.poll (c : UsbTrigger) (elapsed : Bool) (k : ℕ) (timer : Bool) (l : Listener) :
    Listener :=
  match l.pendingFires k with
  | none => l
  | some fire =>
      let resolved := { l with pendingFires := Function.update l.pendingFires k none }
      if elapsed && (!fire.notified || timer) then
        queueTriggerEvent c (some k) (usbDetail c fire.deviceId fire.deviceName) resolved
      else if fire.notified then resolved
      else l

end Listener

section Runs

/-- What happened to the armings, whatever the listener makes of it: the device, whether the delay
has run out, and whether an opposite event of the device arrived before that. -/
structure History where
  device : ℕ → Option UsbDevice
  elapsed : ℕ → Bool
  opposed : ℕ → Bool

inductive Event where
  | line (text : String)
  | elapse (k : ℕ)
  | poll (k : ℕ) (timer : Bool)
  | close

structure World where
  listener : Listener
  history : History

def World.start : World where
  listener := .new
  history := ⟨fun _ => none, fun _ => false, fun _ => false⟩

/-- A line is an arming or, if it is of another kind, opposes the armings of its device whose delay
has not run out. -/
def History.line (c : UsbTrigger) (text : String) (armed : ℕ) (h : History) : History :=
  match parseUsbTriggerLine text c.delaySeconds c.mode with
  | none => h
  | some (kind, deviceId, deviceName) =>
      if c.delaySeconds = 0 then h
      else if kind = c.mode then
        { h with device := Function.update h.device armed (some (usbDevice deviceId deviceName)) }
      else
        { h with
          opposed := fun k => h.opposed k ||
            (decide (h.device k = some (usbDevice deviceId deviceName)) && !h.elapsed k) }

@[grind =] def step (c : UsbTrigger) (w : World) : Event → World
  | .line text =>
      if w.listener.stdoutOpen then
        ⟨w.listener.line c text, w.history.line c text w.listener.armed⟩
      else w
  | .elapse k =>
      if k < w.listener.armed then
        { w with history.elapsed := Function.update w.history.elapsed k true }
      else w
  | .poll k timer => { w with listener := w.listener.poll c (w.history.elapsed k) k timer }
  | .close => { w with listener.stdoutOpen := false }

/-- How often the fire of an arming was queued. -/
def Listener.fired (l : Listener) (k : ℕ) : ℕ := l.queue.countP fun q => q.arming = some k

/-- A fire is queued once its delay has run out if no opposite event of its device came before, and
else never; before it is queued it is pending, and the loop goes on. -/
structure Delivers (w : World) : Prop where
  once : ∀ k < w.listener.armed, w.history.opposed k = false → w.listener.pendingFires k = none →
    w.listener.fired k = 1
  never : ∀ k, w.history.opposed k = true → w.listener.fired k = 0
  pending : ∀ k, w.listener.pendingFires k ≠ none → w.listener.fired k = 0 ∧
    ¬ w.listener.Ended
  ready : ∀ k, w.listener.fired k ≠ 0 → w.history.elapsed k = true

/-- An opposite event finds the fires of its device, and no other, in the slot of the device; a fire
that was notified after its delay or has outstayed it is resolved by what came first. -/
def Undisturbed (c : UsbTrigger) (w : World) : Event → Prop
  | .line text => w.listener.stdoutOpen = true → ∀ kind deviceId deviceName,
      parseUsbTriggerLine text c.delaySeconds c.mode = some (kind, deviceId, deviceName) →
      kind ≠ c.mode → ∀ k fire, w.listener.pendingFires k = some fire →
      w.history.elapsed k = false →
      (usbDevice fire.deviceId fire.deviceName = usbDevice deviceId deviceName ↔
        w.listener.pendingNotify (usbDeviceKey deviceId deviceName) = some k)
  | .poll k timer => ∀ fire, w.listener.pendingFires k = some fire → fire.notified = true →
      w.history.elapsed k = true → timer = !w.history.opposed k
  | _ => True

/-- The states of one arming. -/
inductive Standing (armed k : ℕ) :
    Option PendingFire → Option UsbDevice → Bool → Bool → ℕ → Prop
  | unarmed (h : armed ≤ k) : Standing armed k none none false false 0
  | waiting (h : k < armed) (fire : PendingFire) (elapsed opposed : Bool)
      (hnotified : opposed = true → fire.notified = true)
      (hreason : fire.notified = true → opposed = true ∨ elapsed = true) :
      Standing armed k (some fire) (some (usbDevice fire.deviceId fire.deviceName)) elapsed
        opposed 0
  | queued (h : k < armed) (device : Option UsbDevice) : Standing armed k none device true false 1
  | canceled (h : k < armed) (device : Option UsbDevice) (elapsed : Bool) :
      Standing armed k none device elapsed true 0

def World.Stands (w : World) (k : ℕ) : Prop :=
  Standing w.listener.armed k (w.listener.pendingFires k) (w.history.device k)
    (w.history.elapsed k) (w.history.opposed k) (w.listener.fired k)

theorem start_stands (k : ℕ) : World.start.Stands k := Standing.unarmed (Nat.zero_le k)

variable {c : UsbTrigger} {w : World} {k : ℕ}

theorem Standing.mono {armed armed' : ℕ} {fire : Option PendingFire} {device : Option UsbDevice}
    {elapsed opposed : Bool} {fired : ℕ} (h : Standing armed k fire device elapsed opposed fired)
    (hle : armed ≤ armed') (hk : armed' ≤ k ∨ k < armed) :
    Standing armed' k fire device elapsed opposed fired := by
  cases h with
  | unarmed hk' => exact .unarmed (by omega)
  | waiting hk' fire elapsed opposed hnotified hreason =>
    exact .waiting (by omega) fire elapsed opposed hnotified hreason
  | queued hk' device => exact .queued (by omega) device
  | canceled hk' device elapsed => exact .canceled (by omega) device elapsed

theorem fired_queue (arming : Option ℕ) (detail : String) (l : Listener) (k : ℕ) :
    (queueTriggerEvent c arming detail l).fired k =
      l.fired k + if arming = some k then 1 else 0 := by
  by_cases h : arming = some k
  · simp [queueTriggerEvent, Listener.fired, List.countP_append, h]
  · simp [queueTriggerEvent, Listener.fired, List.countP_append, h]

theorem arm_stands (deviceId deviceName : String) (h : w.Stands k) :
    World.Stands ⟨w.listener.arm deviceId deviceName, { w.history with
      device := Function.update w.history.device w.listener.armed
        (some (usbDevice deviceId deviceName)) }⟩ k := by
  unfold World.Stands at h ⊢
  by_cases hk : k = w.listener.armed
  · have helapsed : w.history.elapsed k = false ∧ w.history.opposed k = false ∧
        w.listener.fired k = 0 := by
      generalize w.listener.pendingFires k = fire, w.history.device k = device,
        w.history.elapsed k = elapsed, w.history.opposed k = opposed, w.listener.fired k = fired at h
      cases h with
      | unarmed _ => exact ⟨rfl, rfl, rfl⟩
      | waiting h' | queued h' | canceled h' => omega
    have hfired : (w.listener.arm deviceId deviceName).fired k = 0 := helapsed.2.2
    rw [hfired, helapsed.1, helapsed.2.1]
    simp only [Listener.arm, hk, Function.update_self]
    exact .waiting (Nat.lt_succ_self _) ⟨deviceId, deviceName, false⟩ false false (by simp) (by simp)
  · simp only [Listener.arm, Function.update_of_ne hk]
    exact h.mono (Nat.le_succ _) (by omega)

/-- An opposite event of a device, which hits the slot of the arming or does not. -/
theorem Standing.oppose {armed : ℕ} {fire : Option PendingFire} {own : Option UsbDevice}
    {elapsed opposed : Bool} {fired : ℕ} (h : Standing armed k fire own elapsed opposed fired)
    (hit : Bool) (device : UsbDevice)
    (hslot : ∀ f, fire = some f → elapsed = false →
      (usbDevice f.deviceId f.deviceName = device ↔ hit = true)) :
    Standing armed k (fire.map fun f => { f with notified := f.notified || hit }) own elapsed
      (opposed || (decide (own = some device) && !elapsed)) fired := by
  cases h with
  | unarmed h' => exact .unarmed h'
  | queued h' =>
    have hstay : (false || (decide (own = some device) && !true)) = false := by simp
    rw [hstay]
    exact .queued h' own
  | canceled h' =>
    rw [Bool.true_or]
    exact .canceled h' own elapsed
  | waiting h' f elapsed opposed hnotified hreason =>
    apply Standing.waiting h' { f with notified := f.notified || hit }
    · intro hopposed
      simp only [Bool.or_eq_true, Bool.and_eq_true, decide_eq_true_eq, Option.some.injEq,
        Bool.not_eq_true'] at hopposed ⊢
      rcases hopposed with hbefore | ⟨hown, hrunning⟩
      · exact Or.inl (hnotified hbefore)
      · exact Or.inr ((hslot f rfl hrunning).mp hown)
    · intro hnow
      simp only [Bool.or_eq_true, Bool.and_eq_true, decide_eq_true_eq, Option.some.injEq,
        Bool.not_eq_true'] at hnow ⊢
      cases helapsed : elapsed with
      | true => exact Or.inr rfl
      | false =>
        rcases hnow with hbefore | hhit
        · have hcame := hreason hbefore
          rw [helapsed] at hcame
          exact Or.inl (Or.inl (by simpa using hcame))
        · exact Or.inl (Or.inr ⟨(hslot f rfl helapsed).mpr hhit, rfl⟩)

/-- Neither the device of an arming nor what is known of it is lost to an opposite line. -/
theorem cancel_pendingFires (deviceKey : String) (l : Listener) (k : ℕ) :
    (l.cancel deviceKey).pendingFires k =
      (l.pendingFires k).map fun fire =>
        { fire with notified := fire.notified || decide (l.pendingNotify deviceKey = some k) } := by
  unfold Listener.cancel
  cases hslot : l.pendingNotify deviceKey with
  | none => cases l.pendingFires k <;> simp
  | some j =>
    by_cases hk : k = j
    · cases hfire : l.pendingFires j <;> simp [Listener.notifyOne, hk, hfire]
    · have hne : j ≠ k := fun h => hk h.symm
      cases hfire : l.pendingFires k <;> simp [Listener.notifyOne, hk, hne, hfire]

@[simp] theorem cancel_armed (deviceKey : String) (l : Listener) :
    (l.cancel deviceKey).armed = l.armed := by
  unfold Listener.cancel
  split <;> rfl

@[simp] theorem cancel_fired (deviceKey : String) (l : Listener) (k : ℕ) :
    (l.cancel deviceKey).fired k = l.fired k := by
  unfold Listener.cancel
  split <;> rfl

theorem cancel_stands {deviceId deviceName : String} (h : w.Stands k)
    (hslot : ∀ fire, w.listener.pendingFires k = some fire → w.history.elapsed k = false →
      (usbDevice fire.deviceId fire.deviceName = usbDevice deviceId deviceName ↔
        w.listener.pendingNotify (usbDeviceKey deviceId deviceName) = some k)) :
    World.Stands ⟨w.listener.cancel (usbDeviceKey deviceId deviceName), { w.history with
      opposed := fun k => w.history.opposed k ||
        (decide (w.history.device k = some (usbDevice deviceId deviceName)) &&
          !w.history.elapsed k) }⟩ k := by
  unfold World.Stands
  rw [cancel_pendingFires, cancel_armed, cancel_fired]
  apply Standing.oppose h
  intro fire hfire helapsed
  rw [decide_eq_true_iff]
  exact hslot fire hfire helapsed

theorem Standing.elapse {armed : ℕ} {fire : Option PendingFire} {device : Option UsbDevice}
    {elapsed opposed : Bool} {fired : ℕ} (h : Standing armed k fire device elapsed opposed fired)
    (hk : k < armed) : Standing armed k fire device true opposed fired := by
  cases h with
  | unarmed h' => omega
  | waiting h' fire elapsed opposed hnotified hreason =>
    exact .waiting h' fire true opposed hnotified fun _ => Or.inr rfl
  | queued h' device => exact .queued h' device
  | canceled h' device elapsed => exact .canceled h' device true

theorem elapse_stands {j : ℕ} (h : w.Stands k) (hj : j < w.listener.armed) :
    World.Stands { w with history.elapsed := Function.update w.history.elapsed j true } k := by
  unfold World.Stands at h ⊢
  by_cases hk : k = j
  · rw [← hk] at hj ⊢
    simp only [Function.update_self]
    exact h.elapse hj
  · simp only [Function.update_of_ne hk]
    exact h

theorem poll_of_ne {j : ℕ} (hk : k ≠ j) (elapsed timer : Bool) (l : Listener) :
    (l.poll c elapsed j timer).pendingFires k = l.pendingFires k ∧
      (l.poll c elapsed j timer).fired k = l.fired k := by
  have hne : ¬ some j = some k := fun h => hk (Option.some.inj h).symm
  unfold Listener.poll
  split
  · exact ⟨rfl, rfl⟩
  · split
    · rw [fired_queue, if_neg hne]
      exact ⟨Function.update_of_ne hk _ _, rfl⟩
    · split
      · exact ⟨Function.update_of_ne hk _ _, rfl⟩
      · exact ⟨rfl, rfl⟩

@[simp] theorem poll_armed (elapsed timer : Bool) (j : ℕ) (l : Listener) :
    (l.poll c elapsed j timer).armed = l.armed := by
  unfold Listener.poll
  split
  · rfl
  · split
    · rfl
    · split <;> rfl

/-- What a poll makes of the fire that it takes. -/
theorem poll_self {fire : PendingFire} {l : Listener} (hfire : l.pendingFires k = some fire)
    (elapsed timer : Bool) :
    ((l.poll c elapsed k timer).pendingFires k, (l.poll c elapsed k timer).fired k) =
      if elapsed && (!fire.notified || timer) then (none, l.fired k + 1)
      else if fire.notified then (none, l.fired k)
      else (some fire, l.fired k) := by
  unfold Listener.poll
  rw [hfire]
  dsimp only
  split
  · rw [fired_queue, if_pos rfl]
    simp [queueTriggerEvent, Listener.fired]
  · split
    · simp [Listener.fired]
    · rw [hfire]

theorem Standing.poll {armed : ℕ} {fire : PendingFire} {device : Option UsbDevice}
    {elapsed opposed : Bool} {fired : ℕ}
    (h : Standing armed k (some fire) device elapsed opposed fired) (timer : Bool)
    (htimer : fire.notified = true → elapsed = true → timer = !opposed) :
    let resolved := if elapsed && (!fire.notified || timer) then (none, fired + 1)
      else if fire.notified then (none, fired) else (some fire, fired)
    Standing armed k resolved.1 device elapsed opposed resolved.2 := by
  cases h with
  | waiting h' fire elapsed opposed hnotified hreason =>
    cases hfire : fire.notified with
    | false =>
      cases opposed with
      | true =>
        have hmust := hnotified rfl
        rw [hfire] at hmust
        cases hmust
      | false =>
        cases elapsed with
        | false =>
          simp only [Bool.false_and, Bool.false_eq_true, if_false]
          exact .waiting h' fire false false hnotified hreason
        | true =>
          simp only [Bool.not_false, Bool.true_or, Bool.and_self, if_true]
          exact .queued h' _
    | true =>
      have hcame := hreason hfire
      cases elapsed with
      | false =>
        have hopposed : opposed = true := by simpa using hcame
        simp only [Bool.false_and, Bool.false_eq_true, if_false, if_true]
        rw [hopposed]
        exact .canceled h' _ false
      | true =>
        rw [htimer hfire rfl]
        cases opposed with
        | true =>
          simp only [Bool.not_true, Bool.or_self, Bool.and_false, Bool.false_eq_true, if_false,
            if_true]
          exact .canceled h' _ true
        | false =>
          simp only [Bool.not_false, Bool.or_true, Bool.and_self, if_true]
          exact .queued h' _

theorem poll_stands {j : ℕ} {timer : Bool} (h : w.Stands k)
    (htimer : ∀ fire, w.listener.pendingFires j = some fire → fire.notified = true →
      w.history.elapsed j = true → timer = !w.history.opposed j) :
    World.Stands { w with listener := w.listener.poll c (w.history.elapsed j) j timer } k := by
  unfold World.Stands at h ⊢
  by_cases hk : k = j
  · rw [← hk] at htimer ⊢
    cases hfire : w.listener.pendingFires k with
    | none =>
      have hnothing : w.listener.poll c (w.history.elapsed k) k timer = w.listener := by
        simp [Listener.poll, hfire]
      simp only [hnothing]
      exact h
    | some fire =>
      rw [hfire] at h
      have hpoll := poll_self (c := c) hfire (w.history.elapsed k) timer
      have hstands := h.poll timer (htimer fire hfire)
      rw [← hpoll] at hstands
      simp only [poll_armed]
      exact hstands
  · obtain ⟨hsame, hcount⟩ := poll_of_ne (c := c) hk (w.history.elapsed j) timer w.listener
    simp only [poll_armed, hsame, hcount]
    exact h

theorem line_stands {text : String} (h : w.Stands k) (hopen : w.listener.stdoutOpen = true)
    (hcond : Undisturbed c w (.line text)) :
    World.Stands ⟨w.listener.line c text, w.history.line c text w.listener.armed⟩ k := by
  unfold Listener.line History.line
  cases hparse : parseUsbTriggerLine text c.delaySeconds c.mode with
  | none => exact h
  | some parts =>
    obtain ⟨kind, deviceId, deviceName⟩ := parts
    dsimp only
    by_cases hdelay : c.delaySeconds = 0
    · simp only [if_pos hdelay]
      unfold World.Stands
      rw [fired_queue, if_neg (by simp)]
      exact h
    · by_cases hkind : kind = c.mode
      · simp only [if_neg hdelay, if_pos hkind]
        exact arm_stands deviceId deviceName h
      · simp only [if_neg hdelay, if_neg hkind]
        exact cancel_stands h (hcond hopen kind deviceId deviceName hparse hkind k)

/-- No event takes an arming out of its states. -/
theorem step_stands (e : Event) (h : ∀ k, w.Stands k) (hcond : Undisturbed c w e) (k : ℕ) :
    (step c w e).Stands k := by
  cases e with
  | line text =>
    by_cases hopen : w.listener.stdoutOpen = true
    · simp only [step, if_pos hopen]
      exact line_stands (h k) hopen hcond
    · simp only [step, if_neg hopen]
      exact h k
  | elapse j =>
    by_cases hj : j < w.listener.armed
    · simp only [step, if_pos hj]
      exact elapse_stands (h k) hj
    · simp only [step, if_neg hj]
      exact h k
  | poll j timer => exact poll_stands (h k) hcond
  | close => exact h k

theorem run_stands {events : List Event}
    (hcond : Machine.Throughout (step c) (Undisturbed c) .start events) (k : ℕ) :
    (Machine.run (step c) .start events).Stands k := by
  have hrun := Machine.run_invariant (I := fun w : World => ∀ k, w.Stands k)
    (fun w e h hc => step_stands e h hc) start_stands hcond
  exact hrun k

theorem Standing.once {armed : ℕ} {device : Option UsbDevice} {elapsed : Bool} {fired : ℕ}
    (h : Standing armed k none device elapsed false fired) (hk : k < armed) : fired = 1 := by
  cases h with
  | unarmed h' => omega
  | queued h' => rfl

theorem Standing.never {armed : ℕ} {fire : Option PendingFire} {device : Option UsbDevice}
    {elapsed : Bool} {fired : ℕ} (h : Standing armed k fire device elapsed true fired) :
    fired = 0 := by
  cases h with
  | waiting | canceled => rfl

theorem Standing.pending {armed : ℕ} {fire : PendingFire} {device : Option UsbDevice}
    {elapsed opposed : Bool} {fired : ℕ}
    (h : Standing armed k (some fire) device elapsed opposed fired) : fired = 0 ∧ k < armed := by
  cases h with
  | waiting h' => exact ⟨rfl, h'⟩

theorem Standing.ready {armed : ℕ} {fire : Option PendingFire} {device : Option UsbDevice}
    {elapsed opposed : Bool} {fired : ℕ} (h : Standing armed k fire device elapsed opposed fired)
    (hfired : fired ≠ 0) : elapsed = true := by
  cases h with
  | unarmed | waiting | canceled => exact absurd rfl hfired
  | queued => rfl

theorem delivers_of_stands (h : ∀ k, w.Stands k) : Delivers w := by
  constructor
  · intro k hk hopposed hfire
    have hstands := h k
    rw [World.Stands, hopposed, hfire] at hstands
    exact hstands.once hk
  · intro k hopposed
    have hstands := h k
    rw [World.Stands, hopposed] at hstands
    exact hstands.never
  · intro k hpending
    obtain ⟨fire, hfire⟩ := Option.ne_none_iff_exists'.mp hpending
    have hstands := h k
    rw [World.Stands, hfire] at hstands
    obtain ⟨hfired, hk⟩ := hstands.pending
    exact ⟨hfired, fun hended => hpending (hended.2 k hk)⟩
  · intro k hfired
    exact (h k).ready hfired

/-- The watcher exits, the delays run out and every fire is polled. -/
def drain (w : World) : List Event :=
  .close :: ((List.range w.listener.armed).map .elapse ++
    (List.range w.listener.armed).map fun k => .poll k (!w.history.opposed k))

/-- The delays of a list of armings run out. -/
theorem run_elapse (ks : List ℕ) (hks : ∀ k ∈ ks, k < w.listener.armed) :
    (Machine.run (step c) w (ks.map .elapse)).listener = w.listener ∧
      (Machine.run (step c) w (ks.map .elapse)).history.opposed = w.history.opposed ∧
      ∀ k, (k ∈ ks ∨ w.history.elapsed k = true) →
        (Machine.run (step c) w (ks.map .elapse)).history.elapsed k = true := by
  induction ks generalizing w with
  | nil => simp
  | cons j ks ih =>
    have hj : j < w.listener.armed := hks j List.mem_cons_self
    have hstep : step c w (.elapse j) =
        { w with history.elapsed := Function.update w.history.elapsed j true } := if_pos hj
    rw [List.map_cons, Machine.run_cons, hstep]
    obtain ⟨hlistener, hopposed, helapsed⟩ := ih
      (w := { w with history.elapsed := Function.update w.history.elapsed j true })
      fun k hk => hks k (List.mem_cons_of_mem j hk)
    refine ⟨hlistener, hopposed, ?_⟩
    intro k hk
    apply helapsed
    by_cases hkj : k = j
    · rw [hkj]
      exact Or.inr (Function.update_self _ _ _)
    · rcases hk with hk | hk
      · exact Or.inl ((List.mem_cons.mp hk).resolve_left hkj)
      · refine Or.inr ?_
        rw [← hk]
        exact Function.update_of_ne hkj _ _

/-- A fire whose delay has run out is resolved when it is polled. -/
theorem poll_resolves (timer : Bool) (l : Listener) :
    (l.poll c true k timer).pendingFires k = none := by
  cases hfire : l.pendingFires k with
  | none => simp [Listener.poll, hfire]
  | some fire =>
    have hpoll := congrArg Prod.fst (poll_self (c := c) hfire true timer)
    refine hpoll.trans ?_
    cases hnotified : fire.notified <;> cases timer <;> simp

@[simp] theorem poll_stdoutOpen (elapsed timer : Bool) (j : ℕ) (l : Listener) :
    (l.poll c elapsed j timer).stdoutOpen = l.stdoutOpen := by
  unfold Listener.poll
  split
  · rfl
  · split
    · rfl
    · split <;> rfl

theorem run_polls (timer : ℕ → Bool) (ks : List ℕ) (hks : ∀ k ∈ ks, w.history.elapsed k = true) :
    (Machine.run (step c) w (ks.map fun k => .poll k (timer k))).listener.armed =
        w.listener.armed ∧
      (Machine.run (step c) w (ks.map fun k => .poll k (timer k))).listener.stdoutOpen =
        w.listener.stdoutOpen ∧
      ∀ k, (k ∈ ks ∨ w.listener.pendingFires k = none) →
        (Machine.run (step c) w (ks.map fun k => .poll k (timer k))).listener.pendingFires k =
          none := by
  induction ks generalizing w with
  | nil => simp
  | cons j ks ih =>
    rw [List.map_cons, Machine.run_cons]
    obtain ⟨harmed, hopen, hnone⟩ := ih (w := step c w (.poll j (timer j)))
      fun k hk => hks k (List.mem_cons_of_mem j hk)
    have hj := hks j List.mem_cons_self
    refine ⟨harmed.trans (poll_armed _ _ _ _), hopen.trans (poll_stdoutOpen _ _ _ _), ?_⟩
    intro k hk
    apply hnone
    by_cases hkj : k = j
    · refine Or.inr ?_
      simp only [step, hkj, hj]
      exact poll_resolves _ _
    · rcases hk with hk | hk
      · exact Or.inl ((List.mem_cons.mp hk).resolve_left hkj)
      · refine Or.inr ?_
        simp only [step]
        rw [(poll_of_ne hkj _ _ _).1]
        exact hk

/-- After the exit of the watcher the loop is left once every fire is resolved. -/
theorem drain_ended (w : World) : (Machine.run (step c) w (drain w)).listener.Ended := by
  have hclosed : step c w .close = { w with listener.stdoutOpen := false } := rfl
  rw [drain, Machine.run_cons, Machine.run_append, hclosed]
  have helapse := run_elapse (c := c) (w := { w with listener.stdoutOpen := false })
    (List.range w.listener.armed) fun k hk => List.mem_range.mp hk
  generalize Machine.run (step c) { w with listener.stdoutOpen := false }
    ((List.range w.listener.armed).map .elapse) = w' at helapse ⊢
  obtain ⟨hlistener, -, helapsed⟩ := helapse
  obtain ⟨harmed, hopen, hnone⟩ := run_polls (c := c) (w := w') (fun k => !w.history.opposed k)
    (List.range w.listener.armed) fun k hk => helapsed k (Or.inl hk)
  have hsame : w'.listener.armed = w.listener.armed := by rw [hlistener]
  refine ⟨?_, ?_⟩
  · rw [hopen, hlistener]
  · intro k hk
    rw [harmed, hsame] at hk
    exact hnone k (Or.inl (List.mem_range.mpr hk))

/-- The events of a drain do not touch what opposed an arming, and a poll goes by it. -/
def Drains (opposed : ℕ → Bool) : Event → Prop
  | .line _ => False
  | .poll k timer => timer = !opposed k
  | _ => True

theorem drains_undisturbed (events : List Event)
    (h : ∀ e ∈ events, Drains w.history.opposed e) :
    Machine.Throughout (step c) (Undisturbed c) w events := by
  induction events generalizing w with
  | nil => trivial
  | cons e events ih =>
    have he := h e List.mem_cons_self
    have hrest := fun e' he' => h e' (List.mem_cons_of_mem e he')
    cases e with
    | line text => exact he.elim
    | poll k timer => exact ⟨fun _ _ _ _ => he, ih hrest⟩
    | close => exact ⟨trivial, ih hrest⟩
    | elapse k =>
      refine ⟨trivial, ih ?_⟩
      by_cases hk : k < w.listener.armed
      · simpa only [step, if_pos hk] using hrest
      · simpa only [step, if_neg hk] using hrest

theorem drain_undisturbed (w : World) :
    Machine.Throughout (step c) (Undisturbed c) w (drain w) := by
  apply drains_undisturbed
  intro e he
  simp only [drain, List.mem_cons, List.mem_append, List.mem_map] at he
  rcases he with rfl | ⟨k, -, rfl⟩ | ⟨k, -, rfl⟩
  · trivial
  · trivial
  · rfl

/-- In a run in which every opposite event finds its fires, a delayed fire is queued exactly once if
no opposite event came before its delay ran out and never if one did, and the loop is not left
before all are resolved. -/
theorem delayed_fires_delivered (c : UsbTrigger) (events : List Event)
    (hcond : Machine.Throughout (step c) (Undisturbed c) .start events) :
    let w := Machine.run (step c) .start events
    let exited := Machine.run (step c) w (drain w)
    Delivers w ∧ exited.listener.Ended ∧ Delivers exited := by
  intro w exited
  have hall : Machine.Throughout (step c) (Undisturbed c) .start (events ++ drain w) :=
    (Machine.throughout_append _ _ _).mpr ⟨hcond, drain_undisturbed w⟩
  have hexited : exited = Machine.run (step c) .start (events ++ drain w) :=
    (Machine.run_append _ _ _).symm
  refine ⟨delivers_of_stands (run_stands hcond), drain_ended w, ?_⟩
  rw [hexited]
  exact delivers_of_stands (run_stands hall)

section Samples

/-- A key that is pulled out fires after five seconds unless it is put back. -/
def pulledKey : UsbTrigger := ⟨"flow-1", "remove", 5⟩

def removed : Event := .line "FLOW_TRIGGER|remove|USB\\VID_1|Key"

def inserted : Event := .line "FLOW_TRIGGER|insert|USB\\VID_1|Key"

theorem undisturbed_removed (w : World) : Undisturbed pulledKey w removed := by
  intro _ kind deviceId deviceName hparse hkind
  have hremoved : parseUsbTriggerLine "FLOW_TRIGGER|remove|USB\\VID_1|Key" 5 "remove" =
      some ("remove", "USB\\VID_1", "Key") := by decide +kernel
  have hsame := (congrArg Prod.fst (Option.some.inj (hremoved.symm.trans hparse))).symm
  exact absurd hsame hkind

/-- Pulled, put back in time, and pulled for good: the drain queues the second fire. -/
theorem delayed_fires_delivered_pulledKey :
    let w := Machine.run (step pulledKey) .start
      [removed, inserted, .poll 0 true, removed, .elapse 1]
    let exited := Machine.run (step pulledKey) w (drain w)
    Delivers w ∧ exited.listener.Ended ∧ Delivers exited := by
  apply delayed_fires_delivered
  refine ⟨undisturbed_removed _, ?_, ?_, undisturbed_removed _, trivial, trivial⟩
  · intro _ kind deviceId deviceName hparse _ k fire hfire _
    have hinserted : parseUsbTriggerLine "FLOW_TRIGGER|insert|USB\\VID_1|Key" 5 "remove" =
        some ("insert", "USB\\VID_1", "Key") := by decide +kernel
    obtain ⟨-, rfl, rfl⟩ : "insert" = kind ∧ "USB\\VID_1" = deviceId ∧ "Key" = deviceName := by
      simpa using Option.some.inj (hinserted.symm.trans hparse)
    have hstands := step_stands removed start_stands (undisturbed_removed _) k
    rw [World.Stands, hfire] at hstands
    have harmed : (step pulledKey .start removed).listener.armed = 1 := by decide +kernel
    have hk : k = 0 := by
      have hlt := hstands.pending.2
      omega
    rw [hk] at hfire ⊢
    have hpending : (step pulledKey .start removed).listener.pendingFires 0 =
        some ⟨"USB\\VID_1", "Key", false⟩ := by decide +kernel
    have hslot : (step pulledKey .start removed).listener.pendingNotify "USB\\VID_1" = some 0 := by
      decide +kernel
    rw [← Option.some.inj (hpending.symm.trans hfire)]
    exact iff_of_true rfl hslot
  · intro fire _ _ helapsed
    revert helapsed
    decide +kernel

/-- Pulled twice and put back: the first fire is queued although it was opposed. -/
theorem armed_twice_fires :
    ¬ ∀ (c : UsbTrigger) (events : List Event), Delivers (Machine.run (step c) .start events) := by
  intro h
  have hdelivers := h pulledKey [removed, removed, inserted, .elapse 0, .poll 0 true]
  have hnever := hdelivers.never 0 (by decide +kernel)
  revert hnever
  decide +kernel

end Samples

end Runs
end Flows
