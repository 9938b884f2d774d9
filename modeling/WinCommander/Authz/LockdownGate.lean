import Mathlib.Data.UInt
import Mathlib.Logic.Function.Basic
import WinCommander.Library.Run

/-!
# The gate of a trusted lockdown

A lockdown is armed, and executes when its timer expires unless it was cancelled before.  The gate is a
generation and a flag.  Each access to one of them is a step, and the steps of all calls may come in any
order.
-/

namespace LockdownGate

section Machine

/-- How far a call has come. -/
inductive Call where
  | idle
  | raised
  | armed (generation : UInt64)
  | refused
  | bumped
  | cancelled (wasPending : Bool)
  | checked (arming : ℕ)
  | executed
  | expired
  deriving DecidableEq

/-- The gate and its calls, and what has become of the armings.  `raisedBy` has those that have raised
the flag since it was last lowered. -/
structure GateState where
  generation : UInt64
  pending : Bool
  call : ℕ → Call
  raisedBy : List ℕ
  executed : ℕ → Bool
  cancelled : ℕ → Bool

def GateState.start : GateState where
  generation := 0
  pending := false
  call _ := .idle
  raisedBy := []
  executed _ := false
  cancelled _ := false

inductive Action where
  | arm (call : ℕ)
  | cancel (call : ℕ)
  | expire (call arming : ℕ)
  | advance (call : ℕ)

def Call.isArming : Call → Bool
  | .raised => true
  | .armed _ => true
  | _ => false

def GateState.to (s : GateState) (c : ℕ) (call : Call) : GateState :=
  { s with call := Function.update s.call c call }

def arm (s : GateState) (c : ℕ) : GateState :=
  if s.pending then s.to c .refused
  else { s.to c .raised with pending := true, raisedBy := c :: s.raisedBy }

def takeGeneration (s : GateState) (c : ℕ) : GateState :=
  { s.to c (.armed (s.generation + 1)) with generation := s.generation + 1 }

def cancel (s : GateState) (c : ℕ) : GateState :=
  { s.to c .bumped with generation := s.generation + 1 }

/-- A cancel that returns true is for every arming that has not executed. -/
def lower (s : GateState) (c : ℕ) : GateState :=
  { s.to c (.cancelled s.pending) with
    pending := false
    raisedBy := []
    cancelled := fun a => s.cancelled a || (s.pending && (s.call a).isArming && !s.executed a) }

def check (s : GateState) (c a : ℕ) (generation : UInt64) : GateState :=
  s.to c (if s.generation = generation then .checked a else .expired)

def exchange (s : GateState) (c a : ℕ) : GateState :=
  if s.pending then
    { s.to c .executed with
      pending := false
      raisedBy := []
      executed := Function.update s.executed a true }
  else s.to c .expired

@[grind =] def advance (s : GateState) (c : ℕ) : GateState :=
  match s.call c with
  | .raised => takeGeneration s c
  | .bumped => lower s c
  | .checked a => exchange s c a
  | _ => s

def expire (s : GateState) (c a : ℕ) : GateState :=
  match s.call a with
  | .armed generation => check s c a generation
  | _ => s

@[grind =] def step (s : GateState) : Action → GateState
  | .arm c => if s.call c = .idle then arm s c else s
  | .cancel c => if s.call c = .idle then cancel s c else s
  | .expire c a => if s.call c = .idle then expire s c a else s
  | .advance c => advance s c

/-- The arming that a step executes. -/
@[grind =] def executes (s : GateState) : Action → Option ℕ
  | .advance c =>
    match s.call c with
    | .checked a => if s.pending then some a else none
    | _ => none
  | _ => none

end Machine

section Property

/-- What is to hold of every step. -/
structure Sound (s : GateState) (a : Action) : Prop where
  once : ∀ r, executes s a = some r → s.executed r = false
  kept : ∀ r, executes s a = some r → s.cancelled r = false
  own : ∀ r, executes s a = some r → ∀ o ∈ s.raisedBy, o = r
  single : s.raisedBy.length ≤ 1

/-- A flag is raised while no other arming is between its two accesses and no timer between its two,
no timer passes its check while the one that raised the flag is between its accesses, and the
generation does not wrap. -/
def Calm (s : GateState) : Action → Prop
  | .arm c => s.call c = .idle → s.pending = false →
      (∀ o, s.call o ≠ .raised) ∧ ∀ t a, s.call t ≠ .checked a
  | .cancel c => s.call c = .idle → s.generation.toNat + 1 < 2 ^ 64
  | .expire c a => s.call c = .idle → s.call a = .armed s.generation → s.pending = true →
      ∀ o, s.call o ≠ .raised
  | .advance c => s.call c = .raised → s.generation.toNat + 1 < 2 ^ 64

end Property

section Invariant

structure Inv (s : GateState) : Prop where
  idle : ∀ a, s.call a = .idle → s.executed a = false ∧ s.cancelled a = false
  generation : ∀ a g, s.call a = .armed g → g.toNat ≤ s.generation.toNat
  lowered : s.pending = false → s.raisedBy = []
  raised : s.pending = true → ∃ o, s.raisedBy = [o] ∧ (s.call o).isArming = true ∧
    s.executed o = false ∧ s.cancelled o = false
  latest : ∀ o g a g', s.raisedBy = [o] → s.call o = .armed g → a ≠ o → s.call a = .armed g' →
    g'.toNat < g.toNat
  between : ∀ o, s.call o = .raised → s.pending = true → s.raisedBy = [o]
  checked : ∀ t a, s.call t = .checked a → s.pending = true → s.raisedBy = [a]

theorem inv_start : Inv .start := by
  constructor <;> simp [GateState.start]

variable {s : GateState} {c a : ℕ}

@[simp] theorem to_call (s : GateState) (c : ℕ) (call : Call) (q : ℕ) :
    (s.to c call).call q = if q = c then call else s.call q := Function.update_apply ..

theorem toNat_succ {g : UInt64} (h : g.toNat + 1 < 2 ^ 64) : (g + 1).toNat = g.toNat + 1 := by
  rw [UInt64.toNat_add]
  exact Nat.mod_eq_of_lt h

/-- A call ends without an access that others see. -/
theorem Inv.to (h : Inv s) {call : Call} (hfrom : (s.call c).isArming = false)
    (hidle : call ≠ .idle) (hto : call.isArming = false)
    (hchecked : ∀ a, call = .checked a → s.pending = true → s.raisedBy = [a]) : Inv (s.to c call) := by
  have harmed : ∀ q g, (s.to c call).call q = .armed g → s.call q = .armed g := by
    intro q g hq
    rw [to_call] at hq
    split at hq
    · rw [hq] at hto
      exact absurd hto (by simp [Call.isArming])
    · exact hq
  constructor
  case idle =>
    intro q hq
    rw [to_call] at hq
    split at hq
    · exact absurd hq hidle
    · exact h.idle q hq
  case generation => exact fun q g hq => h.generation q g (harmed q g hq)
  case lowered => exact h.lowered
  case raised =>
    intro hpending
    obtain ⟨o, hraised, harming, hexecuted, hcancelled⟩ := h.raised hpending
    have hne : o ≠ c := by
      rintro rfl
      exact absurd (harming.symm.trans hfrom) (by simp)
    refine ⟨o, hraised, ?_, hexecuted, hcancelled⟩
    rw [to_call, if_neg hne]
    exact harming
  case latest =>
    exact fun o g q g' ho hg hq hg' => h.latest o g q g' ho (harmed o g hg) hq (harmed q g' hg')
  case between =>
    intro o ho
    rw [to_call] at ho
    split at ho
    · rw [ho] at hto
      exact absurd hto (by simp [Call.isArming])
    · exact h.between o ho
  case checked =>
    intro t q hq
    rw [to_call] at hq
    split at hq
    · exact hchecked q hq
    · exact h.checked t q hq

/-- The flag is raised. -/
theorem inv_arm (h : Inv s) (hidle : s.call c = .idle)
    (hcalm : s.pending = false → (∀ o, s.call o ≠ .raised) ∧ ∀ t a, s.call t ≠ .checked a) :
    Inv (arm s c) := by
  cases hpending : s.pending with
  | true =>
    rw [arm, if_pos hpending]
    exact h.to (by simp [hidle, Call.isArming]) (by simp) rfl (by simp)
  | false =>
    obtain ⟨hnone, htimers⟩ := hcalm hpending
    have hraised : (arm s c).raisedBy = [c] := by
      rw [arm, hpending, if_neg (by simp)]
      exact congrArg (c :: ·) (h.lowered hpending)
    have hself : (arm s c).call c = .raised := by
      rw [arm, hpending, if_neg (by simp)]
      exact (to_call ..).trans (if_pos rfl)
    have hother : ∀ q, q ≠ c → (arm s c).call q = s.call q := by
      intro q hq
      rw [arm, hpending, if_neg (by simp)]
      exact (to_call ..).trans (if_neg hq)
    have hsame : (arm s c).generation = s.generation ∧ (arm s c).executed = s.executed ∧
        (arm s c).cancelled = s.cancelled ∧ (arm s c).pending = true := by
      rw [arm, hpending, if_neg (by simp)]
      exact ⟨rfl, rfl, rfl, rfl⟩
    obtain ⟨hgeneration, hexecuted, hcancelled, hpending'⟩ := hsame
    have harmed : ∀ q g, (arm s c).call q = .armed g → q ≠ c ∧ s.call q = .armed g := by
      intro q g hq
      have hne : q ≠ c := by
        rintro rfl
        exact absurd (hself.symm.trans hq) (by simp)
      exact ⟨hne, (hother q hne).symm.trans hq⟩
    constructor
    case idle =>
      intro q hq
      have hne : q ≠ c := by
        rintro rfl
        exact absurd (hself.symm.trans hq) (by simp)
      rw [hexecuted, hcancelled]
      exact h.idle q ((hother q hne).symm.trans hq)
    case generation =>
      intro q g hq
      rw [hgeneration]
      exact h.generation q g (harmed q g hq).2
    case lowered => exact fun hdown => absurd (hpending'.symm.trans hdown) (by simp)
    case raised =>
      intro _
      rw [hraised, hexecuted, hcancelled]
      exact ⟨c, rfl, by rw [hself]; rfl, h.idle c hidle⟩
    case latest =>
      intro o g q g' ho hg
      have hne := (harmed o g hg).1
      rw [hraised] at ho
      exact absurd (List.singleton_inj.mp ho).symm hne
    case between =>
      intro o ho _
      by_cases hoc : o = c
      · rw [hraised, hoc]
      · exact absurd ((hother o hoc).symm.trans ho) (hnone o)
    case checked =>
      intro t q hq
      have hne : t ≠ c := by
        rintro rfl
        exact absurd (hself.symm.trans hq) (by simp)
      exact absurd ((hother t hne).symm.trans hq) (htimers t q)

theorem Inv.pending_of_raised (h : Inv s) {o : ℕ} (hraised : s.raisedBy = [o]) : s.pending = true := by
  by_contra hdown
  rw [h.lowered (by simpa using hdown)] at hraised
  exact absurd hraised (by simp)

/-- An arming takes a generation that is later than those of all others. -/
theorem inv_takeGeneration (h : Inv s) (hcall : s.call c = .raised)
    (hwrap : s.generation.toNat + 1 < 2 ^ 64) : Inv (takeGeneration s c) := by
  have hsucc := toNat_succ hwrap
  have hself : (takeGeneration s c).call c = .armed (s.generation + 1) := (to_call ..).trans (if_pos rfl)
  have hother : ∀ q, q ≠ c → (takeGeneration s c).call q = s.call q :=
    fun q hq => (to_call ..).trans (if_neg hq)
  generalize ht : takeGeneration s c = t at *
  have hsame : t.generation = s.generation + 1 ∧ t.pending = s.pending ∧ t.raisedBy = s.raisedBy ∧
      t.executed = s.executed ∧ t.cancelled = s.cancelled := by
    rw [← ht]
    exact ⟨rfl, rfl, rfl, rfl, rfl⟩
  obtain ⟨hgeneration, hpending, hraised, hexecuted, hcancelled⟩ := hsame
  constructor
  case idle =>
    intro q hq
    have hne : q ≠ c := by
      rintro rfl
      exact absurd (hself.symm.trans hq) (by simp)
    rw [hexecuted, hcancelled]
    exact h.idle q ((hother q hne).symm.trans hq)
  case generation =>
    intro q g hq
    rw [hgeneration, hsucc]
    by_cases hqc : q = c
    · rw [hqc, hself, Call.armed.injEq] at hq
      rw [← hq, hsucc]
    · have hle := h.generation q g ((hother q hqc).symm.trans hq)
      omega
  case lowered =>
    rw [hpending, hraised]
    exact h.lowered
  case raised =>
    rw [hpending, hraised, hexecuted, hcancelled]
    intro hup
    obtain ⟨o, howner, harming, hlive⟩ := h.raised hup
    refine ⟨o, howner, ?_, hlive⟩
    by_cases hoc : o = c
    · rw [hoc, hself]
      rfl
    · rw [hother o hoc]
      exact harming
  case latest =>
    intro o g q g' ho hg hne hg'
    rw [hraised] at ho
    have howner := h.between c hcall (h.pending_of_raised ho)
    obtain rfl : o = c := List.singleton_inj.mp (ho.symm.trans howner)
    rw [hself, Call.armed.injEq] at hg
    have hle := h.generation q g' ((hother q hne).symm.trans hg')
    rw [← hg, hsucc]
    omega
  case between =>
    intro o ho
    have hne : o ≠ c := by
      rintro rfl
      exact absurd (hself.symm.trans ho) (by simp)
    rw [hpending, hraised]
    exact h.between o ((hother o hne).symm.trans ho)
  case checked =>
    intro t' q hq
    have hne : t' ≠ c := by
      rintro rfl
      exact absurd (hself.symm.trans hq) (by simp)
    rw [hpending, hraised]
    exact h.checked t' q ((hother t' hne).symm.trans hq)

theorem inv_bump (h : Inv s) (hwrap : s.generation.toNat + 1 < 2 ^ 64) :
    Inv { s with generation := s.generation + 1 } where
  idle := h.idle
  generation q g hq := by
    have hle := h.generation q g hq
    have hsucc := toNat_succ hwrap
    show g.toNat ≤ (s.generation + 1).toNat
    omega
  lowered := h.lowered
  raised := h.raised
  latest := h.latest
  between := h.between
  checked := h.checked

theorem inv_cancel (h : Inv s) (hcall : s.call c = .idle) (hwrap : s.generation.toNat + 1 < 2 ^ 64) :
    Inv (cancel s c) := by
  show Inv (GateState.to { s with generation := s.generation + 1 } c .bumped)
  apply (inv_bump h hwrap).to
  · show (s.call c).isArming = false
    rw [hcall]
    rfl
  · simp
  · rfl
  · simp

/-- Where the flag is down nothing is pending. -/
theorem inv_down {t : GateState} (hdown : t.pending = false) (hraised : t.raisedBy = [])
    (hidle : ∀ a, t.call a = .idle → t.executed a = false ∧ t.cancelled a = false)
    (hgeneration : ∀ a g, t.call a = .armed g → g.toNat ≤ t.generation.toNat) : Inv t where
  idle := hidle
  generation := hgeneration
  lowered _ := hraised
  raised hup := absurd (hdown.symm.trans hup) (by simp)
  latest _ _ _ _ ho := absurd (hraised.symm.trans ho) (by simp)
  between _ _ hup := absurd (hdown.symm.trans hup) (by simp)
  checked _ _ _ hup := absurd (hdown.symm.trans hup) (by simp)

theorem inv_lower (h : Inv s) (c : ℕ) : Inv (lower s c) := by
  have hcalls : ∀ q call, call ≠ .cancelled s.pending → (lower s c).call q = call → s.call q = call := by
    intro q call hne hq
    rw [show (lower s c).call q = _ from to_call ..] at hq
    split at hq
    · exact absurd hq.symm hne
    · exact hq
  apply inv_down rfl rfl
  · intro q hq
    have hold := hcalls q .idle (by simp) hq
    have hlive := h.idle q hold
    refine ⟨hlive.1, ?_⟩
    simp [lower, GateState.to, hold, hlive.2, Call.isArming]
  · exact fun q g hq => h.generation q g (hcalls q _ (by simp) hq)

/-- A timer that finds the flag up finds its own. -/
theorem inv_expire (h : Inv s) (hcall : s.call c = .idle)
    (hcalm : s.call a = .armed s.generation → s.pending = true → ∀ o, s.call o ≠ .raised) :
    Inv (expire s c a) := by
  rw [expire]
  cases harmed : s.call a with
  | armed g =>
    simp only
    rw [check]
    apply h.to (by rw [hcall]; rfl)
    · split <;> simp
    · split <;> rfl
    · intro q hq hup
      by_cases hcurrent : s.generation = g
      · rw [if_pos hcurrent, Call.checked.injEq] at hq
        subst hcurrent hq
        obtain ⟨o, howner, harming, -⟩ := h.raised hup
        cases ho : s.call o with
        | raised => exact absurd ho (hcalm harmed hup o)
        | armed g' =>
          by_cases hao : a = o
          · rw [howner, hao]
          · have hlt := h.latest o g' a s.generation howner ho hao harmed
            have hle := h.generation o g' ho
            omega
        | idle | refused | bumped | cancelled | checked | executed | expired =>
          exact absurd (harming.symm.trans (congrArg Call.isArming ho)) (by simp [Call.isArming])
      · rw [if_neg hcurrent] at hq
        exact absurd hq (by simp)
  | idle | raised | refused | bumped | cancelled | checked | executed | expired => exact h

theorem inv_exchange (h : Inv s) (hcall : s.call c = .checked a) : Inv (exchange s c a) := by
  rw [exchange]
  split
  · rename_i hup
    have howner := h.checked c a hcall hup
    obtain ⟨o, ho, harming, -⟩ := h.raised hup
    obtain rfl : a = o := List.singleton_inj.mp (howner.symm.trans ho)
    apply inv_down rfl rfl
    · intro q hq
      have hold : s.call q = .idle := by
        rw [show GateState.call _ q = _ from to_call ..] at hq
        split at hq
        · exact absurd hq (by simp)
        · exact hq
      have hne : q ≠ a := by
        rintro rfl
        rw [hold] at harming
        exact absurd harming (by simp [Call.isArming])
      have hlive := h.idle q hold
      exact ⟨(Function.update_of_ne hne ..).trans hlive.1, hlive.2⟩
    · intro q g hq
      rw [show GateState.call _ q = _ from to_call ..] at hq
      split at hq
      · exact absurd hq (by simp)
      · exact h.generation q g hq
  · exact h.to (by rw [hcall]; rfl) (by simp) rfl (by simp)

theorem inv_step {act : Action} (h : Inv s) (hcalm : Calm s act) : Inv (step s act) := by
  cases act with
  | arm c =>
    by_cases hidle : s.call c = .idle
    · simp only [step, if_pos hidle]
      exact inv_arm h hidle (hcalm hidle)
    · simp only [step, if_neg hidle]
      exact h
  | cancel c =>
    by_cases hidle : s.call c = .idle
    · simp only [step, if_pos hidle]
      exact inv_cancel h hidle (hcalm hidle)
    · simp only [step, if_neg hidle]
      exact h
  | expire c a =>
    by_cases hidle : s.call c = .idle
    · simp only [step, if_pos hidle]
      exact inv_expire h hidle (hcalm hidle)
    · simp only [step, if_neg hidle]
      exact h
  | advance c =>
    cases hcall : s.call c with
    | raised =>
      simp only [step, advance, hcall]
      exact inv_takeGeneration h hcall (hcalm hcall)
    | bumped =>
      simp only [step, advance, hcall]
      exact inv_lower h c
    | checked a =>
      simp only [step, advance, hcall]
      exact inv_exchange h hcall
    | idle | armed | refused | cancelled | executed | expired =>
      simp only [step, advance, hcall]
      exact h

theorem Inv.single (h : Inv s) : s.raisedBy.length ≤ 1 := by
  cases hpending : s.pending with
  | false => simp [h.lowered hpending]
  | true =>
    obtain ⟨o, ho, -⟩ := h.raised hpending
    simp [ho]

theorem executes_eq_some {act : Action} {r : ℕ} (h : executes s act = some r) :
    ∃ c, act = .advance c ∧ s.call c = .checked r ∧ s.pending = true := by
  cases act with
  | advance c =>
    cases hcall : s.call c with
    | checked a =>
      simp only [executes, hcall, Option.ite_none_right_eq_some, Option.some.injEq] at h
      exact ⟨c, rfl, by rw [hcall, h.2], h.1⟩
    | _ => simp [executes, hcall] at h
  | _ => simp [executes] at h

theorem Inv.sound (h : Inv s) (act : Action) : Sound s act := by
  have hown : ∀ r, executes s act = some r → s.raisedBy = [r] ∧ s.executed r = false ∧
      s.cancelled r = false := by
    intro r hr
    obtain ⟨c, -, hcall, hup⟩ := executes_eq_some hr
    have howner := h.checked c r hcall hup
    obtain ⟨o, ho, -, hexecuted, hcancelled⟩ := h.raised hup
    obtain rfl : r = o := List.singleton_inj.mp (howner.symm.trans ho)
    exact ⟨howner, hexecuted, hcancelled⟩
  constructor
  case once => exact fun r hr => (hown r hr).2.1
  case kept => exact fun r hr => (hown r hr).2.2
  case own =>
    intro r hr o ho
    rw [(hown r hr).1] at ho
    exact List.mem_singleton.mp ho
  case single => exact h.single

end Invariant

section Runs

/-- In every run whose steps are all calm the gate is sound at every step. -/
theorem calm_run_sound {acts : List Action} (hcalm : Machine.Throughout step Calm .start acts) :
    Machine.Throughout step Sound .start acts ∧ (Machine.run step .start acts).raisedBy.length ≤ 1 :=
  ⟨hcalm.strengthen (fun _ _ h hcalm => inv_step h hcalm) (fun _ act h _ => h.sound act) inv_start,
    (Machine.run_invariant (fun _ _ h hcalm => inv_step h hcalm) inv_start hcalm).single⟩

/-- Armed, cancelled, and armed again until the timer expires. -/
def cancelThenArm : List Action :=
  [.arm 0, .advance 0, .cancel 1, .advance 1, .expire 2 0, .arm 3, .advance 3, .expire 4 3, .advance 4]

theorem cancelThenArm_sound : Machine.Throughout step Sound .start cancelThenArm ∧
    (Machine.run step .start cancelThenArm).raisedBy.length ≤ 1 := by
  apply calm_run_sound
  simp [cancelThenArm, Machine.Throughout, Calm, step, arm, cancel, advance, takeGeneration, lower,
    expire, check, GateState.start, GateState.to, Function.update_apply]
  refine ⟨⟨?_, ?_⟩, ?_⟩
  · intro o
    split_ifs <;> simp
  · intro t a
    split_ifs <;> simp
  · intro o
    split_ifs <;> simp

/-- The timer has passed its check when its arming is cancelled and another one raises the flag. -/
def overtaken : List Action :=
  [.arm 0, .advance 0, .expire 1 0, .cancel 2, .advance 2, .arm 3, .advance 3, .advance 1]

theorem overtaken_unsound : ¬ ∀ acts, Machine.Throughout step Sound .start acts := by
  intro h
  have hlast := (Machine.throughout_iff _ _).mp (h overtaken)
    [.arm 0, .advance 0, .expire 1 0, .cancel 2, .advance 2, .arm 3, .advance 3] (.advance 1) [] rfl
  exact absurd (hlast.kept 0 (by decide +kernel)) (by decide +kernel)

end Runs

end LockdownGate
