import Mathlib.Data.List.AList
import Mathlib.Logic.Function.Basic
import WinCommander.Library.Run

/-!
# The registry of webhook routes

One server is shared by all routes.  A registration puts its route in, starts the server where none is
marked as running, and is undone when its handle is dropped.  Each critical section is one step, and
any steps of other calls and of the servers may come between two of them.
-/

namespace WebhookServer

section Machine

/-- The number of the registration stands for what it fires. -/
structure Route where
  registration : ℕ
  secret : String
  deriving DecidableEq

/-- How far a registration has come, up to the end of the drop of its handle. -/
inductive Stage where
  | absent
  | inserted (needsSpawn : Bool)
  | marked (notify : ℕ)
  | resolved (notify : ℕ)
  | spawned
  | live
  | failed
  | emptied
  | taken (notify : ℕ)
  | dropped
  deriving DecidableEq

/-- A server task, known by what it is notified with. -/
inductive Server where
  | unspawned
  | starting
  | waiting
  | busy
  | notified
  | ended
  deriving DecidableEq

/-- Registrations, notifications and starts are numbered in one order. -/
structure ServerState where
  routes : AList fun _ : String => Route
  shutdown : Option ℕ
  stage : ℕ → Stage
  path : ℕ → String
  server : ℕ → Server
  startedAt : ℕ → ℕ
  next : ℕ

def ServerState.start : ServerState where
  routes := ∅
  shutdown := none
  stage _ := .absent
  path _ := ""
  server _ := .unspawned
  startedAt _ := 0
  next := 0

/-- What happens next.  A call goes on by `advance`, and `resolves` says whether the address is found if
it is asked for. -/
inductive Action where
  | register (path secret : String)
  | advance (registration : ℕ) (resolves : Bool)
  | drop (registration : ℕ)
  | bind (server : ℕ) (bound : Bool)
  | accept (server : ℕ)
  | again (server : ℕ)
  | stop (server : ℕ)

def refused (path secret : String) : Bool :=
  path.toList.head? ≠ some '/' || secret.utf8ByteSize < 16

def ServerState.to (s : ServerState) (r : ℕ) (stage : Stage) : ServerState :=
  { s with stage := Function.update s.stage r stage }

def ServerState.serve (s : ServerState) (n : ℕ) (server : Server) : ServerState :=
  { s with server := Function.update s.server n server }

/-- Only a server that waits is woken. -/
def wake : Server → Server
  | .waiting => .notified
  | server => server

def register (s : ServerState) (path secret : String) : ServerState :=
  if refused path secret then s
  else { s.to s.next (.inserted s.shutdown.isNone) with
    routes := s.routes.insert path ⟨s.next, secret⟩
    path := Function.update s.path s.next path
    next := s.next + 1 }

def mark (s : ServerState) (r : ℕ) : ServerState :=
  { s.to r (.marked s.next) with shutdown := some s.next, next := s.next + 1 }

def spawn (s : ServerState) (r n : ℕ) : ServerState :=
  { (s.to r .spawned).serve n .starting with
    startedAt := Function.update s.startedAt n s.next, next := s.next + 1 }

def take (s : ServerState) (r : ℕ) : ServerState :=
  match s.shutdown with
  | some n => { s.to r (.taken n) with shutdown := none }
  | none => s.to r .dropped

@[grind =] def advance (s : ServerState) (r : ℕ) (resolves : Bool) : ServerState :=
  match s.stage r with
  | .inserted true => mark s r
  | .inserted false => s.to r .live
  | .marked n => if resolves then s.to r (.resolved n) else s.to r .failed
  | .resolved n => spawn s r n
  | .spawned => s.to r .live
  | .emptied => take s r
  | .taken n => (s.to r .dropped).serve n (wake (s.server n))
  | _ => s

def drop (s : ServerState) (r : ℕ) : ServerState :=
  if s.stage r = .live then
    let routes := s.routes.erase (s.path r)
    { s.to r (if routes.keys.isEmpty then .emptied else .dropped) with routes }
  else s

@[grind =] def step (s : ServerState) : Action → ServerState
  | .register path secret => register s path secret
  | .advance r resolves => advance s r resolves
  | .drop r => drop s r
  | .bind n bound =>
      if s.server n = .starting then s.serve n (if bound then .waiting else .ended) else s
  | .accept n => if s.server n = .waiting then s.serve n .busy else s
  | .again n => if s.server n = .busy then s.serve n .waiting else s
  | .stop n => if s.server n = .notified then s.serve n .ended else s

end Machine

section Property

/-- A call that has put its route in and has not returned yet. -/
def Registering (s : ServerState) (r : ℕ) : Prop :=
  (∃ b, s.stage r = .inserted b) ∨ (∃ n, s.stage r = .marked n) ∨ (∃ n, s.stage r = .resolved n) ∨
    s.stage r = .spawned

def Running (s : ServerState) (n : ℕ) : Prop :=
  s.server n = .starting ∨ s.server n = .waiting ∨ s.server n = .busy

/-- What is to hold in every state. -/
structure Consistent (s : ServerState) : Prop where
  routed : ∀ p, (∀ r, s.path r = p → ¬ Registering s r) → ∀ r,
    ((s.routes.lookup p).map (·.registration) = some r ↔
      s.stage r = .live ∧ s.path r = p ∧ ∀ r', s.stage r' = .live → s.path r' = p → r' ≤ r)
  failed : ∀ r, s.stage r = .failed →
    (∀ p route, s.routes.lookup p = some route → route.registration ≠ r) ∧
      ∀ n, s.shutdown = some n →
        (∃ q, s.stage q = .marked n ∨ s.stage q = .resolved n) ∨ s.server n ≠ .unspawned
  served : (∀ r, ¬ Registering s r) → ∀ r, s.stage r = .live →
    ∃ n, Running s n ∨ s.server n ≠ .unspawned ∧ r < s.startedAt n
  stopped : (∀ r, ¬ Registering s r ∧ s.stage r ≠ .live ∧ s.stage r ≠ .emptied ∧
    ∀ n, s.stage r ≠ .taken n) → ∀ n, ¬ Running s n

end Property

section Condition

def Holds (s : ServerState) (r : ℕ) : Prop := s.stage r = .live ∨ Registering s r

/-- A step that none of the gaps between the critical sections is open to. -/
def Calm (s : ServerState) : Action → Prop
  | .register path secret => refused path secret = true ∨
      (∀ r, s.stage r ≠ .inserted true) ∧ (∀ r, s.stage r ≠ .emptied) ∧
        ∀ n, s.shutdown = some n → s.server n ≠ .ended
  | .advance r resolves =>
      ((∃ n, s.stage r = .marked n) → resolves = true) ∧
        ∀ n, s.stage r = .taken n → s.server n ≠ .starting ∧ s.server n ≠ .busy
  | .drop r => s.stage r = .live → ∀ r', Holds s r' → s.path r' = s.path r → r' = r
  | .bind n bound => s.server n = .starting → bound = false → s.shutdown = some n →
      ∀ r, Holds s r → r < s.startedAt n
  | _ => True

end Condition

section Invariant

/-- A call has marked a server as running and is about to start it. -/
def Awaits (s : ServerState) (q n : ℕ) : Prop := s.stage q = .marked n ∨ s.stage q = .resolved n

/-- A server serves a registration: it is about to be started, it runs, or it was started after it. -/
def Serves (s : ServerState) (n r : ℕ) : Prop :=
  (∃ q, Awaits s q n) ∨ Running s n ∨ s.server n ≠ .unspawned ∧ r < s.startedAt n

structure Inv (s : ServerState) : Prop where
  freshStage : ∀ r, s.next ≤ r → s.stage r = .absent
  freshServer : ∀ n, s.next ≤ n → s.server n = .unspawned
  freshShutdown : ∀ n, s.shutdown = some n → n < s.next
  freshTaken : ∀ r n, s.stage r = .taken n → n < s.next
  noneFailed : ∀ r, s.stage r ≠ .failed
  unrouted : ∀ p, s.routes.lookup p = none → ∀ r, Holds s r → s.path r ≠ p
  routed : ∀ p route, s.routes.lookup p = some route →
    Holds s route.registration ∧ s.path route.registration = p ∧
      ∀ r, Holds s r → s.path r = p → r ≤ route.registration
  unmarked : ∀ r, s.stage r = .inserted true → s.shutdown = none ∧ ∀ r', Holds s r' → r' = r
  emptied : ∀ r, s.stage r = .emptied → ∀ r', ¬ Holds s r'
  claimed : ∀ n, s.shutdown = some n → (∃ r, Holds s r) ∨ ∃ r, s.stage r = .emptied
  serves : ∀ r, Holds s r → (∃ q, s.stage q = .inserted true) ∨
    ∃ n, s.shutdown = some n ∧ ∀ r', Holds s r' → Serves s n r'
  runs : ∀ n, Running s n → s.shutdown = some n ∨ ∃ r, s.stage r = .taken n
  awaited : ∀ q n, Awaits s q n →
    s.shutdown = some n ∧ s.server n = .unspawned ∧ ∀ q', Awaits s q' n → q' = q
  started : ∀ n, s.shutdown = some n →
    (∃ q, Awaits s q n) ∨ s.server n ≠ .unspawned ∧ s.server n ≠ .notified
  untaken : ∀ r n, s.stage r = .taken n → s.shutdown ≠ some n

theorem inv_start : Inv .start := by
  constructor <;> simp [ServerState.start, Holds, Registering, Running, Awaits]

@[simp] theorem to_stage (s : ServerState) (r : ℕ) (stage : Stage) (q : ℕ) :
    (s.to r stage).stage q = if q = r then stage else s.stage q := Function.update_apply ..

@[simp] theorem serve_server (s : ServerState) (n : ℕ) (server : Server) (m : ℕ) :
    (s.serve n server).server m = if m = n then server else s.server m := Function.update_apply ..

variable {s : ServerState} {r n : ℕ}

theorem Inv.lt_next (h : Inv s) (hstage : s.stage r ≠ .absent) : r < s.next := by
  by_contra hle
  exact hstage (h.freshStage r (by omega))

/-- A call goes on and nothing that others see changes. -/
theorem Inv.toStage (h : Inv s) {stage : Stage}
    (hfrom : s.stage r ≠ .absent) (hto : stage ≠ .failed)
    (hholds : Holds (s.to r stage) r ↔ Holds s r)
    (hawaits : ∀ n, Awaits (s.to r stage) r n ↔ Awaits s r n)
    (hunmarked : stage = .inserted true ↔ s.stage r = .inserted true)
    (hemptied : stage = .emptied ↔ s.stage r = .emptied)
    (htaken : ∀ n, stage = .taken n ↔ s.stage r = .taken n) : Inv (s.to r stage) := by
  have hlt := h.lt_next hfrom
  have hholds' : ∀ q, Holds (s.to r stage) q ↔ Holds s q := by
    intro q
    by_cases hq : q = r
    · rw [hq, hholds]
    · simp [Holds, Registering, hq]
  have hawaits' : ∀ q n, Awaits (s.to r stage) q n ↔ Awaits s q n := by
    intro q n
    by_cases hq : q = r
    · rw [hq, hawaits]
    · simp [Awaits, hq]
  have hunmarked' : ∀ q, (s.to r stage).stage q = .inserted true ↔ s.stage q = .inserted true := by
    intro q
    by_cases hq : q = r
    · simp [hq, hunmarked]
    · simp [hq]
  have hemptied' : ∀ q, (s.to r stage).stage q = .emptied ↔ s.stage q = .emptied := by
    intro q
    by_cases hq : q = r
    · simp [hq, hemptied]
    · simp [hq]
  have htaken' : ∀ q n, (s.to r stage).stage q = .taken n ↔ s.stage q = .taken n := by
    intro q n
    by_cases hq : q = r
    · simp [hq, htaken]
    · simp [hq]
  have hserves : ∀ n q, Serves (s.to r stage) n q ↔ Serves s n q := by
    intro n q
    simp only [Serves, hawaits']
    rfl
  constructor
  case freshStage =>
    intro q hq
    have hne : q ≠ r := by
      have hle : s.next ≤ q := hq
      omega
    rw [to_stage, if_neg hne]
    exact h.freshStage q hq
  case noneFailed =>
    intro q
    by_cases hq : q = r
    · simpa [hq] using hto
    · simpa [hq] using h.noneFailed q
  case freshServer => exact h.freshServer
  case freshShutdown => exact h.freshShutdown
  case freshTaken =>
    simp only [htaken']
    exact h.freshTaken
  case unrouted =>
    simp only [hholds']
    exact h.unrouted
  case routed =>
    simp only [hholds']
    exact h.routed
  case unmarked =>
    simp only [hholds', hunmarked']
    exact h.unmarked
  case emptied =>
    simp only [hholds', hemptied']
    exact h.emptied
  case claimed =>
    simp only [hholds', hemptied']
    exact h.claimed
  case serves =>
    simp only [hholds', hunmarked', hserves]
    exact h.serves
  case runs =>
    simp only [htaken']
    exact h.runs
  case awaited =>
    simp only [hawaits']
    exact h.awaited
  case started =>
    simp only [hawaits']
    exact h.started
  case untaken =>
    simp only [htaken']
    exact h.untaken

theorem inv_return (h : Inv s) (hstage : s.stage r = .inserted false ∨ s.stage r = .spawned) :
    Inv (s.to r .live) := by
  rcases hstage with hstage | hstage
  · exact h.toStage (by simp [hstage]) (by simp) (by simp [Holds, Registering, hstage])
      (by simp [Awaits, hstage]) (by simp [hstage]) (by simp [hstage]) (by simp [hstage])
  · exact h.toStage (by simp [hstage]) (by simp) (by simp [Holds, Registering, hstage])
      (by simp [Awaits, hstage]) (by simp [hstage]) (by simp [hstage]) (by simp [hstage])

theorem inv_resolve (h : Inv s) (hstage : s.stage r = .marked n) : Inv (s.to r (.resolved n)) :=
  h.toStage (by simp [hstage]) (by simp) (by simp [Holds, Registering, hstage])
    (by simp [Awaits, hstage, eq_comm]) (by simp [hstage]) (by simp [hstage]) (by simp [hstage])

theorem holds_congr {t : ServerState} {q : ℕ} (h : t.stage q = s.stage q) : Holds t q ↔ Holds s q := by
  simp only [Holds, Registering, h]

theorem awaits_congr {t : ServerState} {q : ℕ} (h : t.stage q = s.stage q) (n : ℕ) :
    Awaits t q n ↔ Awaits s q n := by
  simp only [Awaits, h]

theorem Registering.holds (h : Registering s r) : Holds s r := .inr h

theorem mark_stage (s : ServerState) (r q : ℕ) :
    (mark s r).stage q = if q = r then .marked s.next else s.stage q := to_stage ..

/-- A server is marked as running before its address is known. -/
theorem inv_mark (h : Inv s) (hstage : s.stage r = .inserted true) : Inv (mark s r) := by
  obtain ⟨hnone, honly⟩ := h.unmarked r hstage
  have hlt : r < s.next := h.lt_next (by simp [hstage])
  have hown : Holds s r := .inr (.inl ⟨true, hstage⟩)
  have hself : (mark s r).stage r = .marked s.next := by rw [mark_stage, if_pos rfl]
  have hother : ∀ q, q ≠ r → (mark s r).stage q = s.stage q := by
    intro q hq
    rw [mark_stage, if_neg hq]
  have hholds : ∀ q, Holds (mark s r) q ↔ Holds s q := by
    intro q
    by_cases hq : q = r
    · rw [hq]
      exact iff_of_true (.inr (.inr (.inl ⟨s.next, hself⟩))) hown
    · exact holds_congr (hother q hq)
  have hawaits : ∀ q n, Awaits (mark s r) q n ↔ q = r ∧ n = s.next := by
    intro q n
    by_cases hq : q = r
    · simp [Awaits, hq, hself, eq_comm]
    · rw [awaits_congr (hother q hq)]
      refine iff_of_false (fun hold => ?_) (fun hnew => hq hnew.1)
      exact absurd (hnone.symm.trans (h.awaited q n hold).1) (by simp)
  have htaken : ∀ q n, (mark s r).stage q = .taken n ↔ s.stage q = .taken n := by
    intro q n
    by_cases hq : q = r
    · simp [hq, hself, hstage]
    · rw [hother q hq]
  constructor
  case freshStage =>
    intro q hq
    have hle : s.next + 1 ≤ q := hq
    rw [hother q (by omega)]
    exact h.freshStage q (by omega)
  case freshServer => exact fun n hn => h.freshServer n (Nat.le_of_succ_le hn)
  case freshShutdown =>
    intro n hn
    obtain rfl : s.next = n := Option.some.inj hn
    exact Nat.lt_succ_self _
  case freshTaken =>
    intro q n hq
    exact Nat.lt_succ_of_lt (h.freshTaken q n ((htaken q n).mp hq))
  case noneFailed =>
    intro q
    by_cases hq : q = r
    · simp [hq, hself]
    · rw [hother q hq]
      exact h.noneFailed q
  case unrouted =>
    simp only [hholds]
    exact h.unrouted
  case routed =>
    simp only [hholds]
    exact h.routed
  case unmarked =>
    intro q hq
    have hne : q ≠ r := by
      rintro rfl
      exact absurd (hself.symm.trans hq) (by simp)
    rw [hother q hne] at hq
    exact absurd (honly q (.inr (.inl ⟨true, hq⟩))) hne
  case emptied =>
    intro q hq
    have hne : q ≠ r := by
      rintro rfl
      exact absurd (hself.symm.trans hq) (by simp)
    rw [hother q hne] at hq
    exact absurd hown (h.emptied q hq r)
  case claimed => exact fun _ _ => .inl ⟨r, (hholds r).mpr hown⟩
  case serves =>
    intro _ _
    exact .inr ⟨s.next, rfl, fun _ _ => .inl ⟨r, (hawaits r s.next).mpr ⟨rfl, rfl⟩⟩⟩
  case runs =>
    intro n hn
    rcases h.runs n hn with hmarker | ⟨q, hq⟩
    · exact absurd (hnone.symm.trans hmarker) (by simp)
    · exact .inr ⟨q, (htaken q n).mpr hq⟩
  case awaited =>
    intro q n hq
    obtain ⟨rfl, rfl⟩ := (hawaits q n).mp hq
    exact ⟨rfl, h.freshServer _ (Nat.le_refl _), fun q' hq' => ((hawaits q' _).mp hq').1⟩
  case started =>
    intro n hn
    exact .inl ⟨r, (hawaits r n).mpr ⟨rfl, (Option.some.inj hn).symm⟩⟩
  case untaken =>
    intro q n hq hmarker
    have hold := h.freshTaken q n ((htaken q n).mp hq)
    have hnew : s.next = n := Option.some.inj hmarker
    omega

theorem spawn_stage (s : ServerState) (r n q : ℕ) :
    (spawn s r n).stage q = if q = r then .spawned else s.stage q := to_stage ..

theorem spawn_server (s : ServerState) (r n m : ℕ) :
    (spawn s r n).server m = if m = n then .starting else s.server m := serve_server ..

/-- The server that was marked as running is started. -/
theorem inv_spawn (h : Inv s) (hstage : s.stage r = .resolved n) : Inv (spawn s r n) := by
  obtain ⟨hmarker, hunspawned, hunique⟩ := h.awaited r n (.inr hstage)
  have hlt : n < s.next := h.freshShutdown n hmarker
  have hown : Holds s r := .inr (.inr (.inr (.inl ⟨n, hstage⟩)))
  have hself : (spawn s r n).stage r = .spawned := by rw [spawn_stage, if_pos rfl]
  have hother : ∀ q, q ≠ r → (spawn s r n).stage q = s.stage q := by
    intro q hq
    rw [spawn_stage, if_neg hq]
  have hserver : ∀ m, m ≠ n → (spawn s r n).server m = s.server m := by
    intro m hm
    rw [spawn_server, if_neg hm]
  have hstarting : (spawn s r n).server n = .starting := by rw [spawn_server, if_pos rfl]
  have hholds : ∀ q, Holds (spawn s r n) q ↔ Holds s q := by
    intro q
    by_cases hq : q = r
    · rw [hq]
      exact iff_of_true (.inr (.inr (.inr (.inr hself)))) hown
    · exact holds_congr (hother q hq)
  have hawaits : ∀ q m, ¬ Awaits (spawn s r n) q m := by
    intro q m hq
    by_cases hsame : q = r
    · simp [Awaits, hsame, hself] at hq
    · rw [awaits_congr (hother q hsame)] at hq
      obtain rfl : n = m := Option.some.inj (hmarker.symm.trans (h.awaited q m hq).1)
      exact hsame (hunique q hq)
  have hstages : ∀ q stage, stage ≠ .spawned → stage ≠ .resolved n →
      ((spawn s r n).stage q = stage ↔ s.stage q = stage) := by
    intro q stage hspawned hresolved
    by_cases hq : q = r
    · rw [hq, hself, hstage]
      exact iff_of_false (Ne.symm hspawned) (Ne.symm hresolved)
    · rw [hother q hq]
  have htaken : ∀ q m, (spawn s r n).stage q = .taken m ↔ s.stage q = .taken m :=
    fun q m => hstages q _ (by simp) (by simp)
  constructor
  case freshStage =>
    intro q hq
    have hle : s.next + 1 ≤ q := hq
    have hfrom : r < s.next := h.lt_next (by simp [hstage])
    rw [hother q (by omega)]
    exact h.freshStage q (by omega)
  case freshServer =>
    intro m hm
    have hle : s.next + 1 ≤ m := hm
    rw [hserver m (by omega)]
    exact h.freshServer m (by omega)
  case freshShutdown => exact fun m hm => Nat.lt_succ_of_lt (h.freshShutdown m hm)
  case freshTaken =>
    intro q m hq
    exact Nat.lt_succ_of_lt (h.freshTaken q m ((htaken q m).mp hq))
  case noneFailed =>
    intro q hq
    exact h.noneFailed q ((hstages q _ (by simp) (by simp)).mp hq)
  case unrouted =>
    simp only [hholds]
    exact h.unrouted
  case routed =>
    simp only [hholds]
    exact h.routed
  case unmarked =>
    intro q hq
    have hold := h.unmarked q ((hstages q _ (by simp) (by simp)).mp hq)
    exact absurd (hmarker.symm.trans hold.1) (by simp)
  case emptied =>
    intro q hq
    exact absurd hown (h.emptied q ((hstages q _ (by simp) (by simp)).mp hq) r)
  case claimed => exact fun _ _ => .inl ⟨r, (hholds r).mpr hown⟩
  case serves => exact fun _ _ => .inr ⟨n, hmarker, fun _ _ => .inr (.inl (.inl hstarting))⟩
  case runs =>
    intro m hm
    by_cases hsame : m = n
    · exact .inl (hsame ▸ hmarker)
    · rw [Running, hserver m hsame] at hm
      rcases h.runs m hm with hmark | ⟨q, hq⟩
      · exact .inl hmark
      · exact .inr ⟨q, (htaken q m).mpr hq⟩
  case awaited => exact fun q m hq => absurd hq (hawaits q m)
  case started =>
    intro m hm
    obtain rfl : n = m := Option.some.inj (hmarker.symm.trans hm)
    exact .inr (by simp [hstarting])
  case untaken => exact fun q m hq => h.untaken q m ((htaken q m).mp hq)

theorem Awaits.holds (h : Awaits s r n) : Holds s r := by
  rcases h with hmarked | hresolved
  · exact .inr (.inr (.inl ⟨n, hmarked⟩))
  · exact .inr (.inr (.inr (.inl ⟨n, hresolved⟩)))

theorem Inv.unrouted_of_none (h : Inv s) (hnone : ∀ q, ¬ Holds s q) (p : String) :
    s.routes.lookup p = none := by
  cases hroute : s.routes.lookup p with
  | none => rfl
  | some route => exact absurd (h.routed p route hroute).1 (hnone _)

/-- Without registrations and without a mark, only what was taken may still run. -/
theorem inv_of_none {t : ServerState} (hstage : ∀ q, t.next ≤ q → t.stage q = .absent)
    (hserver : ∀ n, t.next ≤ n → t.server n = .unspawned)
    (htaken : ∀ q n, t.stage q = .taken n → n < t.next) (hfailed : ∀ q, t.stage q ≠ .failed)
    (hroutes : ∀ p, t.routes.lookup p = none) (hnone : ∀ q, ¬ Holds t q)
    (hshutdown : t.shutdown = none) (hruns : ∀ n, Running t n → ∃ q, t.stage q = .taken n) :
    Inv t where
  freshStage := hstage
  freshServer := hserver
  freshShutdown n hn := absurd (hshutdown.symm.trans hn) (by simp)
  freshTaken := htaken
  noneFailed := hfailed
  unrouted _ _ q hq := absurd hq (hnone q)
  routed p _ hroute := absurd ((hroutes p).symm.trans hroute) (by simp)
  unmarked q hq := absurd (.inr (.inl ⟨true, hq⟩)) (hnone q)
  emptied _ _ := hnone
  claimed n hn := absurd (hshutdown.symm.trans hn) (by simp)
  serves q hq := absurd hq (hnone q)
  runs n hn := .inr (hruns n hn)
  awaited q _ hq := absurd hq.holds (hnone q)
  started n hn := absurd (hshutdown.symm.trans hn) (by simp)
  untaken _ _ _ hn := absurd (hshutdown.symm.trans hn) (by simp)

theorem take_eq (s : ServerState) (r : ℕ) : ∃ stage,
    take s r = { s.to r stage with shutdown := none } ∧
      (s.shutdown = none ∧ stage = .dropped ∨ ∃ n, s.shutdown = some n ∧ stage = .taken n) := by
  cases hmarker : s.shutdown with
  | none => exact ⟨.dropped, by simp only [take, hmarker, ServerState.to], .inl ⟨rfl, rfl⟩⟩
  | some n => exact ⟨.taken n, by simp only [take, hmarker], .inr ⟨n, rfl, rfl⟩⟩

/-- Where nothing is routed the mark is taken away. -/
theorem inv_take (h : Inv s) (hstage : s.stage r = .emptied) : Inv (take s r) := by
  have hnone : ∀ q, ¬ Holds s q := h.emptied r hstage
  have hlt : r < s.next := h.lt_next (by simp [hstage])
  obtain ⟨stage, heq, hto⟩ := take_eq s r
  have hstages : ∀ q, (take s r).stage q = if q = r then stage else s.stage q := by
    intro q
    rw [heq]
    exact to_stage ..
  have hnew : ∀ n, stage = .taken n ↔ s.shutdown = some n := by
    intro n
    rcases hto with ⟨hmarker, rfl⟩ | ⟨m, hmarker, rfl⟩
    · simp [hmarker]
    · simp [hmarker]
  have hquiet : stage ≠ .failed ∧ stage ≠ .live ∧ stage ≠ .spawned ∧
      (∀ b, stage ≠ .inserted b) ∧ (∀ n, stage ≠ .marked n) ∧ ∀ n, stage ≠ .resolved n := by
    rcases hto with ⟨-, rfl⟩ | ⟨m, -, rfl⟩ <;> simp
  apply inv_of_none
  · intro q hq
    have hle : s.next ≤ q := by rwa [heq] at hq
    rw [hstages, if_neg (by omega)]
    exact h.freshStage q hle
  · rw [heq]
    exact h.freshServer
  · intro q n hq
    rw [hstages] at hq
    rw [heq]
    by_cases hsame : q = r
    · rw [if_pos hsame] at hq
      exact h.freshShutdown n ((hnew n).mp hq)
    · rw [if_neg hsame] at hq
      exact h.freshTaken q n hq
  · intro q
    rw [hstages]
    by_cases hsame : q = r
    · rw [if_pos hsame]
      exact hquiet.1
    · rw [if_neg hsame]
      exact h.noneFailed q
  · rw [heq]
    exact h.unrouted_of_none hnone
  · intro q hq
    by_cases hsame : q = r
    · have hown : (take s r).stage q = stage := by rw [hstages, if_pos hsame]
      simp only [Holds, Registering, hown] at hq
      rcases hq with hlive | ⟨b, hb⟩ | ⟨n, hn⟩ | ⟨n, hn⟩ | hspawned
      · exact hquiet.2.1 hlive
      · exact hquiet.2.2.2.1 b hb
      · exact hquiet.2.2.2.2.1 n hn
      · exact hquiet.2.2.2.2.2 n hn
      · exact hquiet.2.2.1 hspawned
    · have hold : (take s r).stage q = s.stage q := by rw [hstages, if_neg hsame]
      exact hnone q ((holds_congr hold).mp hq)
  · rw [heq]
  · intro n hn
    have hrunning : Running s n := by rwa [heq] at hn
    rcases h.runs n hrunning with hmarker | ⟨q, hq⟩
    · exact ⟨r, by rw [hstages, if_pos rfl]; exact (hnew n).mpr hmarker⟩
    · have hne : q ≠ r := by
        rintro rfl
        exact absurd (hstage.symm.trans hq) (by simp)
      exact ⟨q, by rw [hstages, if_neg hne]; exact hq⟩

theorem running_wake {server : Server} (hstarting : server ≠ .starting) (hbusy : server ≠ .busy) :
    wake server ≠ .starting ∧ wake server ≠ .waiting ∧ wake server ≠ .busy := by
  cases server with
  | starting => exact absurd rfl hstarting
  | busy => exact absurd rfl hbusy
  | _ => simp [wake]

/-- The server whose mark was taken away is woken while it waits. -/
theorem inv_notify (h : Inv s) (hstage : s.stage r = .taken n) (hstarting : s.server n ≠ .starting)
    (hbusy : s.server n ≠ .busy) : Inv ((s.to r .dropped).serve n (wake (s.server n))) := by
  have hunmarked : s.shutdown ≠ some n := h.untaken r n hstage
  have hlt : n < s.next := h.freshTaken r n hstage
  have hfrom : r < s.next := h.lt_next (by simp [hstage])
  generalize ht : (s.to r .dropped).serve n (wake (s.server n)) = t
  have hself : t.stage r = .dropped := by rw [← ht]; exact (to_stage ..).trans (if_pos rfl)
  have hother : ∀ q, q ≠ r → t.stage q = s.stage q := by
    intro q hq
    rw [← ht]
    exact (to_stage ..).trans (if_neg hq)
  have hserver : ∀ m, m ≠ n → t.server m = s.server m := by
    intro m hm
    rw [← ht]
    exact (serve_server ..).trans (if_neg hm)
  have hwoken : t.server n = wake (s.server n) := by rw [← ht]; exact (serve_server ..).trans (if_pos rfl)
  have hsame : t.routes = s.routes ∧ t.shutdown = s.shutdown ∧ t.path = s.path ∧
      t.startedAt = s.startedAt ∧ t.next = s.next := by
    rw [← ht]
    exact ⟨rfl, rfl, rfl, rfl, rfl⟩
  obtain ⟨hroutes, hshutdown, hpath, hstartedAt, hnext⟩ := hsame
  have hholds : ∀ q, Holds t q ↔ Holds s q := by
    intro q
    by_cases hq : q = r
    · simp [hq, Holds, Registering, hself, hstage]
    · exact holds_congr (hother q hq)
  have hawaits : ∀ q m, Awaits t q m ↔ Awaits s q m := by
    intro q m
    by_cases hq : q = r
    · simp [hq, Awaits, hself, hstage]
    · exact awaits_congr (hother q hq) m
  have hstages : ∀ q stage, stage ≠ .dropped → stage ≠ .taken n →
      (t.stage q = stage ↔ s.stage q = stage) := by
    intro q stage hdropped htaken
    by_cases hq : q = r
    · rw [hq, hself, hstage]
      exact iff_of_false (Ne.symm hdropped) (Ne.symm htaken)
    · rw [hother q hq]
  have hmarkers : ∀ m, s.shutdown = some m → m ≠ n := by
    rintro m hm rfl
    exact hunmarked hm
  have hrunning : ∀ m, m ≠ n → (Running t m ↔ Running s m) := by
    intro m hm
    rw [Running, Running, hserver m hm]
  have hquiet : ¬ Running t n := by
    have hwake := running_wake hstarting hbusy
    simp [Running, hwoken, hwake]
  constructor
  case freshStage =>
    intro q hq
    rw [hnext] at hq
    rw [hother q (by omega)]
    exact h.freshStage q hq
  case freshServer =>
    intro m hm
    rw [hnext] at hm
    rw [hserver m (by omega)]
    exact h.freshServer m hm
  case freshShutdown =>
    rw [hshutdown, hnext]
    exact h.freshShutdown
  case freshTaken =>
    intro q m hq
    have hne : q ≠ r := by
      rintro rfl
      exact absurd (hself.symm.trans hq) (by simp)
    rw [hnext]
    exact h.freshTaken q m ((hother q hne).symm.trans hq)
  case noneFailed =>
    intro q hq
    exact h.noneFailed q ((hstages q _ (by simp) (by simp)).mp hq)
  case unrouted =>
    simp only [hholds, hroutes, hpath]
    exact h.unrouted
  case routed =>
    simp only [hholds, hroutes, hpath]
    exact h.routed
  case unmarked =>
    intro q hq
    simp only [hholds, hshutdown]
    exact h.unmarked q ((hstages q _ (by simp) (by simp)).mp hq)
  case emptied =>
    intro q hq
    simp only [hholds]
    exact h.emptied q ((hstages q _ (by simp) (by simp)).mp hq)
  case claimed =>
    intro m hm
    simp only [hholds]
    rcases h.claimed m (hshutdown.symm.trans hm) with hheld | ⟨q, hq⟩
    · exact .inl hheld
    · exact .inr ⟨q, (hstages q _ (by simp) (by simp)).mpr hq⟩
  case serves =>
    intro q hq
    rcases h.serves q ((hholds q).mp hq) with ⟨q', hq'⟩ | ⟨m, hm, hserves⟩
    · exact .inl ⟨q', (hstages q' _ (by simp) (by simp)).mpr hq'⟩
    · refine .inr ⟨m, hshutdown.trans hm, ?_⟩
      intro q' hq'
      have hold := hserves q' ((hholds q').mp hq')
      rw [Serves, hrunning m (hmarkers m hm), hserver m (hmarkers m hm), hstartedAt]
      simp only [hawaits]
      exact hold
  case runs =>
    intro m hm
    have hne : m ≠ n := by
      rintro rfl
      exact hquiet hm
    rcases h.runs m ((hrunning m hne).mp hm) with hmarker | ⟨q, hq⟩
    · exact .inl (hshutdown.trans hmarker)
    · have hthere : q ≠ r := by
        rintro rfl
        exact hne (Stage.taken.inj (hq.symm.trans hstage))
      exact .inr ⟨q, (hother q hthere).trans hq⟩
  case awaited =>
    intro q m hq
    obtain ⟨hmarker, hunspawned, hunique⟩ := h.awaited q m ((hawaits q m).mp hq)
    refine ⟨hshutdown.trans hmarker, (hserver m (hmarkers m hmarker)).trans hunspawned, ?_⟩
    exact fun q' hq' => hunique q' ((hawaits q' m).mp hq')
  case started =>
    intro m hm
    have hmarker := hshutdown.symm.trans hm
    simp only [hawaits, hserver m (hmarkers m hmarker)]
    exact h.started m hmarker
  case untaken =>
    intro q m hq
    have hne : q ≠ r := by
      rintro rfl
      exact absurd (hself.symm.trans hq) (by simp)
    rw [hshutdown]
    exact h.untaken q m ((hother q hne).symm.trans hq)

theorem keys_isEmpty_iff (routes : AList fun _ : String => Route) :
    routes.keys.isEmpty = true ↔ ∀ p, routes.lookup p = none := by
  rw [List.isEmpty_iff, List.eq_nil_iff_forall_not_mem]
  apply forall_congr'
  intro p
  rw [AList.lookup_eq_none]
  rfl

/-- The handle of the only registration of its path is dropped. -/
theorem inv_drop (h : Inv s) (hstage : s.stage r = .live)
    (halone : ∀ q, Holds s q → s.path q = s.path r → q = r) : Inv (drop s r) := by
  have hown : Holds s r := .inl hstage
  have hfrom : r < s.next := h.lt_next (by simp [hstage])
  generalize ht : drop s r = t
  rw [drop, if_pos hstage] at ht
  have hself : t.stage r = if (s.routes.erase (s.path r)).keys.isEmpty then .emptied else .dropped := by
    rw [← ht]
    exact (to_stage ..).trans (if_pos rfl)
  have hother : ∀ q, q ≠ r → t.stage q = s.stage q := by
    intro q hq
    rw [← ht]
    exact (to_stage ..).trans (if_neg hq)
  have hsame : t.routes = s.routes.erase (s.path r) ∧ t.shutdown = s.shutdown ∧ t.path = s.path ∧
      t.server = s.server ∧ t.startedAt = s.startedAt ∧ t.next = s.next := by
    rw [← ht]
    exact ⟨rfl, rfl, rfl, rfl, rfl, rfl⟩
  obtain ⟨hroutes, hshutdown, hpath, hserver, hstartedAt, hnext⟩ := hsame
  have hends : t.stage r = .emptied ∨ t.stage r = .dropped := by
    rw [hself]
    cases (s.routes.erase (s.path r)).keys.isEmpty <;> simp
  have hholds : ∀ q, Holds t q ↔ q ≠ r ∧ Holds s q := by
    intro q
    by_cases hq : q = r
    · rcases hends with hend | hend <;> simp [hq, Holds, Registering, hend]
    · rw [holds_congr (hother q hq)]
      exact (and_iff_right hq).symm
  have hawaits : ∀ q m, Awaits t q m ↔ Awaits s q m := by
    intro q m
    by_cases hq : q = r
    · rcases hends with hend | hend <;> simp [hq, Awaits, hend, hstage]
    · exact awaits_congr (hother q hq) m
  have htaken : ∀ q m, t.stage q = .taken m ↔ s.stage q = .taken m := by
    intro q m
    by_cases hq : q = r
    · rcases hends with hend | hend <;> simp [hq, hend, hstage]
    · rw [hother q hq]
  have hrunning : ∀ m, Running t m ↔ Running s m := by
    intro m
    rw [Running, Running, hserver]
  have hlookup : ∀ p, p ≠ s.path r → t.routes.lookup p = s.routes.lookup p := by
    intro p hp
    rw [hroutes, AList.lookup_erase_ne hp]
  have hgone : t.routes.lookup (s.path r) = none := by rw [hroutes, AList.lookup_erase]
  have hunrouted : ∀ p, t.routes.lookup p = none → ∀ q, Holds t q → t.path q ≠ p := by
    intro p hp q hq hqp
    obtain ⟨hne, hold⟩ := (hholds q).mp hq
    rw [hpath] at hqp
    by_cases hown' : p = s.path r
    · exact hne (halone q hold (hqp.trans hown'))
    · rw [hlookup p hown'] at hp
      exact h.unrouted p hp q hold hqp
  have hrouted : ∀ p route, t.routes.lookup p = some route →
      Holds t route.registration ∧ t.path route.registration = p ∧
        ∀ q, Holds t q → t.path q = p → q ≤ route.registration := by
    intro p route hroute
    by_cases hown' : p = s.path r
    · rw [hown', hgone] at hroute
      exact absurd hroute (by simp)
    · rw [hlookup p hown'] at hroute
      obtain ⟨hheld, hthere, hlatest⟩ := h.routed p route hroute
      rw [hpath]
      refine ⟨(hholds _).mpr ⟨?_, hheld⟩, hthere, ?_⟩
      · intro heq
        exact hown' (heq ▸ hthere.symm)
      · exact fun q hq hqp => hlatest q ((hholds q).mp hq).2 hqp
  constructor
  case freshStage =>
    intro q hq
    rw [hnext] at hq
    rw [hother q (by omega)]
    exact h.freshStage q hq
  case freshServer =>
    rw [hserver, hnext]
    exact h.freshServer
  case freshShutdown =>
    rw [hshutdown, hnext]
    exact h.freshShutdown
  case freshTaken =>
    simp only [htaken, hnext]
    exact h.freshTaken
  case noneFailed =>
    intro q
    by_cases hq : q = r
    · rcases hends with hend | hend <;> simp [hq, hend]
    · rw [hother q hq]
      exact h.noneFailed q
  case unrouted => exact hunrouted
  case routed => exact hrouted
  case unmarked =>
    intro q hq
    have hne : q ≠ r := by
      rintro rfl
      rcases hends with hend | hend <;> simp [hend] at hq
    have hold := h.unmarked q ((hother q hne).symm.trans hq)
    exact absurd (hold.2 r hown).symm hne
  case emptied =>
    intro q hq q' hq'
    by_cases hsame : q = r
    · have hempty : (s.routes.erase (s.path r)).keys.isEmpty = true := by
        rw [hsame, hself] at hq
        by_contra hnot
        rw [if_neg hnot] at hq
        exact absurd hq (by simp)
      have hnone := (keys_isEmpty_iff _).mp hempty (t.path q')
      rw [← hroutes] at hnone
      exact hunrouted _ hnone q' hq' rfl
    · exact h.emptied q ((hother q hsame).symm.trans hq) r hown
  case claimed =>
    intro _ _
    by_cases hempty : (s.routes.erase (s.path r)).keys.isEmpty = true
    · exact .inr ⟨r, by rw [hself, if_pos hempty]⟩
    · rw [← hroutes, keys_isEmpty_iff] at hempty
      push Not at hempty
      obtain ⟨p, hp⟩ := hempty
      obtain ⟨route, hroute⟩ := Option.ne_none_iff_exists'.mp hp
      exact .inl ⟨route.registration, (hrouted p route hroute).1⟩
  case serves =>
    intro q _
    right
    rcases h.serves r hown with ⟨q', hq'⟩ | ⟨m, hm, hserves⟩
    · have heq := (h.unmarked q' hq').2 r hown
      rw [← heq, hstage] at hq'
      exact absurd hq' (by simp)
    · refine ⟨m, hshutdown.trans hm, ?_⟩
      intro q' hq'
      have hold := hserves q' ((hholds q').mp hq').2
      rw [Serves, hrunning, hserver, hstartedAt]
      simp only [hawaits]
      exact hold
  case runs =>
    simp only [hrunning, hshutdown, htaken]
    exact h.runs
  case awaited =>
    simp only [hawaits, hshutdown, hserver]
    exact h.awaited
  case started =>
    simp only [hawaits, hshutdown, hserver]
    exact h.started
  case untaken =>
    simp only [htaken, hshutdown]
    exact h.untaken

/-- A registration puts its route in while no other call is between two of its critical sections. -/
theorem inv_register (h : Inv s) {path secret : String} (haccepted : refused path secret = false)
    (hmarked : ∀ q, s.stage q ≠ .inserted true) (hfilled : ∀ q, s.stage q ≠ .emptied)
    (hrunning : ∀ n, s.shutdown = some n → s.server n ≠ .ended) : Inv (register s path secret) := by
  have hfresh : s.stage s.next = .absent := h.freshStage s.next (Nat.le_refl _)
  have hnew : ¬ Holds s s.next := by simp [Holds, Registering, hfresh]
  have hold : ∀ q, Holds s q → q < s.next := by
    intro q hq
    apply h.lt_next
    intro habsent
    simp [Holds, Registering, habsent] at hq
  have hnone : s.shutdown = none → ∀ q, ¬ Holds s q := by
    intro hshutdown q hq
    rcases h.serves q hq with ⟨q', hq'⟩ | ⟨m, hm, -⟩
    · exact hmarked q' hq'
    · exact absurd (hshutdown.symm.trans hm) (by simp)
  generalize ht : register s path secret = t
  rw [register, if_neg (by simp [haccepted])] at ht
  have hself : t.stage s.next = .inserted s.shutdown.isNone := by
    rw [← ht]
    exact (to_stage ..).trans (if_pos rfl)
  have hother : ∀ q, q ≠ s.next → t.stage q = s.stage q := by
    intro q hq
    rw [← ht]
    exact (to_stage ..).trans (if_neg hq)
  have hpathNew : t.path s.next = path := by
    rw [← ht]
    exact Function.update_self ..
  have hpathOld : ∀ q, q ≠ s.next → t.path q = s.path q := by
    intro q hq
    rw [← ht]
    exact Function.update_of_ne hq ..
  have hsame : t.routes = s.routes.insert path ⟨s.next, secret⟩ ∧ t.shutdown = s.shutdown ∧
      t.server = s.server ∧ t.startedAt = s.startedAt ∧ t.next = s.next + 1 := by
    rw [← ht]
    exact ⟨rfl, rfl, rfl, rfl, rfl⟩
  obtain ⟨hroutes, hshutdown, hserver, hstartedAt, hnext⟩ := hsame
  have hregistering : Holds t s.next := .inr (.inl ⟨_, hself⟩)
  have hholds : ∀ q, Holds t q ↔ q = s.next ∨ Holds s q := by
    intro q
    by_cases hq : q = s.next
    · rw [hq]
      exact iff_of_true hregistering (.inl rfl)
    · rw [holds_congr (hother q hq)]
      exact (or_iff_right hq).symm
  have hawaits : ∀ q m, Awaits t q m ↔ Awaits s q m := by
    intro q m
    by_cases hq : q = s.next
    · simp [hq, Awaits, hself, hfresh]
    · exact awaits_congr (hother q hq) m
  have htaken : ∀ q m, t.stage q = .taken m ↔ s.stage q = .taken m := by
    intro q m
    by_cases hq : q = s.next
    · simp [hq, hself, hfresh]
    · rw [hother q hq]
  have hruns : ∀ m, Running t m ↔ Running s m := by
    intro m
    rw [Running, Running, hserver]
  constructor
  case freshStage =>
    intro q hq
    rw [hnext] at hq
    rw [hother q (by omega)]
    exact h.freshStage q (by omega)
  case freshServer =>
    intro m hm
    rw [hnext] at hm
    rw [hserver]
    exact h.freshServer m (by omega)
  case freshShutdown =>
    intro m hm
    rw [hnext]
    exact Nat.lt_succ_of_lt (h.freshShutdown m (hshutdown.symm.trans hm))
  case freshTaken =>
    intro q m hq
    rw [hnext]
    exact Nat.lt_succ_of_lt (h.freshTaken q m ((htaken q m).mp hq))
  case noneFailed =>
    intro q
    by_cases hq : q = s.next
    · simp [hq, hself]
    · rw [hother q hq]
      exact h.noneFailed q
  case unrouted =>
    intro p hp q hq hqp
    by_cases hown : p = path
    · rw [hroutes, hown, AList.lookup_insert] at hp
      exact absurd hp (by simp)
    · rw [hroutes, AList.lookup_insert_ne hown] at hp
      rcases (hholds q).mp hq with rfl | hheld
      · exact hown (hqp.symm.trans hpathNew)
      · have hne : q ≠ s.next := Nat.ne_of_lt (hold q hheld)
        exact h.unrouted p hp q hheld ((hpathOld q hne).symm.trans hqp)
  case routed =>
    intro p route hroute
    by_cases hown : p = path
    · rw [hroutes, hown, AList.lookup_insert] at hroute
      obtain rfl := Option.some.inj hroute
      refine ⟨hregistering, hpathNew.trans hown.symm, ?_⟩
      intro q hq _
      rcases (hholds q).mp hq with rfl | hheld
      · exact Nat.le_refl _
      · exact Nat.le_of_lt (hold q hheld)
    · rw [hroutes, AList.lookup_insert_ne hown] at hroute
      obtain ⟨hheld, hthere, hlatest⟩ := h.routed p route hroute
      have hne := Nat.ne_of_lt (hold _ hheld)
      refine ⟨(hholds _).mpr (.inr hheld), (hpathOld _ hne).trans hthere, ?_⟩
      intro q hq hqp
      rcases (hholds q).mp hq with rfl | hheld'
      · exact absurd (hqp.symm.trans hpathNew) hown
      · exact hlatest q hheld' ((hpathOld q (Nat.ne_of_lt (hold q hheld'))).symm.trans hqp)
  case unmarked =>
    intro q hq
    by_cases hsame : q = s.next
    · rw [hsame, hself, Stage.inserted.injEq, Option.isNone_iff_eq_none] at hq
      refine ⟨hshutdown.trans hq, ?_⟩
      intro q' hq'
      rcases (hholds q').mp hq' with rfl | hheld
      · exact hsame.symm
      · exact absurd hheld (hnone hq q')
    · exact absurd ((hother q hsame).symm.trans hq) (hmarked q)
  case emptied =>
    intro q hq
    have hne : q ≠ s.next := by
      rintro rfl
      simp [hself] at hq
    exact absurd ((hother q hne).symm.trans hq) (hfilled q)
  case claimed => exact fun _ _ => .inl ⟨s.next, hregistering⟩
  case serves =>
    intro _ _
    cases hmarker : s.shutdown with
    | none => exact .inl ⟨s.next, by rw [hself, hmarker]; rfl⟩
    | some m =>
      refine .inr ⟨m, hshutdown.trans hmarker, ?_⟩
      intro q hq
      have hgoal : Serves s m q → Serves t m q := by
        rw [Serves, Serves, hruns, hserver, hstartedAt]
        simp only [hawaits]
        exact id
      apply hgoal
      rcases (hholds q).mp hq with rfl | hheld
      · rcases h.started m hmarker with hwaits | ⟨hspawned, hnotified⟩
        · exact .inl hwaits
        · refine .inr (.inl ?_)
          have hended := hrunning m hmarker
          cases hphase : s.server m <;> simp_all [Running]
      · rcases h.serves q hheld with ⟨q', hq'⟩ | ⟨m', hm', hserves⟩
        · exact absurd hq' (hmarked q')
        · obtain rfl : m = m' := Option.some.inj (hmarker.symm.trans hm')
          exact hserves q hheld
  case runs =>
    simp only [hruns, hshutdown, htaken]
    exact h.runs
  case awaited =>
    simp only [hawaits, hshutdown, hserver]
    exact h.awaited
  case started =>
    simp only [hawaits, hshutdown, hserver]
    exact h.started
  case untaken =>
    simp only [htaken, hshutdown]
    exact h.untaken

/-- A server goes on, and if it ends it is not needed by what was registered after its start. -/
theorem inv_serve (h : Inv s) {server : Server} (hspawned : s.server n ≠ .unspawned)
    (hlater : server ≠ .unspawned) (hnotified : server ≠ .notified)
    (hrun : Running (s.serve n server) n → Running s n)
    (hends : s.shutdown = some n → Running (s.serve n server) n ∨ ∀ r, Holds s r → r < s.startedAt n) :
    Inv (s.serve n server) := by
  have hself : (s.serve n server).server n = server := by simp
  have hother : ∀ m, m ≠ n → (s.serve n server).server m = s.server m := by
    intro m hm
    simp [hm]
  have hrunning : ∀ m, m ≠ n → (Running (s.serve n server) m ↔ Running s m) := by
    intro m hm
    rw [Running, Running, hother m hm]
  constructor
  case freshStage => exact h.freshStage
  case freshServer =>
    intro m hm
    have hne : m ≠ n := by
      rintro rfl
      exact hspawned (h.freshServer m hm)
    rw [hother m hne]
    exact h.freshServer m hm
  case freshShutdown => exact h.freshShutdown
  case freshTaken => exact h.freshTaken
  case noneFailed => exact h.noneFailed
  case unrouted => exact h.unrouted
  case routed => exact h.routed
  case unmarked => exact h.unmarked
  case emptied => exact h.emptied
  case claimed => exact h.claimed
  case serves =>
    intro r hr
    rcases h.serves r hr with hunmarked | ⟨m, hm, hserves⟩
    · exact .inl hunmarked
    · refine .inr ⟨m, hm, ?_⟩
      intro q hq
      by_cases hsame : m = n
      · subst hsame
        rcases hends hm with hruns | hbefore
        · exact .inr (.inl hruns)
        · exact .inr (.inr ⟨by rw [hself]; exact hlater, hbefore q hq⟩)
      · have hold := hserves q hq
        rw [Serves, hrunning m hsame, hother m hsame]
        exact hold
  case runs =>
    intro m hm
    by_cases hsame : m = n
    · subst hsame
      exact h.runs m (hrun hm)
    · exact h.runs m ((hrunning m hsame).mp hm)
  case awaited =>
    intro q m hq
    obtain ⟨hmarker, hunspawned, hunique⟩ := h.awaited q m hq
    have hne : m ≠ n := by
      rintro rfl
      exact hspawned hunspawned
    exact ⟨hmarker, (hother m hne).trans hunspawned, hunique⟩
  case started =>
    intro m hm
    by_cases hsame : m = n
    · subst hsame
      right
      rw [hself]
      exact ⟨hlater, hnotified⟩
    · rw [hother m hsame]
      exact h.started m hm
  case untaken => exact h.untaken

theorem register_refused {path secret : String} (hrefused : refused path secret = true) :
    register s path secret = s := if_pos hrefused

theorem inv_advance (h : Inv s) {resolves : Bool}
    (hresolves : (∃ n, s.stage r = .marked n) → resolves = true)
    (htaken : ∀ n, s.stage r = .taken n → s.server n ≠ .starting ∧ s.server n ≠ .busy) :
    Inv (advance s r resolves) := by
  cases hstage : s.stage r with
  | inserted needsSpawn =>
    cases needsSpawn with
    | true =>
      simp only [advance, hstage]
      exact inv_mark h hstage
    | false =>
      simp only [advance, hstage]
      exact inv_return h (.inl hstage)
  | marked n =>
    simp only [advance, hstage, hresolves ⟨n, hstage⟩, if_true]
    exact inv_resolve h hstage
  | resolved n =>
    simp only [advance, hstage]
    exact inv_spawn h hstage
  | spawned =>
    simp only [advance, hstage]
    exact inv_return h (.inr hstage)
  | emptied =>
    simp only [advance, hstage]
    exact inv_take h hstage
  | taken n =>
    simp only [advance, hstage]
    exact inv_notify h hstage (htaken n hstage).1 (htaken n hstage).2
  | absent | live | failed | dropped =>
    simp only [advance, hstage]
    exact h

theorem inv_bind (h : Inv s) {bound : Bool} (hstarting : s.server n = .starting)
    (hbound : bound = false → s.shutdown = some n → ∀ r, Holds s r → r < s.startedAt n) :
    Inv (s.serve n (if bound then .waiting else .ended)) := by
  have hrun : Running s n := .inl hstarting
  have hspawned : s.server n ≠ .unspawned := by simp [hstarting]
  cases bound with
  | true => exact inv_serve h hspawned (by simp) (by simp) (fun _ => hrun) (fun _ => .inl (by simp [Running]))
  | false => exact inv_serve h hspawned (by simp) (by simp) (fun _ => hrun) (fun hm => .inr (hbound rfl hm))

/-- What one step without a gap keeps. -/
theorem inv_step {a : Action} (h : Inv s) (hcalm : Calm s a) : Inv (step s a) := by
  cases a with
  | register path secret =>
    cases hrefused : refused path secret with
    | true =>
      simp only [step, register_refused hrefused]
      exact h
    | false =>
      rcases hcalm with habsurd | ⟨hmarked, hfilled, hrunning⟩
      · exact absurd (hrefused.symm.trans habsurd) (by simp)
      · exact inv_register h hrefused hmarked hfilled hrunning
  | advance r resolves => exact inv_advance h hcalm.1 hcalm.2
  | drop r =>
    by_cases hstage : s.stage r = .live
    · exact inv_drop h hstage (hcalm hstage)
    · simp only [step, drop, if_neg hstage]
      exact h
  | bind n bound =>
    by_cases hstarting : s.server n = .starting
    · simp only [step, if_pos hstarting]
      exact inv_bind h hstarting (hcalm hstarting)
    · simp only [step, if_neg hstarting]
      exact h
  | accept n =>
    by_cases hwaiting : s.server n = .waiting
    · simp only [step, if_pos hwaiting]
      have hrun : Running s n := .inr (.inl hwaiting)
      exact inv_serve h (by simp [hwaiting]) (by simp) (by simp) (fun _ => hrun)
        (fun _ => .inl (by simp [Running]))
    · simp only [step, if_neg hwaiting]
      exact h
  | again n =>
    by_cases hbusy : s.server n = .busy
    · simp only [step, if_pos hbusy]
      have hrun : Running s n := .inr (.inr hbusy)
      exact inv_serve h (by simp [hbusy]) (by simp) (by simp) (fun _ => hrun)
        (fun _ => .inl (by simp [Running]))
    · simp only [step, if_neg hbusy]
      exact h
  | stop n =>
    by_cases hnotified : s.server n = .notified
    · simp only [step, if_pos hnotified]
      have hunmarked : s.shutdown ≠ some n := by
        intro hmarker
        rcases h.started n hmarker with ⟨q, hq⟩ | ⟨-, hnot⟩
        · exact absurd ((h.awaited q n hq).2.1.symm.trans hnotified) (by simp)
        · exact hnot hnotified
      exact inv_serve h (by simp [hnotified]) (by simp) (by simp) (by simp [Running])
        (fun hmarker => absurd hmarker hunmarked)
    · simp only [step, if_neg hnotified]
      exact h

theorem live_of_holds (hheld : Holds s r) (hreturned : ¬ Registering s r) : s.stage r = .live :=
  hheld.resolve_right hreturned

theorem Inv.consistent (h : Inv s) : Consistent s := by
  constructor
  case routed =>
    intro p hreturned r
    constructor
    · intro hr
      obtain ⟨route, hroute, rfl⟩ := Option.map_eq_some_iff.mp hr
      obtain ⟨hheld, hthere, hlatest⟩ := h.routed p route hroute
      refine ⟨live_of_holds hheld (hreturned _ hthere), hthere, ?_⟩
      exact fun r' hlive hr' => hlatest r' (.inl hlive) hr'
    · rintro ⟨hlive, hthere, hlatest⟩
      cases hroute : s.routes.lookup p with
      | none => exact absurd hthere (h.unrouted p hroute r (.inl hlive))
      | some route =>
        obtain ⟨hheld, hpath, hmost⟩ := h.routed p route hroute
        have hle : route.registration ≤ r :=
          hlatest _ (live_of_holds hheld (hreturned _ hpath)) hpath
        have hge : r ≤ route.registration := hmost r (.inl hlive) hthere
        simp only [Option.map_some, Option.some.injEq]
        omega
  case failed => exact fun r hr => absurd hr (h.noneFailed r)
  case served =>
    intro hreturned r hlive
    rcases h.serves r (.inl hlive) with ⟨q, hq⟩ | ⟨n, -, hserves⟩
    · exact absurd (.inl ⟨true, hq⟩) (hreturned q)
    · rcases hserves r (.inl hlive) with ⟨q, hmarked | hresolved⟩ | hserved
      · exact absurd (.inr (.inl ⟨n, hmarked⟩)) (hreturned q)
      · exact absurd (.inr (.inr (.inl ⟨n, hresolved⟩))) (hreturned q)
      · exact ⟨n, hserved⟩
  case stopped =>
    intro hquiet n hn
    rcases h.runs n hn with hmarker | ⟨r, hr⟩
    · rcases h.claimed n hmarker with ⟨r, hlive | hreturning⟩ | ⟨r, hr⟩
      · exact (hquiet r).2.1 hlive
      · exact (hquiet r).1 hreturning
      · exact (hquiet r).2.2.1 hr
    · exact (hquiet r).2.2.2 n hr

end Invariant

section Runs

/-- Registered, served, dropped and stopped. -/
def registerAndDrop : List Action :=
  [.register "/a" "sixteen characters", .advance 0 true, .advance 0 true, .advance 0 true,
    .advance 0 true, .bind 1 true, .drop 0, .advance 0 true, .advance 0 true, .stop 1]

theorem registerAndDrop_calm : Machine.Throughout step Calm .start registerAndDrop := by
  have haccepted : refused "/a" "sixteen characters" = false := by decide
  simp [registerAndDrop, Machine.Throughout, Calm, Holds, Registering, step, register, haccepted,
    advance, mark, spawn, take, drop, ServerState.start, ServerState.to, ServerState.serve,
    Function.update_apply]

/-- A path is registered again before the handle of the first registration is dropped. -/
def registerAgain : List Action :=
  [.register "/a" "sixteen characters", .advance 0 true, .advance 0 true, .advance 0 true,
    .advance 0 true, .bind 1 true, .register "/a" "sixteen characters", .advance 3 true, .drop 0,
    .advance 0 true, .advance 0 true]

theorem registerAgain_stage (r : ℕ) : (Machine.run step .start registerAgain).stage r =
    if r = 0 then .dropped else if r = 3 then .live else .absent := by
  by_cases hzero : r = 0
  · rw [hzero]
    decide +kernel
  · by_cases hthree : r = 3
    · rw [hthree]
      decide +kernel
    · have haccepted : refused "/a" "sixteen characters" = false := by decide
      simp [registerAgain, step, register, haccepted, advance, mark, spawn, take, drop,
        ServerState.start, ServerState.to, ServerState.serve, hzero, hthree]

end Runs
end WebhookServer
