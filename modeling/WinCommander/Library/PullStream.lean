import Mathlib.Data.List.Basic

/-!
# Streams that are pulled

A stream is advanced until it says that it has ended; between two steps it shows one item.  A stream
may put further items after each one of another stream.
-/

namespace PullStream

variable {σ τ : Type*}

structure Source (σ τ : Type*) where
  advance : σ → Bool × σ
  token : σ → τ

/-- From a state a stream gives these items and ends. -/
inductive Emits (s : Source σ τ) : σ → List τ → Prop
  | done {state : σ} : (s.advance state).1 = false → Emits s state []
  | more {state : σ} {ts : List τ} : (s.advance state).1 = true → Emits s (s.advance state).2 ts →
      Emits s state (s.token (s.advance state).2 :: ts)

theorem Emits.unique {s : Source σ τ} {state : σ} {ts us : List τ} (h : Emits s state ts)
    (h' : Emits s state us) : ts = us := by
  induction h generalizing us with
  | done hend =>
    cases h' with
    | done _ => rfl
    | more hmore _ => exact absurd (hend.symm.trans hmore) (by simp)
  | more hmore _ ih =>
    cases h' with
    | done hend => exact absurd (hend.symm.trans hmore) (by simp)
    | more _ hrest => rw [ih hrest]

theorem Emits.of_advance {s : Source σ τ} {state next : σ} {ts : List τ}
    (h : s.advance state = (true, next)) (hrest : Emits s next ts) :
    Emits s state (s.token next :: ts) := by
  have hnext : (s.advance state).2 = next := by rw [h]
  have hall : Emits s state (s.token (s.advance state).2 :: ts) :=
    .more (by rw [h]) (hnext ▸ hrest)
  rwa [hnext] at hall

/-- What a stream gives is settled by its next step. -/
theorem Emits.congr {s : Source σ τ} {state state' : σ} {ts : List τ} (h : Emits s state ts)
    (hstep : s.advance state' = s.advance state) : Emits s state' ts := by
  cases h with
  | done hend => exact .done (by rw [hstep, hend])
  | more hmore hrest =>
    rw [← hstep] at hmore hrest ⊢
    exact .more hmore hrest

/-- The state of a stream that owes items: those of the other stream are its tail. -/
structure Owing (σ τ : Type*) where
  tail : σ
  queue : List τ
  current : τ

/-- What is owed comes first, then the next item of the tail, which adds to what is owed. -/
def expanded (s : Source σ τ) (owed : τ → List τ) : Source (Owing σ τ) τ where
  advance state :=
    match state.queue with
    | t :: queue => (true, { state with queue, current := t })
    | [] =>
      match s.advance state.tail with
      | (false, tail) => (false, { state with tail })
      | (true, tail) => (true, ⟨tail, owed (s.token tail), s.token tail⟩)
  token := Owing.current

theorem emits_queue {s : Source σ τ} {owed : τ → List τ} {tail : σ} {ts : List τ}
    (h : ∀ current, Emits (expanded s owed) ⟨tail, [], current⟩ ts) (queue : List τ) (current : τ) :
    Emits (expanded s owed) ⟨tail, queue, current⟩ (queue ++ ts) := by
  induction queue generalizing current with
  | nil => exact h current
  | cons t queue ih => exact Emits.more rfl (ih t)

theorem emits_expanded {s : Source σ τ} {state : σ} {ts : List τ} (h : Emits s state ts)
    (owed : τ → List τ) (current : τ) :
    Emits (expanded s owed) ⟨state, [], current⟩ (ts.flatMap fun t => t :: owed t) := by
  induction h generalizing current with
  | @done state hend =>
    apply Emits.done
    simp only [expanded]
    rw [← hend]
    cases s.advance state with
    | mk more tail => cases more <;> simp_all
  | @more state ts hmore _ ih =>
    have hstep : (expanded s owed).advance ⟨state, [], current⟩ =
        (true, ⟨(s.advance state).2, owed (s.token (s.advance state).2),
          s.token (s.advance state).2⟩) := by
      simp only [expanded]
      cases hadvance : s.advance state with
      | mk more tail =>
        rw [hadvance] at hmore
        simp only at hmore
        subst hmore
        rfl
    exact Emits.of_advance hstep (emits_queue ih _ _)

end PullStream
